/-
The scope in force after a sequence of calls.

A start finds the bridge off or on.  Off, it binds two listeners where it asks; on, it returns and
leaves them where they are.  So the scope in force is the one of the first start since the last
stop.
-/
import Aether.Share.Scope
import Aether.Proofs.Share.Session

namespace Aether.Share

open List

theorem bindHost_injective {l l' : Bool} (h : bindHost l = bindHost l') : l = l' := by
  cases l with
  | false =>
    cases l' with
    | false => rfl
    | true => cases h
  | true =>
    cases l' with
    | false => cases h
    | true => rfl

/-! ### One call -/

/-- The bridge is off, or serves a scope. -/
def Exposure.Shows (e : Exposure) : Option BindHost → Prop
  | none => e.bridge.active = false ∧ e.bridge.socksServer = none ∧ e.bridge.httpServer = none
  | some host => e.bridge.active = true ∧ e.Serves host

/-- Between two calls: the listeners that there are or were have been bound, no `stop` is under
way, and the bridge shows `scope`. -/
structure Settled (n : Nat) (scope : Option BindHost) (e : Exposure) : Prop where
  old : ∀ listener ∈ e.bridge.closed ++ e.bridge.servers, listener < e.bridge.bound
  idle : ∀ call, n ≤ call → e.bridge.stops call = .idle
  shows : e.Shows scope

theorem Settled.initial (upstreamPort : Nat) : Settled 0 none (.initial upstreamPort) where
  old := nofun
  idle _ _ := rfl
  shows := ⟨rfl, rfl, rfl⟩

/-- What a call makes of the scope in force. -/
def Call.scope (now : Option BindHost) : Call → Option BindHost
  | .startSync localOnly _ _ => some (now.getD (bindHost localOnly))
  | .stop => none

variable {n : Nat} {scope : Option BindHost} {e : Exposure}

/-- What binds nothing leaves the addresses. -/
theorem Exposure.unbound (e : Exposure) (host : Option BindHost) :
    (fun k => if e.bridge.bound ≤ k ∧ k < e.bridge.bound then host else e.hosts k) = e.hosts :=
  funext fun _ => if_neg (by omega)

theorem Settled.start_off (h : Settled n none e) (localOnly : Bool) (upstreamPort : Option Nat)
    (minted : Text) :
    ∃ e', e.step (.startSync localOnly upstreamPort minted) = .ok e' ∧
      Settled (n + 1) (some (bindHost localOnly)) e' := by
  have hfresh : ∀ k, e.bridge.bound + k ∉ e.bridge.closed ++ e.bridge.servers := by
    intro k hmem
    have hlt := h.old _ hmem
    omega
  have hnew : ∀ {listener}, listener ∈ [e.bridge.bound, e.bridge.bound + 1] →
      e.bridge.bound ≤ listener ∧ listener < e.bridge.bound + 2 := by
    intro listener hmem
    simp only [mem_cons, not_mem_nil, or_false] at hmem
    omega
  refine ⟨_, rfl, ?_⟩
  simp only [Bridge.startSync, h.shows.1, Bool.false_and, Bool.false_eq_true, if_false]
  refine ⟨fun listener hmem => ?_, fun call hcall => h.idle call (Nat.le_of_succ_le hcall), rfl,
    ⟨Bridge.isOpen_of_notMem (hfresh 0), Bridge.isOpen_of_notMem (hfresh 1)⟩,
    fun listener hmem => if_pos (hnew hmem)⟩
  exact (mem_append.mp hmem).elim (fun hold => Nat.lt_add_right 2 (h.old listener hold))
    fun hmem => (hnew hmem).2

/-- A start that finds listeners leaves them. -/
theorem Settled.start_on {host : BindHost} (h : Settled n (some host) e) (localOnly : Bool)
    (upstreamPort : Option Nat) (minted : Text) :
    ∃ e', e.step (.startSync localOnly upstreamPort minted) = .ok e' ∧
      Settled (n + 1) (some host) e' := by
  have hstart : e.bridge.startSync localOnly upstreamPort minted =
      { e.bridge with upstreamPort := upstreamPort.getD e.bridge.upstreamPort } := by
    unfold Bridge.startSync
    refine if_pos ?_
    show (e.bridge.active && (e.bridge.isOpen e.bridge.socksServer || _)) = true
    rw [h.shows.1, h.shows.2.1.1]
    rfl
  refine ⟨_, rfl, ?_⟩
  simp only [hstart, e.unbound]
  exact ⟨h.old, fun call hcall => h.idle call (Nat.le_of_succ_le hcall), h.shows⟩

theorem Settled.startSync (h : Settled n scope e) (localOnly : Bool) (upstreamPort : Option Nat)
    (minted : Text) :
    ∃ e', e.step (.startSync localOnly upstreamPort minted) = .ok e' ∧
      Settled (n + 1) ((Call.startSync localOnly upstreamPort minted).scope scope) e' := by
  cases scope with
  | none => exact h.start_off localOnly upstreamPort minted
  | some host => exact h.start_on localOnly upstreamPort minted

/-- The thread of a stop finds the number it took, and closes. -/
theorem Settled.stop (h : Settled n scope e) :
    ∃ e', (Call.stop.labels n).foldlM Exposure.step e = .ok e' ∧ Settled (n + 1) none e' := by
  have hidle : e.bridge.stops n = .idle := h.idle n (Nat.le_refl n)
  have hsteps : (Call.stop.labels n).foldlM Exposure.step e = .ok
      { e with
        bridge :=
          { e.bridge.closeServers with
            active := false
            session := e.bridge.session + 1
            stops := Function.update e.bridge.stops n .finished
            stopped := e.bridge.stopped ++ e.bridge.servers.map (Closed.mk e.bridge.bound) } } := by
    simp [Call.labels, Exposure.step, Share.step, hidle, Bridge.closeStale, Bridge.closeServers,
      Bridge.servers, Except.map, e.unbound, bind, Except.bind, pure, Except.pure]
  refine ⟨_, hsteps, ?_⟩
  refine ⟨fun listener hmem => (mem_append.mp hmem).elim (h.old listener) nofun,
    fun call hcall => ?_, rfl, rfl, rfl⟩
  exact (Function.update_of_ne (by omega) _ _).trans (h.idle call (by omega))

/-! ### Histories of calls -/

theorem Settled.call (h : Settled n scope e) (c : Call) :
    ∃ e', (c.labels n).foldlM Exposure.step e = .ok e' ∧ Settled (n + 1) (c.scope scope) e' := by
  cases c with
  | startSync localOnly upstreamPort minted =>
    obtain ⟨e', hstep, hsettled⟩ := h.startSync localOnly upstreamPort minted
    refine ⟨e', ?_, hsettled⟩
    show (e.step _ >>= pure) = _
    rw [hstep]
    rfl
  | stop => exact h.stop

/-- The scope in force. -/
def scopeOf (calls : List Call) : Option BindHost := calls.foldl Call.scope none

theorem scopeOf_concat (calls : List Call) (c : Call) :
    scopeOf (calls ++ [c]) = c.scope (scopeOf calls) := by
  unfold scopeOf
  rw [foldl_append]
  rfl

theorem after_settled (upstreamPort : Nat) (calls : List Call) :
    ∃ e, Exposure.after upstreamPort calls = .ok e ∧ Settled calls.length (scopeOf calls) e := by
  induction calls using List.reverseRecOn with
  | nil => exact ⟨_, rfl, .initial upstreamPort⟩
  | append_singleton calls c ih =>
    obtain ⟨e, hafter, hsettled⟩ := ih
    obtain ⟨e', hcall, hsettled'⟩ := hsettled.call c
    refine ⟨e', ?_, ?_⟩
    · unfold Exposure.after at hafter ⊢
      rw [zipIdx_append, flatMap_append, foldlM_append, hafter, Nat.zero_add]
      show (([c].zipIdx calls.length).flatMap _).foldlM Exposure.step e = _
      rw [zipIdx_singleton, flatMap_singleton]
      exact hcall
    · rw [scopeOf_concat, length_append]
      exact hsettled'

theorem Settled.serves_iff (h : Settled n scope e) {host : BindHost} :
    e.Serves host ↔ scope = some host := by
  cases scope with
  | none =>
    refine ⟨fun hserves => ?_, nofun⟩
    have hopen := hserves.1.1
    rw [h.shows.2.1] at hopen
    cases hopen
  | some host' =>
    obtain ⟨-, hserves'⟩ := h.shows
    refine ⟨fun hserves => ?_, fun heq => Option.some.inj heq ▸ hserves'⟩
    obtain ⟨listener, hlistener, -⟩ := (Option.any_eq_true _ _).mp hserves.1.1
    have hmem : listener ∈ e.bridge.servers := by simp [Bridge.servers, hlistener]
    rw [← hserves'.2 listener hmem, hserves.2 listener hmem]

/-- After the calls both listeners are open, and bound to `host`. -/
def ServesAfter (upstreamPort : Nat) (calls : List Call) (host : BindHost) : Prop :=
  ∃ e, Exposure.after upstreamPort calls = .ok e ∧ e.Serves host

variable {calls : List Call}

theorem servesAfter_iff {upstreamPort : Nat} {host : BindHost} :
    ServesAfter upstreamPort calls host ↔ scopeOf calls = some host := by
  obtain ⟨e, hafter, hsettled⟩ := after_settled upstreamPort calls
  constructor
  · rintro ⟨e', hafter', hserves⟩
    rw [hafter] at hafter'
    cases hafter'
    exact hsettled.serves_iff.mp hserves
  · intro hscope
    exact ⟨e, hafter, hsettled.serves_iff.mpr hscope⟩

theorem Steady.of_concat {c : Call} (h : Steady (calls ++ [c])) : Steady calls := by
  intro front a b rest heq
  exact h front a b (rest ++ [c]) (by rw [heq]; simp)

/-- Where no start is asked for another scope, the scope in force is the one last asked for. -/
theorem scopeOf_of_steady (h : Steady calls) :
    scopeOf calls = (calls.getLast?.bind Call.asks).map bindHost := by
  induction calls using List.reverseRecOn with
  | nil => rfl
  | append_singleton calls c ih =>
    rw [scopeOf_concat, ih h.of_concat, List.getLast?_concat]
    cases c with
    | stop => rfl
    | startSync localOnly upstreamPort minted =>
      show some _ = some (bindHost localOnly)
      obtain rfl | ⟨front, last, rfl⟩ := eq_nil_or_concat' calls
      · rfl
      · rw [List.getLast?_concat]
        cases last with
        | stop => rfl
        | startSync localOnly' upstreamPort' minted' =>
          have hsame : localOnly' = localOnly := by
            refine h front (.startSync localOnly' upstreamPort' minted')
              (.startSync localOnly upstreamPort minted) [] (by simp) _ rfl _ rfl
          rw [hsame]
          rfl

/-- **The share is exposed as asked exactly if no start asks a running bridge for another
scope.** -/
theorem scope_honoured_iff (upstreamPort : Nat) (calls : List Call) :
    (∀ front localOnly port minted rest,
        calls = front ++ .startSync localOnly port minted :: rest →
        ServesAfter upstreamPort (front ++ [.startSync localOnly port minted])
          (bindHost localOnly)) ↔ Steady calls := by
  constructor
  · intro hserves front a b rest heq l hl l' hl'
    cases a with
    | stop => cases hl
    | startSync localOnly port minted =>
      cases b with
      | stop => cases hl'
      | startSync localOnly' port' minted' =>
        cases hl
        cases hl'
        have hfirst := hserves front l port minted (.startSync l' port' minted' :: rest) heq
        have hsecond := hserves (front ++ [.startSync l port minted]) l' port' minted' rest
          (by rw [heq]; simp)
        rw [servesAfter_iff] at hfirst hsecond
        rw [scopeOf_concat, hfirst] at hsecond
        exact bindHost_injective (Option.some.inj hsecond)
  · intro hsteady front localOnly port minted rest heq
    have hfront : Steady (front ++ [.startSync localOnly port minted]) := by
      intro front' a b rest' heq'
      exact hsteady front' a b (rest' ++ rest) (by
        rw [heq, append_cons, heq']
        simp)
    rw [servesAfter_iff, scopeOf_of_steady hfront, List.getLast?_concat]
    rfl

/-- A bridge that is shared to the network is asked for the loopback, says that it is ready, and
stays open to the network. -/
theorem lan_scope_kept :
    ServesAfter 1819 [.startSync false none ['p'], .startSync true none []] .any :=
  servesAfter_iff.mpr rfl

end Aether.Share
