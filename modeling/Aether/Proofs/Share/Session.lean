/-
The listeners of `ShareBridge` and what it publishes about them.

A `stop` that wrote its flag and has no number yet, or whose number is the last one, is about to
close whatever is open.  While the flag says active there is no such call, and while listeners
are open without the flag there is one.
-/
import Aether.Share.Session

namespace Aether.Share

open Machine

open Function

/-! ### Calls about to close -/

/-- The listeners bound before the flag write of a `stop` that closes what is open if no further
number is given. -/
def StopCall.aims (session : BitVec 32) : StopCall → Option Nat
  | .flagged before => some before
  | .numbered before stopSession | .closing before stopSession =>
    if stopSession = session then some before else none
  | _ => none

/-- A number that no call holds aims at nothing, unless a flag was just written. -/
theorem StopCall.aims_eq_none {session : BitVec 32} {c : StopCall}
    (hflag : ∀ before, c ≠ .flagged before) (hholds : c.holds ≠ some session) :
    c.aims session = none := by
  cases c with
  | idle => rfl
  | flagged before => exact absurd rfl (hflag before)
  | numbered before stopSession | closing before stopSession =>
    exact if_neg fun heq => hholds (congrArg some heq)
  | finished => rfl

/-- A call that aims at the next number aims at this one too: it has just written its flag. -/
theorem StopCall.aims_of_fresh {session next : BitVec 32} {c : StopCall} {before : Nat}
    (hholds : c.holds ≠ some next) (h : c.aims next = some before) :
    c.aims session = some before := by
  cases c with
  | flagged => exact h
  | _ =>
    rw [StopCall.aims_eq_none (fun _ heq => by cases heq) hholds] at h
    cases h

/-! ### What holds between two steps -/

structure Phase (b : Bridge) : Prop where
  old : ∀ listener ∈ b.closed ++ b.servers, listener < b.bound
  aimed : ∀ call before, (b.stops call).aims b.session = some before → before = b.bound
  live : b.active = true → b.BothOpen ∧ ∀ call, (b.stops call).aims b.session = none
  down : b.active = false → b.servers = [] ∨ ∃ call, (b.stops call).aims b.session ≠ none
  kept : ∀ c ∈ b.stopped, c.listener < c.before

theorem Phase.initial (upstreamPort : Nat) : Phase (Bridge.initial upstreamPort) where
  old := by
    intro listener h
    cases h
  aimed := by
    intro call before h
    cases h
  live := by
    intro h
    cases h
  down := fun _ => .inl rfl
  kept := by
    intro c h
    cases h

variable {b : Bridge}

theorem Bridge.isOpen_of_notMem {listener : Nat} (h : listener ∉ b.closed) :
    b.isOpen (some listener) = true := by
  show (!b.closed.contains listener) = true
  simpa using h

/-! ### One step -/

section Steps

variable {b b' : Bridge}

theorem Phase.startSync (h : Phase b) (localOnly : Bool) (upstreamPort : Option Nat)
    (minted : Text) (hok : Orderly b (.startSync localOnly upstreamPort minted)) :
    Phase (b.startSync localOnly upstreamPort minted) := by
  obtain ⟨hflag, hholds⟩ := hok
  unfold Bridge.startSync
  dsimp only
  split
  · exact ⟨h.old, h.aimed, h.live, h.down, h.kept⟩
  · -- everything is closed, and what is bound is new
    have haims : ∀ call, (b.stops call).aims (b.session + 1) = none := fun call =>
      StopCall.aims_eq_none (hflag call) (hholds call)
    have hnew : ∀ listener, b.bound ≤ listener → listener ∉ b.closed ++ b.servers :=
      fun listener hle hmem => absurd (h.old listener hmem) (by omega)
    refine ⟨?_, ?_, ?_, ?_, h.kept⟩
    · intro listener hmem
      show listener < b.bound + 2
      obtain hmem | hmem := List.mem_append.mp hmem
      · exact Nat.lt_add_right 2 (h.old listener hmem)
      · have hbound : listener = b.bound ∨ listener = b.bound + 1 := by
          simpa using (show listener ∈ [b.bound, b.bound + 1] from hmem)
        omega
    · intro call before (hbefore : (b.stops call).aims (b.session + 1) = some before)
      rw [haims call] at hbefore
      cases hbefore
    · intro _
      exact ⟨⟨Bridge.isOpen_of_notMem (hnew _ (Nat.le_refl _)),
        Bridge.isOpen_of_notMem (hnew _ (Nat.le_succ _))⟩, haims⟩
    · intro hdown
      cases hdown

variable {call before : Nat}

/-- A call that aims keeps the flag down. -/
theorem Phase.inactive (h : Phase b) (haims : (b.stops call).aims b.session = some before) :
    b.active = false := by
  by_contra hlive
  have hnone := (h.live (by simpa using hlive)).2 call
  rw [haims] at hnone
  cases hnone

/-- A call moves on, and aims at what is bound if it aims. -/
theorem aimed_update {stops : Nat → StopCall} {session : BitVec 32} {bound : Nat} {c : StopCall}
    (hc : ∀ before, c.aims session = some before → before = bound)
    (h : ∀ other before, (stops other).aims session = some before → before = bound) :
    ∀ other before, (update stops call c other).aims session = some before → before = bound :=
  (forall_update_iff stops fun _ c => ∀ before, c.aims session = some before → before = bound).mpr
    ⟨hc, fun other _ => h other⟩

theorem exists_aims_update (stops : Nat → StopCall) {session : BitVec 32} {c : StopCall}
    (hc : c.aims session = some before) :
    ∃ other, (update stops call c other).aims session ≠ none := by
  refine ⟨call, ?_⟩
  rw [update_self, hc]
  exact Option.some_ne_none _

theorem Phase.flag (h : Phase b) (call : Nat) :
    Phase { b with
      active := false
      stops := update b.stops call (.flagged b.bound) } := by
  refine ⟨h.old, aimed_update (fun before hbefore => ?_) h.aimed, ?_,
    fun _ => .inr (exists_aims_update b.stops rfl), h.kept⟩
  · cases hbefore
    rfl
  · intro hlive
    cases hlive

theorem Phase.number (h : Phase b) (hcall : b.stops call = .flagged before)
    (hok : Orderly b (.number call)) :
    Phase { b with
      session := b.session + 1
      stops := update b.stops call (.numbered before (b.session + 1)) } := by
  have haims : (b.stops call).aims b.session = some before := by
    rw [hcall]
    rfl
  have hself : (StopCall.numbered before (b.session + 1)).aims (b.session + 1) = some before :=
    if_pos rfl
  refine ⟨h.old, aimed_update (fun before' hbefore => ?_) fun other before' hbefore =>
    h.aimed other before' (StopCall.aims_of_fresh (hok other) hbefore), ?_,
    fun _ => .inr (exists_aims_update b.stops hself), h.kept⟩
  · cases hself.symm.trans hbefore
    exact h.aimed _ _ haims
  · intro (hlive : b.active = true)
    rw [h.inactive haims] at hlive
    cases hlive

/-- A call that moves on and aims as before changes nothing. -/
theorem Phase.move (h : Phase b) {c : StopCall}
    (haims : c.aims b.session = (b.stops call).aims b.session) :
    Phase { b with stops := update b.stops call c } := by
  have hsame : ∀ other,
      (update b.stops call c other).aims b.session = (b.stops other).aims b.session := by
    intro other
    by_cases hother : other = call
    · subst hother
      rw [update_self, haims]
    · rw [update_of_ne hother]
  refine ⟨h.old, ?_, ?_, ?_, h.kept⟩
  · intro other before hbefore
    exact h.aimed other before ((hsame other).symm.trans hbefore)
  · intro hlive
    exact ⟨(h.live hlive).1, fun other => (hsame other).trans ((h.live hlive).2 other)⟩
  · intro hdown
    refine (h.down hdown).imp_right ?_
    rintro ⟨other, hother⟩
    exact ⟨other, fun hnone => hother ((hsame other).symm.trans hnone)⟩

/-- A thread whose number is the last one closes what is open; nothing was active. -/
theorem Phase.closeServers (h : Phase b) (haims : (b.stops call).aims b.session = some before) :
    Phase { b.closeServers with
      stopped := b.stopped ++ b.servers.map (Closed.mk before)
      stops := update b.stops call .finished } := by
  have hbound : before = b.bound := h.aimed call before haims
  refine ⟨?_, aimed_update (fun _ hbefore => by cases hbefore) h.aimed, ?_, fun _ => .inl rfl, ?_⟩
  · intro listener (hmem : listener ∈ (b.closed ++ b.servers) ++ [])
    exact h.old listener (by simpa using hmem)
  · intro (hlive : b.active = true)
    rw [h.inactive haims] at hlive
    cases hlive
  · intro c hc
    obtain hc | hc := List.mem_append.mp hc
    · exact h.kept c hc
    · obtain ⟨listener, hmem, rfl⟩ := List.mem_map.mp hc
      show listener < before
      rw [hbound]
      exact h.old listener (List.mem_append_right _ hmem)

theorem Phase.close (h : Phase b) {stopSession : BitVec 32}
    (hcall : b.stops call = .closing before stopSession) :
    Phase { b.closeStale before stopSession with
      stops := update b.stops call .finished } := by
  unfold Bridge.closeStale
  by_cases hlast : b.session = stopSession
  · rw [if_pos hlast]
    apply h.closeServers
    rw [hcall]
    exact if_pos hlast.symm
  · rw [if_neg hlast]
    apply h.move
    rw [hcall]
    exact (if_neg fun heq => hlast heq.symm).symm

theorem Phase.step (h : Phase b) {l : Label} (hok : Orderly b l) (hstep : step b l = .ok b') :
    Phase b' := by
  revert hstep
  fun_cases Share.step b l <;> intro hstep <;> cases hstep
  next localOnly upstreamPort minted => exact h.startSync localOnly upstreamPort minted hok
  next call _ => exact h.flag call
  next call before hcall => exact h.number hcall hok
  next call before stopSession hcall =>
    apply h.move
    rw [hcall]
    rfl
  next call before stopSession hcall => exact h.close hcall

end Steps

/-! ### Whole runs -/

theorem Phase.active_iff (h : Phase b) (hquiet : b.Quiet) : b.active = true ↔ b.BothOpen := by
  have hnone : ∀ call, (b.stops call).aims b.session = none := by
    intro call
    obtain hcall | hcall := hquiet call
    · rw [hcall]
      rfl
    · rw [hcall]
      rfl
  constructor
  · intro hlive
    exact (h.live hlive).1
  · intro hopen
    by_contra hdown
    obtain hservers | ⟨call, hcall⟩ := h.down (by simpa using hdown)
    · obtain ⟨hsocks, -⟩ := hopen
      have hsocksNone : b.socksServer = none := by
        simpa using (List.append_eq_nil_iff.mp hservers).1
      rw [hsocksNone] at hsocks
      cases hsocks
    · exact hcall (hnone call)

/-- **Listeners match the published state**, in every run in which no session starts between the
flag write of a `stop` and its number: when all calls and threads have finished, `active` says
whether both listeners are open, and a `stop` only ever closed listeners that were bound before
its flag write. -/
theorem listeners_match_published {upstreamPort : Nat} {ls : List Label} {b : Bridge}
    (hrun : Run step Orderly (Bridge.initial upstreamPort) ls b) :
    (b.Quiet → (b.active = true ↔ b.BothOpen)) ∧ ∀ c ∈ b.stopped, c.listener < c.before := by
  have hphase : Phase b := hrun.invariant (Phase.initial upstreamPort)
    fun _ _ _ h hok hstep => h.step hok hstep
  exact ⟨hphase.active_iff, hphase.kept⟩

/-- Only the first call of `stop` was made. -/
def Bridge.Single (b : Bridge) : Prop := ∀ call, b.stops (call + 1) = .idle

theorem Bridge.Single.forall_stops (h : b.Single) {P : StopCall → Prop} (hidle : P .idle)
    (hzero : P (b.stops 0)) : ∀ call, P (b.stops call) := by
  intro call
  cases call with
  | zero => exact hzero
  | succ call =>
    rw [h call]
    exact hidle

theorem Bridge.Single.orderly (h : b.Single) (l : Label)
    (hflag : ∀ before, b.stops 0 ≠ .flagged before)
    (hholds : (b.stops 0).holds ≠ some (b.session + 1)) : Orderly b l := by
  have hall : ∀ call, (b.stops call).holds ≠ some (b.session + 1) :=
    h.forall_stops (P := fun c => c.holds ≠ some (b.session + 1)) (by simp [StopCall.holds]) hholds
  cases l with
  | startSync localOnly upstreamPort minted =>
    exact ⟨fun call before => h.forall_stops (P := fun c => c ≠ .flagged before) (by simp)
      (hflag before) call, hall⟩
  | number call => exact hall
  | flag call => trivial
  | spawn call => trivial
  | close call => trivial

/-- A session that is started, stopped, and started again before the thread runs. -/
theorem listeners_match_published_restart :
    ∃ b, Run step Orderly (Bridge.initial 1819)
        [.startSync false none ['p'], .flag 0, .number 0, .startSync true none [], .spawn 0,
          .close 0] b ∧
      b.Quiet ∧ (b.active = true ↔ b.BothOpen) ∧ b.active = true := by
  refine Run.exists_and
    (.snoc (.snoc (.snoc (.snoc (.snoc (.snoc .nil
      (by
        exact Bridge.Single.orderly (fun _ => rfl) _ (by intro before h; cases h) (by decide)) rfl)
      (by trivial) rfl)
      (by
        exact Bridge.Single.forall_stops (P := fun c => c.holds ≠ some 2) (fun _ => rfl)
          (by decide) (by decide)) rfl)
      (by
        exact Bridge.Single.orderly (fun _ => rfl) _ (by intro before h; cases h) (by decide)) rfl)
      (by trivial) rfl) (by trivial) rfl) fun hrun => ?_
  refine ⟨?quiet, (listeners_match_published hrun).1 ?quiet, rfl⟩
  exact Bridge.Single.forall_stops (P := fun c => c = .idle ∨ c = .finished) (fun _ => rfl)
    (.inl rfl) (.inr rfl)

/-- A session starts between the flag write of a `stop` and its number: the thread of that
`stop` closes its listeners, and they stay closed while `active` is set. -/
theorem stale_stop_closes :
    ∃ b, Run step (fun _ _ => True) (Bridge.initial 1819)
        [.startSync true none [], .flag 0, .startSync true none [], .number 0, .spawn 0,
          .close 0] b ∧
      b.Quiet ∧ b.active = true ∧ ¬ b.BothOpen ∧ ⟨2, 2⟩ ∈ b.stopped := by
  refine ⟨_, .of_perform .nil rfl, ?_, rfl, ?_, by decide⟩
  · exact Bridge.Single.forall_stops (P := fun c => c = .idle ∨ c = .finished) (fun _ => rfl)
      (.inl rfl) (.inr rfl)
  · intro hopen
    cases hopen.1

end Aether.Share
