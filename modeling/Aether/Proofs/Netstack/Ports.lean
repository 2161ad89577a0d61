/-
Local ports.

`alloc_port` counts through 49152..65000 and starts over, whatever is still open.  So
the port of a flow is determined by how many ports had been handed out when it was
opened, and two flows that one peer could confuse share a port exactly when these
numbers differ by whole rounds.

Between opens a step only takes endpoints away (`Shrinks`).
-/
import Aether.Proofs.Netstack.Tables
import Aether.Proofs.Netstack.History
import Mathlib.Data.List.TakeWhile

namespace Aether

open List Function

variable {σ υ : Type} {m : Smoltcp σ υ} {tun : Tuning}

/-! ### Endpoints -/

/-- What inbound packets of a flow are told apart by. -/
inductive Ends
  | tcp (remote : SocketAddr) (localPort : Nat)
  | udp (localPort : Nat)
deriving DecidableEq, Repr

namespace Ends

def localPort : Ends → Nat
  | tcp _ p => p
  | udp p => p

/-- Apart from the local port there is no difference. -/
def rivals : Ends → Ends → Bool
  | tcp remote _, tcp remote' _ => remote == remote'
  | udp _, udp _ => true
  | _, _ => false

theorem eq_of_rivals {e e' : Ends} (h : e.rivals e' = true) (hp : e.localPort = e'.localPort) :
    e = e' := by
  cases e <;> cases e' <;> simp_all [rivals, localPort]

end Ends

/-- Flow `id` is open with these endpoints. -/
def NetStack.HasEnds (s : NetStack σ υ) (id : Nat) : Ends → Prop
  | .tcp remote port => ∃ st sock, s.tcpConns id = some st ∧
      s.sockets st.handle = some (.tcp remote port sock)
  | .udp port => ∃ st sock, s.udpConns id = some st ∧ s.sockets st.handle = some (.udp port sock)

/-- No two UDP flows share a port, and no two TCP flows to one remote do. -/
def NetStack.PortsUnique (s : NetStack σ υ) : Prop :=
  ∀ i j e, s.HasEnds i e → s.HasEnds j e → i = j

/-! ### The history of ports -/

def firstPort : Nat := 49152

/-- How many ports there are. -/
def portCount : Nat := 15849

def Event.isPort : Event → Bool
  | .portTaken _ => true
  | _ => false

/-- How many ports have been handed out. -/
def portsTaken (trace : List Event) : Nat := trace.countP Event.isPort

def Event.opens (id : Nat) : Event → Bool
  | .openedTcp i => i == id
  | .openedUdp i => i == id
  | _ => false

/-- How many ports had been handed out when flow `id` had been given its own. -/
def ordinal (id : Nat) (trace : List Event) : Nat :=
  portsTaken (trace.takeWhile fun e => !e.opens id)

theorem portsTaken_append (t es : List Event) :
    portsTaken (t ++ es) = portsTaken t + portsTaken es := countP_append

variable {id port : Nat} {t : List Event} {s s' : NetStack σ υ} {env : OpenEnv}

/-- Flow `id` has been opened. -/
def Opened (id : Nat) (trace : List Event) : Prop := ∃ e ∈ trace, e.opens id = true

theorem opened_append {es : List Event} : Opened id (t ++ es) ↔ Opened id t ∨ Opened id es := by
  simp only [Opened, mem_append, or_and_right, exists_or]

theorem ordinal_append (h : Opened id t) (es : List Event) :
    ordinal id (t ++ es) = ordinal id t := by
  have hcut : ¬ (t.takeWhile fun e => !e.opens id).length = t.length := by
    intro hlen
    have hall := (takeWhile_sublist _).eq_of_length hlen
    obtain ⟨e, he, hopens⟩ := h
    have := takeWhile_eq_self_iff.mp hall e he
    simp [hopens] at this
  rw [ordinal, ordinal, takeWhile_append, if_neg hcut]

theorem ordinal_new {e : Event} (h : ¬ Opened id t) (he : e.opens id = true) :
    ordinal id (t ++ [e]) = portsTaken t := by
  have hall : (t.takeWhile fun e => !e.opens id) = t :=
    takeWhile_eq_self_iff.mpr fun e he => by simpa using fun hopens => h ⟨e, he, hopens⟩
  rw [ordinal, takeWhile_append, if_pos (by rw [hall])]
  simp [he]

theorem ordinal_le (id : Nat) (t : List Event) : ordinal id t ≤ portsTaken t :=
  (takeWhile_sublist _).countP_le

theorem allocPort_next {n : Nat} :
    (allocPort (firstPort + n % portCount)).2 = firstPort + (n + 1) % portCount := by
  have hfirst : firstPort = 49152 := rfl
  have hcount : portCount = 15849 := rfl
  unfold allocPort
  by_cases hlast : firstPort + n % portCount ≥ 65000
  · rw [if_pos hlast]
    rw [hfirst, hcount] at *
    omega
  · rw [if_neg hlast]
    rw [hfirst, hcount] at *
    omega

/-! ### Where endpoints are -/

def Ends.holder (id : Nat) : Ends → Holder
  | tcp _ _ => .tcp id
  | udp _ => .udp id

def Slot.ends : Slot σ υ → Ends
  | .tcp remote port _ => .tcp remote port
  | .udp port _ => .udp port

theorem hasEnds_iff {e : Ends} :
    s.HasEnds id e ↔ ∃ h, s.owner (e.holder id) = some h ∧
      (s.sockets h).map Slot.ends = some e := by
  cases e
  all_goals
    constructor
    · rintro ⟨st, sock, hst, hslot⟩
      exact ⟨st.handle, Option.map_eq_some_iff.mpr ⟨st, hst, rfl⟩, by rw [hslot]; rfl⟩
    · rintro ⟨h, howner, hends⟩
      obtain ⟨st, hst, rfl⟩ := Option.map_eq_some_iff.mp howner
      obtain ⟨_ | _, hslot, ⟨⟩⟩ := Option.map_eq_some_iff.mp hends
      exact ⟨st, _, hst, hslot⟩

/-! ### Steps that open nothing -/

structure Shrinks (s s' : NetStack σ υ) : Prop where
  owner : ∀ {f h}, s'.owner f = some h → s.owner f = some h
  slot : ∀ {h e}, (s'.sockets h).map Slot.ends = some e → (s.sockets h).map Slot.ends = some e
  nextPort : s'.nextPort = s.nextPort
  nextId : s'.nextId = s.nextId
  trace : ∃ es, s'.trace = s.trace ++ es ∧ ∀ e ∈ es, e.isPort = false ∧ ∀ id, e.opens id = false

namespace Shrinks

variable {s s' s'' : NetStack σ υ}

theorem ends {e : Ends} (h : Shrinks s s') (he : s'.HasEnds id e) : s.HasEnds id e := by
  obtain ⟨k, howner, hslot⟩ := hasEnds_iff.mp he
  exact hasEnds_iff.mpr ⟨k, h.owner howner, h.slot hslot⟩

theorem refl (s : NetStack σ υ) : Shrinks s s := ⟨fun h => h, fun h => h, rfl, rfl, [], by simp⟩

theorem trans (h : Shrinks s s') (h' : Shrinks s' s'') : Shrinks s s'' := by
  refine ⟨fun he => h.owner (h'.owner he), fun he => h.slot (h'.slot he),
    h'.nextPort.trans h.nextPort, h'.nextId.trans h.nextId, ?_⟩
  obtain ⟨es, hes, hq⟩ := h.trace
  obtain ⟨es', hes', hq'⟩ := h'.trace
  refine ⟨es ++ es', by rw [hes', hes, append_assoc], fun e he => ?_⟩
  rcases mem_append.mp he with he | he
  · exact hq e he
  · exact hq' e he

/-- The same tables, apart from what does not show in the endpoints. -/
theorem log {es : List Event} (hes : ∀ e ∈ es, e.isPort = false ∧ ∀ id, e.opens id = false) :
    Shrinks s (s.log es) := ⟨fun h => h, fun h => h, rfl, rfl, es, rfl, hes⟩

theorem log_flow (id : Nat) (es : List FlowEvent) : Shrinks s (s.log (es.map (.flow id))) := by
  refine log fun e he => ?_
  obtain ⟨e', -, rfl⟩ := mem_map.mp he
  exact ⟨rfl, fun _ => rfl⟩

theorem setTcp {id : Nat} {st st' : TcpState} (hst : s.tcpConns id = some st)
    (hh : st'.handle = st.handle) : Shrinks s (s.setTcp id st') :=
  ⟨fun h => NetStack.owner_setTcp hst hh ▸ h, fun h => h, rfl, rfl, [], by simp [NetStack.setTcp]⟩

variable {i h : Nat}

theorem setSocket {slot slot' : Slot σ υ} (hslot : s.sockets h = some slot)
    (hends : slot'.ends = slot.ends) : Shrinks s (s.setSocket h slot') :=
  ⟨fun h => h, fun {k _} hk => NetStack.map_setSocket hslot hends k ▸ hk, rfl, rfl, [],
    by simp [NetStack.setSocket]⟩

/-- A flow gives its handle back. -/
theorem release {f : Holder} (howner : s'.owner = update s.owner f none)
    (hslot : s'.sockets = update s.sockets h none) (hport : s'.nextPort = s.nextPort)
    (hid : s'.nextId = s.nextId) (htrace : s'.trace = s.trace) : Shrinks s s' := by
  refine ⟨fun hf => (Ownership.of_update_none (howner ▸ hf)).2, fun hk => ?_, hport, hid, [],
    by simp [htrace]⟩
  obtain ⟨slot, hold, rfl⟩ := Option.map_eq_some_iff.mp hk
  rw [hslot] at hold
  rw [(Ownership.of_update_none hold).2]
  rfl

theorem dropTcp (id h : Nat) : Shrinks s (s.dropTcp id h) :=
  release (NetStack.owner_of_tcp (v := none) (by rfl) (by rfl)) (by rfl) rfl rfl rfl

theorem dropUdp (id h : Nat) : Shrinks s (s.dropUdp id h) :=
  release (NetStack.owner_of_udp (v := none) (by rfl) (by rfl)) (by rfl) rfl rfl rfl

theorem handled {d : DataIn} {o : Option DataIn} (h : Handled m tun s d s' o) : Shrinks s s' := by
  cases h with
  | noTcp => exact refl s
  | noUdp => exact refl s
  | full => exact refl s
  | taken hst | split hst | halfClosed hst => exact setTcp hst rfl
  | udpSent _ hslot => exact setSocket hslot rfl
  | udpClosed => exact dropUdp _ _

theorem served {now : Nat} {env : Nat → FlowEnv} (h : Served m tun now env s i s') :
    Shrinks s s' := by
  cases h with
  | gone => exact refl s
  | removed => exact (log_flow _ _).trans (dropTcp _ _)
  | @kept port st st' remote sock sock' hst hslot hnext =>
    have hlog : Shrinks s (s.log ((turnOf m tun now env s i st sock).log.map (.flow i))) :=
      log_flow i _
    have hset : Shrinks s ((s.log _).setTcp i st') :=
      hlog.trans (setTcp hst (serviceFlow_sameFlow hnext).handle)
    exact hset.trans (setSocket hslot rfl)

theorem servedUdp (h : ServedUdp s i s') : Shrinks s s' := by
  cases h with
  | gone => exact refl s
  | removed => exact dropUdp _ _
  | kept _ hslot => exact setSocket hslot rfl

theorem reset (h : Reset m s i s') : Shrinks s s' := by
  cases h with
  | gone => exact refl s
  | @aborted port st remote sock hst hslot =>
    have hset : Shrinks s (s.setTcp i { st with pending := [], credit := st.credit.close }) :=
      setTcp hst rfl
    refine (hset.trans ?_).trans (log (by simp [Event.isPort, Event.opens]))
    exact setSocket hslot rfl

theorem poll {tcp : Nat → σ → σ} {udp : Nat → υ → υ} {device : StackDevice} {panicked : Bool} :
    Shrinks s (pollStack m tcp udp device panicked s) := by
  refine ⟨fun h => h, fun {k e} hk => ?_, rfl, rfl, _, rfl,
    by simp [pollEvent, Event.isPort, Event.opens]⟩
  rwa [NetStack.map_poll fun _ _ slot => by cases slot <;> rfl] at hk

end Shrinks

/-! ### Opens -/

/-- The endpoints after an open: those there were, and the new flow's. -/
theorem hasEnds_add {f : Holder} {h : Nat} {slot : Slot σ υ} {e : Ends} (ht : Tables s)
    (hfree : s.sockets h = none) (howner : s'.owner = update s.owner f (some h))
    (hslot : s'.sockets = update s.sockets h (some slot)) (he : s'.HasEnds id e) :
    s.HasEnds id e ∨ (f = e.holder id ∧ e = slot.ends) := by
  obtain ⟨k, hk, hends⟩ := hasEnds_iff.mp he
  rw [howner] at hk
  rw [hslot] at hends
  obtain ⟨rfl, ⟨⟩⟩ | ⟨-, hold⟩ := Ownership.update_eq_some.mp hk
  · right
    simpa [eq_comm] using hends
  · left
    have hne : k ≠ h := by
      rintro rfl
      have hlive := ht.owned.alive hold
      simp [NetStack.live, hfree] at hlive
    rw [update_of_ne hne] at hends
    exact hasEnds_iff.mpr ⟨k, hold, hends⟩

/-! ### The invariant -/

/-- A flow's port is the one its place in the history stands for. -/
structure Numbered (id : Nat) (port : Nat) (trace : List Event) : Prop where
  opened : Opened id trace
  pos : 0 < ordinal id trace
  port : port = firstPort + (ordinal id trace - 1) % portCount

structure PortsSound (s : NetStack σ υ) : Prop where
  next : s.nextPort = firstPort + portsTaken s.trace % portCount
  ids : ∀ {id}, Opened id s.trace → id < s.nextId
  /-- Flows are numbered in the order they were opened in. -/
  order : ∀ {i j}, Opened i s.trace → Opened j s.trace → i < j →
    ordinal i s.trace < ordinal j s.trace
  ends : ∀ {id e}, s.HasEnds id e → Numbered id e.localPort s.trace

theorem Numbered.append (h : Numbered id port t) (es : List Event) :
    Numbered id port (t ++ es) := by
  refine ⟨opened_append.mpr (.inl h.opened), ?_, ?_⟩
  · rw [ordinal_append h.opened]
    exact h.pos
  · rw [ordinal_append h.opened]
    exact h.port

theorem PortsSound.shrinks (h : PortsSound s) (hs : Shrinks s s') : PortsSound s' := by
  obtain ⟨es, htrace, hes⟩ := hs.trace
  have hnone : portsTaken es = 0 := by
    rw [portsTaken, countP_eq_zero]
    exact fun e he => by simp [(hes e he).1]
  have hopened : ∀ {i}, Opened i s'.trace → Opened i s.trace := by
    intro i hi
    rw [htrace, opened_append] at hi
    refine hi.resolve_right ?_
    rintro ⟨e, he, hopens⟩
    rw [(hes e he).2 i] at hopens
    cases hopens
  refine ⟨?_, fun hi => ?_, fun {i j} hi hj hlt => ?_, ?_⟩
  · rw [hs.nextPort, htrace, portsTaken_append, hnone]
    exact h.next
  · rw [hs.nextId]
    exact h.ids (hopened hi)
  · rw [htrace, ordinal_append (hopened hi), ordinal_append (hopened hj)]
    exact h.order (hopened hi) (hopened hj) hlt
  · intro id e he
    rw [htrace]
    exact (h.ends (hs.ends he)).append es

/-- A port was handed out, and then the flow `s.nextId` opened or the open failed. -/
theorem PortsSound.taken {e₀ : Event} (h : PortsSound s)
    (hport : s'.nextPort = s.takePort.nextPort) (htrace : s'.trace = s.takePort.trace ++ [e₀])
    (hplain : e₀.isPort = false) (hid : s.nextId ≤ s'.nextId)
    (hnew : ∀ id, e₀.opens id = true → id = s.nextId ∧ s.nextId < s'.nextId)
    (hends : ∀ {id e}, s'.HasEnds id e → s.HasEnds id e ∨
      (id = s.nextId ∧ e.localPort = s.nextPort ∧ e₀.opens s.nextId = true)) :
    PortsSound s' := by
  have htrace' : s'.trace = s.trace ++ [.portTaken s.nextPort, e₀] := by
    rw [htrace]
    simp [NetStack.takePort, NetStack.log, allocPort]
  have htaken : portsTaken (s.trace ++ [.portTaken s.nextPort]) = portsTaken s.trace + 1 := by
    rw [portsTaken_append]
    rfl
  have hfresh : ¬ Opened s.nextId (s.trace ++ [.portTaken s.nextPort]) := by
    rw [opened_append]
    rintro (hold | ⟨e, he, hopens⟩)
    · exact absurd (h.ids hold) (lt_irrefl _)
    · rw [mem_singleton.mp he] at hopens
      cases hopens
  have hord : e₀.opens s.nextId = true →
      ordinal s.nextId (s.trace ++ [.portTaken s.nextPort, e₀]) = portsTaken s.trace + 1 := by
    intro hopens
    rw [← htaken, ← ordinal_new hfresh hopens, append_assoc]
    rfl
  have hopened : ∀ {i}, Opened i s'.trace →
      Opened i s.trace ∨ (i = s.nextId ∧ e₀.opens s.nextId = true) := by
    intro i hi
    rw [htrace', opened_append] at hi
    refine hi.imp_right ?_
    rintro ⟨e, he, hopens⟩
    rcases mem_pair.mp he with rfl | rfl
    · cases hopens
    · obtain ⟨rfl, -⟩ := hnew i hopens
      exact ⟨rfl, hopens⟩
  refine ⟨?_, fun hi => ?_, fun {i j} hi hj hlt => ?_, ?_⟩
  · have hcount : portsTaken s'.trace = portsTaken s.trace + 1 := by
      have hlast : portsTaken [e₀] = 0 := by simp [portsTaken, hplain]
      rw [htrace', append_cons, portsTaken_append, htaken, hlast]
    rw [hport, hcount, ← allocPort_next, ← h.next]
    rfl
  · rcases hopened hi with hi | ⟨rfl, hopens⟩
    · exact lt_of_lt_of_le (h.ids hi) hid
    · exact (hnew _ hopens).2
  · rw [htrace']
    rcases hopened hi with hi | ⟨rfl, -⟩
    · rw [ordinal_append hi]
      rcases hopened hj with hj | ⟨rfl, hopens⟩
      · rw [ordinal_append hj]
        exact h.order hi hj hlt
      · rw [hord hopens]
        exact Nat.lt_succ_of_le (ordinal_le i s.trace)
    · -- Nothing opened so far is newer than the new flow.
      rcases hopened hj with hj | ⟨rfl, -⟩
      · exact absurd (h.ids hj) (by omega)
      · exact absurd hlt (lt_irrefl _)
  · intro id e he
    rw [htrace']
    rcases hends he with hold | ⟨rfl, hloc, hopens⟩
    · exact (h.ends hold).append _
    · refine ⟨⟨e₀, by simp, hopens⟩, ?_, ?_⟩
      · rw [hord hopens]
        exact Nat.succ_pos _
      · rw [hord hopens, hloc, h.next]
        rfl

theorem Ends.holder_id {f : Holder} {e : Ends} (h : f = e.holder id) : id = f.id := by
  subst h
  cases e <;> rfl

theorem PortsSound.commanded {c : Cmd} (h : PortsSound s) (ht : Tables s)
    (hfree : s.sockets env.handle = none) (hc : Commanded m tun env s c s') : PortsSound s' := by
  have hsame : ∀ {s₁ s₂ : NetStack σ υ} {id e}, s₁.owner = s₂.owner → s₁.sockets = s₂.sockets →
      s₁.HasEnds id e → s₂.HasEnds id e := by
    intro s₁ s₂ id e howner hslot he
    rw [hasEnds_iff] at he ⊢
    rwa [← howner, ← hslot]
  cases hc with
  | tcpFailed =>
    exact h.taken rfl rfl rfl le_rfl (by simp [Event.opens]) fun he => .inl (hsame rfl rfl he)
  | @tcpOpened dst sock hconnect =>
    refine h.taken rfl rfl rfl (Nat.le_succ _) ?_ fun {id e} he => ?_
    · intro id hid
      exact ⟨(beq_iff_eq.mp hid).symm, Nat.lt_succ_self _⟩
    · obtain he | ⟨hid, rfl⟩ := hasEnds_add ht.takePort hfree
        (NetStack.owner_of_tcp (v := some (.opening env _)) (by rfl) (by rfl)) rfl he
      · exact .inl (hsame rfl rfl he)
      · exact .inr ⟨Ends.holder_id hid, rfl, beq_self_eq_true _⟩
  | udpFailed =>
    exact h.taken rfl rfl rfl le_rfl (by simp [Event.opens]) fun he => .inl (hsame rfl rfl he)
  | udpOpened _ =>
    refine h.taken rfl rfl rfl (Nat.le_succ _) ?_ fun {id e} he => ?_
    · intro id hid
      exact ⟨(beq_iff_eq.mp hid).symm, Nat.lt_succ_self _⟩
    · obtain he | ⟨hid, rfl⟩ := hasEnds_add ht.takePort hfree
        (NetStack.owner_of_udp (v := some ⟨env.handle⟩) (by rfl) (by rfl)) rfl he
      · exact .inl (hsame rfl rfl he)
      · exact .inr ⟨Ends.holder_id hid, rfl, beq_self_eq_true _⟩
  | addrsSet => exact ⟨h.next, h.ids, h.order, fun he => h.ends (hsame rfl rfl he)⟩

theorem ports_rule :
    StackRule m tun (fun s : NetStack σ υ => Tables s ∧ PortsSound s) where
  poll hv h := ⟨(tables_rule m tun).poll hv h.1, h.2.shrinks .poll⟩
  served hs h := ⟨h.1.served hs, h.2.shrinks (.served hs)⟩
  servedUdp hs h := ⟨h.1.servedUdp hs, h.2.shrinks (.servedUdp hs)⟩
  handled hd h := ⟨h.1.handled hd, h.2.shrinks (.handled hd)⟩
  reset hr h := ⟨h.1.reset hr, h.2.shrinks (.reset hr)⟩
  commanded hfree hc h := ⟨h.1.commanded hfree hc, h.2.commanded h.1 hfree hc⟩
  device d h := ⟨h.1.same rfl rfl rfl, h.2.shrinks ⟨fun h => h, fun h => h, rfl, rfl, [], by simp⟩⟩

theorem PortsSound.logged (h : PortsSound s) (l : Step σ υ) : PortsSound (l.logged s) := by
  cases l with
  | ingest d => exact h.shrinks (.log (by simp [Event.isPort, Event.opens]))
  | _ => exact h

theorem reachable_ports {w : World σ υ} (h : Reachable m tun w) : PortsSound w.stack := by
  obtain ⟨iface, mtu, limits, steps, hrun⟩ := h
  have hinit : PortsSound (World.spawn iface mtu limits : World σ υ).stack := by
    have hnone : ∀ {i}, ¬ Opened i (World.spawn iface mtu limits : World σ υ).stack.trace := by
      simp [Opened, World.spawn, NetStack.spawn]
    refine ⟨rfl, fun hi => absurd hi hnone, fun hi => absurd hi hnone, fun {id e} he => ?_⟩
    cases e <;> obtain ⟨st, sock, hst, -⟩ := he <;> cases hst
  exact (hrun.invariant (P := fun w => Tables w.stack ∧ PortsSound w.stack)
    ⟨Tables.spawn iface mtu limits, hinit⟩
    (fun t l t' ht hv hstep => ports_rule.step hv hstep ⟨ht.1.logged l, ht.2.logged l⟩)).2

/-! ### Who shares a port -/

/-- Two flows have the same port exactly if they are whole rounds apart. -/
theorem Numbered.port_eq_iff {i j p q : Nat} (hi : Numbered i p t) (hj : Numbered j q t) :
    p = q ↔ ordinal i t % portCount = ordinal j t % portCount := by
  have hpos := hi.pos
  have hpos' := hj.pos
  have hcount : portCount = 15849 := rfl
  rw [hi.port, hj.port, hcount]
  omega

/-- **Flows that could be confused share a port exactly when the numbers of ports handed
out up to each differ by whole rounds.** -/
theorem ports_unique_iff {w : World σ υ} (h : Reachable m tun w) :
    w.stack.PortsUnique ↔ ∀ i j e e', i ≠ j → w.stack.HasEnds i e → w.stack.HasEnds j e' →
      e.rivals e' = true →
        ordinal i w.stack.trace % portCount ≠ ordinal j w.stack.trace % portCount := by
  have hs := reachable_ports h
  constructor
  · intro hunique i j e e' hne hi hj hrivals hord
    have hport := ((hs.ends hi).port_eq_iff (hs.ends hj)).mpr hord
    have heq := Ends.eq_of_rivals hrivals hport
    subst heq
    exact hne (hunique i j e hi hj)
  · intro hapart i j e hi hj
    by_contra hne
    have hrivals : e.rivals e := by cases e <;> simp [Ends.rivals]
    exact hapart i j e e hne hi hj hrivals (((hs.ends hi).port_eq_iff (hs.ends hj)).mp rfl)

/-! ### A full round -/

/-- The stack after `n` UDP flows have been opened and none closed. -/
private def udpFlows : Nat → World Simple.Socket Unit
  | 0 => .spawn [] 1280 Simple.limits
  | n + 1 =>
    { udpFlows n with
      stack := (udpFlows n).stack.takePort.addUdp n (udpFlows n).stack.nextPort () }

private theorem udpFlows_free (n : Nat) : ∀ h, n ≤ h → (udpFlows n).stack.sockets h = none := by
  induction n with
  | zero => intro h _; rfl
  | succ n ih =>
    intro h hle
    have hne : h ≠ n := by omega
    have : (udpFlows (n + 1)).stack.sockets h = (udpFlows n).stack.sockets h :=
      update_of_ne hne _ _
    rw [this]
    exact ih h (by omega)

private theorem udpFlows_nextId (n : Nat) : (udpFlows n).stack.nextId = n + 1 := by
  induction n with
  | zero => rfl
  | succ n ih =>
    change (udpFlows n).stack.nextId + 1 = n + 1 + 1
    rw [ih]

private theorem udpFlows_run (n : Nat) :
    ∃ steps, Runs Simple.tcp Simple.tuning (.spawn [] 1280 Simple.limits) steps (udpFlows n) := by
  induction n with
  | zero => exact ⟨[], Machine.Run.nil⟩
  | succ n ih =>
    obtain ⟨steps, hrun⟩ := ih
    exact ⟨_, hrun.step (.cmd .openUdp { Simple.openEnv with handle := n })
      (udpFlows_free n n le_rfl) rfl⟩

private theorem udpFlows_nextPort (n : Nat) :
    (udpFlows n).stack.nextPort = firstPort + n % portCount := by
  induction n with
  | zero => rfl
  | succ n ih =>
    change (allocPort (udpFlows n).stack.nextPort).2 = _
    rw [ih, allocPort_next]

/-- Flow `i + 1` has the port of the `i`-th open, for as long as flows are only opened. -/
private theorem udpFlows_ends (i : Nat) : ∀ n, i < n →
    (udpFlows n).stack.HasEnds (i + 1) (.udp (firstPort + i % portCount)) := by
  intro n
  induction n with
  | zero => intro h; omega
  | succ n ih =>
    intro hlt
    rcases Nat.lt_succ_iff_lt_or_eq.mp hlt with hlt | rfl
    · obtain ⟨st, sock, hst, hslot⟩ := ih hlt
      have hid : i + 1 ≠ (udpFlows n).stack.nextId := by
        rw [udpFlows_nextId]
        omega
      have hh : st.handle ≠ n := by
        intro hc
        rw [hc, udpFlows_free n n le_rfl] at hslot
        cases hslot
      refine ⟨st, sock, ?_, ?_⟩
      · exact (update_of_ne hid _ _).trans hst
      · exact (update_of_ne hh _ _).trans hslot
    · refine ⟨{ handle := i }, (), ?_, ?_⟩
      · change update _ (udpFlows i).stack.nextId _ (i + 1) = _
        rw [udpFlows_nextId, update_self]
      · change update _ i _ i = _
        rw [update_self, udpFlows_nextPort]

/-- Two UDP flows, with different ports. -/
theorem ports_unique_iff_two :
    (udpFlows 2).stack.HasEnds 1 (.udp 49152) ∧ (udpFlows 2).stack.HasEnds 2 (.udp 49153) ∧
      (udpFlows 2).stack.PortsUnique := by
  obtain ⟨steps, hrun⟩ := udpFlows_run 2
  have hreach : Reachable Simple.tcp Simple.tuning (udpFlows 2) := ⟨_, _, _, steps, hrun⟩
  have htrace : (udpFlows 2).stack.trace =
      [.portTaken 49152, .openedUdp 1, .portTaken 49153, .openedUdp 2] := rfl
  have hids : ∀ i e, (udpFlows 2).stack.HasEnds i e → i = 1 ∨ i = 2 := by
    intro i e he
    obtain ⟨e', he', hopens⟩ := ((reachable_ports hreach).ends he).opened
    rw [htrace] at he'
    simp only [mem_cons, not_mem_nil, or_false] at he'
    rcases he' with rfl | rfl | rfl | rfl
    · cases hopens
    · exact Or.inl (beq_iff_eq.mp hopens).symm
    · cases hopens
    · exact Or.inr (beq_iff_eq.mp hopens).symm
  refine ⟨udpFlows_ends 0 2 (by decide), udpFlows_ends 1 2 (by decide),
    (ports_unique_iff hreach).mpr ?_⟩
  intro i j e e' hne hi hj _
  rw [htrace]
  rcases hids i e hi with rfl | rfl <;> rcases hids j e' hj with rfl | rfl
  · exact absurd rfl hne
  · decide
  · decide
  · exact absurd rfl hne

/-- **A wrapped port is handed out again while it is in use.** -/
theorem port_reused :
    ∃ w : World Simple.Socket Unit, Reachable Simple.tcp Simple.tuning w ∧
      w.stack.HasEnds 1 (.udp 49152) ∧ w.stack.HasEnds 15850 (.udp 49152) ∧
      ¬ w.stack.PortsUnique := by
  obtain ⟨steps, hrun⟩ := udpFlows_run 15850
  have hfirst := udpFlows_ends 0 15850 (by omega)
  have hlast := udpFlows_ends 15849 15850 (by omega)
  refine ⟨udpFlows 15850, ⟨_, _, _, steps, hrun⟩, hfirst, hlast, fun hunique => ?_⟩
  exact absurd (hunique 1 15850 (.udp 49152) hfirst hlast) (by omega)

end Aether
