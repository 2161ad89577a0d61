/-
The socket set and the two flow tables.

A TCP or UDP flow holds one socket, by its handle.  Sockets are entered in two
places and removed in about eight; what has to stay true is that the handles the
flows hold are exactly the sockets there are, each held once and of the right kind.
That is `Ownership.Owned`, at the flows of both tables.  Every call either leaves
the assignment alone, takes a free handle for a new flow, or gives one back.

`SocketSet::get_mut` and `remove` panic on a handle that is not there, so the same
invariant is why no call can fail.
-/
import Aether.Lib.Ownership
import Aether.Proofs.Netstack.Simple
import Aether.Proofs.Netstack.Turn

namespace Aether

open Machine

open Function

variable {σ υ : Type}

/-! ### The two tables as one -/

inductive Kind
  | tcp | udp
deriving DecidableEq, Repr

def Slot.kind : Slot σ υ → Kind
  | .tcp _ _ _ => .tcp
  | .udp _ _ => .udp

/-- An entry of `tcp_conns` or of `udp_conns`. -/
inductive Holder
  | tcp (id : Nat)
  | udp (id : Nat)
deriving DecidableEq, Repr

namespace Holder

def kind : Holder → Kind
  | tcp _ => .tcp
  | udp _ => .udp

def id : Holder → Nat
  | tcp id => id
  | udp id => id

end Holder

namespace NetStack

/-- The handle a flow holds. -/
def owner (s : NetStack σ υ) : Holder → Option Nat
  | .tcp id => (s.tcpConns id).map TcpState.handle
  | .udp id => (s.udpConns id).map UdpState.handle

/-- The sockets there are. -/
def live (s : NetStack σ υ) (handle : Nat) : Option Kind := (s.sockets handle).map Slot.kind

variable {s : NetStack σ υ} {id h : Nat}

theorem owner_tcp {st : TcpState} (h : s.tcpConns id = some st) :
    s.owner (.tcp id) = some st.handle := by
  simp [owner, h]

theorem owner_udp {st : UdpState} (h : s.udpConns id = some st) :
    s.owner (.udp id) = some st.handle := by
  simp [owner, h]

/-- One entry of `tcp_conns` has changed. -/
theorem owner_of_tcp {s' : NetStack σ υ} {v : Option TcpState}
    (htcp : s'.tcpConns = update s.tcpConns id v) (hudp : s'.udpConns = s.udpConns) :
    s'.owner = update s.owner (.tcp id) (v.map TcpState.handle) := by
  funext f
  cases f with
  | udp id' => simp [owner, hudp]
  | tcp id' => by_cases hid : id' = id <;> simp [owner, htcp, hid]

/-- One entry of `udp_conns` has changed. -/
theorem owner_of_udp {s' : NetStack σ υ} {v : Option UdpState} (htcp : s'.tcpConns = s.tcpConns)
    (hudp : s'.udpConns = update s.udpConns id v) :
    s'.owner = update s.owner (.udp id) (v.map UdpState.handle) := by
  funext f
  cases f with
  | tcp id' => simp [owner, htcp]
  | udp id' => by_cases hid : id' = id <;> simp [owner, hudp, hid]

theorem owner_setTcp {st st' : TcpState} (h : s.tcpConns id = some st)
    (hh : st'.handle = st.handle) : (s.setTcp id st').owner = s.owner := by
  refine (owner_of_tcp (v := some st') (by rfl) (by rfl)).trans ?_
  rw [Option.map_some, hh, ← owner_tcp h, update_eq_self]

theorem map_setSocket {α : Type} {f : Slot σ υ → α} {slot slot' : Slot σ υ}
    (hs : s.sockets h = some slot) (hk : f slot' = f slot) (h' : Nat) :
    ((s.setSocket h slot').sockets h').map f = (s.sockets h').map f := by
  by_cases hh : h' = h
  · subst hh
    simp [setSocket, hs, hk]
  · simp [setSocket, update_of_ne hh]

theorem map_poll {α : Type} {f : Slot σ υ → α} (hf : ∀ t u slot, f (Slot.poll t u slot) = f slot)
    (m : Smoltcp σ υ) (tcp : Nat → σ → σ) (udp : Nat → υ → υ) (device : StackDevice)
    (panicked : Bool) (h : Nat) :
    ((pollStack m tcp udp device panicked s).sockets h).map f = (s.sockets h).map f := by
  simp only [pollStack, poll, log, Option.map_map]
  exact congrArg (Option.map · _) (funext (hf _ _))

end NetStack

/-! ### The invariant -/

structure Tables (s : NetStack σ υ) : Prop where
  owned : Ownership.Owned Holder.kind s.owner s.live
  apart : ∀ id, s.owner (.tcp id) = none ∨ s.owner (.udp id) = none
  below : ∀ {f h}, s.owner f = some h → f.id < s.nextId

namespace Tables

variable {s s' : NetStack σ υ}

theorem spawn (iface : List IpCidr) (mtu : Nat) (limits : TcpLimits) :
    Tables (NetStack.spawn iface mtu limits : NetStack σ υ) where
  owned := by
    have howner : (NetStack.spawn iface mtu limits : NetStack σ υ).owner = fun _ => none := by
      funext f
      cases f <;> rfl
    rw [howner]
    exact Ownership.Owned.none
  apart _ := Or.inl rfl
  below := by
    intro f h hf
    cases f <;> cases hf

/-- Nothing the tables look at has changed. -/
theorem same (ht : Tables s) (howner : s'.owner = s.owner) (hlive : s'.live = s.live)
    (hnext : s'.nextId = s.nextId) : Tables s' where
  owned := by rw [howner, hlive]; exact ht.owned
  apart := by rw [howner]; exact ht.apart
  below := by rw [howner, hnext]; exact ht.below

variable {id h : Nat} {st st' : TcpState} {slot' slot : Slot σ υ} {m : Smoltcp σ υ} {tun : Tuning}

/-- A new flow takes a free handle. -/
theorem acquire (ht : Tables s) {f : Holder} (hf : f.id = s.nextId) (hfree : s.live h = none)
    (howner : s'.owner = update s.owner f (some h))
    (hlive : s'.live = update s.live h (some f.kind)) (hnext : s'.nextId = s.nextId + 1) :
    Tables s' := by
  have hnew : ∀ g : Holder, g.id = s.nextId → s.owner g = none := by
    intro g hg
    cases ho : s.owner g with
    | none => rfl
    | some h' => exact absurd (ht.below ho) (by omega)
  refine ⟨?_, ?_, ?_⟩
  · rw [howner, hlive]
    exact ht.owned.acquire (hnew f hf) hfree
  · intro id
    rw [howner]
    by_cases hid : id = s.nextId
    · -- A fresh id is new to both tables, and `f` enters it into one of them.
      subst hid
      cases f with
      | tcp id => exact Or.inr (by simpa using hnew (.udp s.nextId) rfl)
      | udp id => exact Or.inl (by simpa using hnew (.tcp s.nextId) rfl)
    · have hne : ∀ g : Holder, g.id = id → g ≠ f := by
        rintro g rfl rfl
        exact hid hf
      rw [update_of_ne (hne _ rfl), update_of_ne (hne _ rfl)]
      exact ht.apart id
  · intro g h' hg
    rw [howner] at hg
    rw [hnext]
    by_cases hgf : g = f
    · rw [hgf, hf]
      omega
    · rw [update_of_ne hgf] at hg
      have := ht.below hg
      omega

/-- A flow gives its handle back. -/
theorem release (ht : Tables s) {f : Holder} (hf : s.owner f = some h)
    (howner : s'.owner = update s.owner f none)
    (hlive : s'.live = update s.live h none) (hnext : s'.nextId = s.nextId) :
    Tables s' := by
  have hle : ∀ {g h'}, s'.owner g = some h' → s.owner g = some h' := fun hg =>
    (Ownership.of_update_none (howner ▸ hg)).2
  have hnone : ∀ {g}, s.owner g = none → s'.owner g = none := by
    intro g hg
    refine Option.eq_none_iff_forall_ne_some.mpr fun h' hh => ?_
    simp [hle hh] at hg
  refine ⟨?_, fun id => (ht.apart id).imp hnone hnone, fun hg => hnext ▸ ht.below (hle hg)⟩
  rw [howner, hlive]
  exact ht.owned.release hf

/-! ### Reading the tables -/

/-- A TCP flow's handle is a TCP socket's. -/
theorem tcpSlot (ht : Tables s) (h : s.tcpConns id = some st) :
    ∃ remote port sock, s.sockets st.handle = some (.tcp remote port sock) := by
  obtain ⟨slot, hs, hk⟩ := Option.map_eq_some_iff.mp (ht.owned.alive (NetStack.owner_tcp h))
  cases slot with
  | tcp remote port sock => exact ⟨remote, port, sock, hs⟩
  | udp port sock => cases hk

/-- A UDP flow's handle is a UDP socket's. -/
theorem udpSlot (ht : Tables s) {st : UdpState} (h : s.udpConns id = some st) :
    ∃ port sock, s.sockets st.handle = some (.udp port sock) := by
  obtain ⟨slot, hs, hk⟩ := Option.map_eq_some_iff.mp (ht.owned.alive (NetStack.owner_udp h))
  cases slot with
  | tcp remote port sock => cases hk
  | udp port sock => exact ⟨port, sock, hs⟩

/-! ### The calls keep it -/

theorem dropTcp (ht : Tables s) (h : s.tcpConns id = some st) : Tables (s.dropTcp id st.handle) :=
  ht.release (NetStack.owner_tcp h) (NetStack.owner_of_tcp (v := none) (by rfl) (by rfl))
    (comp_update ..) rfl

theorem dropUdp (ht : Tables s) {st : UdpState} (h : s.udpConns id = some st) :
    Tables (s.dropUdp id st.handle) :=
  ht.release (NetStack.owner_udp h) (NetStack.owner_of_udp (v := none) (by rfl) (by rfl))
    (comp_update ..) rfl

theorem setTcp (ht : Tables s) (h : s.tcpConns id = some st) (hh : st'.handle = st.handle) :
    Tables (s.setTcp id st') :=
  ht.same (NetStack.owner_setTcp h hh) rfl rfl

theorem setSocket (ht : Tables s) (hs : s.sockets h = some slot) (hk : slot'.kind = slot.kind) :
    Tables (s.setSocket h slot') :=
  ht.same rfl (funext (NetStack.map_setSocket hs hk)) rfl

/-- A flow's entry and its socket are written back. -/
theorem setFlow (ht : Tables s) (h : s.tcpConns id = some st) (hh : st'.handle = st.handle)
    (hs : s.sockets st.handle = some slot) (hk : slot'.kind = slot.kind) :
    Tables ((s.setTcp id st').setSocket st.handle slot') := by
  have ht' := ht.setTcp h hh
  refine ht'.setSocket ?_ hk
  exact hs

theorem log (ht : Tables s) (events : List Event) : Tables (s.log events) :=
  ht.same rfl rfl rfl

theorem logged (ht : Tables s) (l : Step σ υ) : Tables (l.logged s) := by
  cases l with
  | ingest d => exact ht.log _
  | _ => exact ht

theorem takePort (ht : Tables s) : Tables s.takePort :=
  ht.same rfl rfl rfl

theorem handled {d : DataIn} {o : Option DataIn} (ht : Tables s) (h : Handled m tun s d s' o) :
    Tables s' := by
  cases h with
  | noTcp _ _ => exact ht
  | noUdp _ _ => exact ht
  | full _ _ => exact ht
  | taken hst _ | split hst _ _ | halfClosed hst => exact ht.setTcp hst rfl
  | udpSent _ hslot => exact ht.setSocket hslot rfl
  | udpClosed hst _ => exact ht.dropUdp hst

theorem served {now : Nat} {env : Nat → FlowEnv} (ht : Tables s)
    (h : Served m tun now env s id s') : Tables s' := by
  cases h with
  | gone _ => exact ht
  | removed hst _ _ => exact (ht.log _).dropTcp hst
  | kept hst hslot hnext =>
    exact (ht.log _).setFlow hst (serviceFlow_sameFlow hnext).handle hslot rfl

theorem servedUdp (ht : Tables s) (h : ServedUdp s id s') : Tables s' := by
  cases h with
  | gone => exact ht
  | removed hst _ => exact ht.dropUdp hst
  | kept _ hslot => exact ht.setSocket hslot rfl

theorem reset (ht : Tables s) (h : Reset m s id s') : Tables s' := by
  cases h with
  | gone _ => exact ht
  | aborted hst hslot =>
    refine Tables.log ?_ _
    exact ht.setFlow hst rfl hslot rfl

theorem commanded {env : OpenEnv} {c : Cmd} (ht : Tables s) (hfree : s.sockets env.handle = none)
    (h : Commanded m tun env s c s') : Tables s' := by
  have hlive : s.takePort.live env.handle = none := by
    change (s.sockets env.handle).map Slot.kind = none
    rw [hfree]
    rfl
  cases h with
  | tcpFailed => exact ht.takePort.log _
  | tcpOpened _ =>
    exact ht.takePort.acquire (f := .tcp s.nextId) rfl hlive
      (NetStack.owner_of_tcp (v := some (.opening env _)) (by rfl) (by rfl))
      (comp_update ..) rfl
  | udpFailed => exact ht.takePort.log _
  | udpOpened _ =>
    exact ht.takePort.acquire (f := .udp s.nextId) rfl hlive
      (NetStack.owner_of_udp (v := some ⟨env.handle⟩) (by rfl) (by rfl))
      (comp_update ..) rfl
  | addrsSet => exact ht.same rfl rfl rfl

end Tables

/-! ### Whole steps -/

variable {m : Smoltcp σ υ} {tun : Tuning}

theorem tables_rule (m : Smoltcp σ υ) (tun : Tuning) :
    StackRule m tun (Tables : NetStack σ υ → Prop) where
  poll _ ht :=
    ht.same rfl (funext (NetStack.map_poll (fun _ _ slot => by cases slot <;> rfl) _ _ _ _ _)) rfl
  served h ht := ht.served h
  servedUdp h ht := ht.servedUdp h
  handled h ht := ht.handled h
  reset h ht := ht.reset h
  commanded hfree h ht := ht.commanded hfree h
  device _ ht := ht.same rfl rfl rfl

variable {w : World σ υ} {acc : NetStack σ υ × Bool}

theorem step_tables {w' : World σ υ} {l : Step σ υ} (ht : Tables w.stack) (hv : l.Valid m w)
    (h : step m tun w l = .ok w') : Tables w'.stack :=
  (tables_rule m tun).step hv h (ht.logged l)

theorem reachable_tables (h : Reachable m tun w) : Tables w.stack := by
  obtain ⟨iface, mtu, limits, steps, hrun⟩ := h
  exact hrun.invariant (P := fun w => Tables w.stack) (Tables.spawn iface mtu limits)
    (fun t l t' ht hv hstep => step_tables ht hv hstep)

/-! ### No call fails -/

theorem tryHandleData_succeeds (m : Smoltcp σ υ) (tun : Tuning) {s : NetStack σ υ} (ht : Tables s)
    (d : DataIn) :
    ∃ r, tryHandleData m tun s d = .ok r := by
  fun_cases tryHandleData m tun s d
  case case8 hst =>
    obtain ⟨port, sock, hslot⟩ := ht.udpSlot hst
    exact ⟨_, bind_eq_ok.mpr ⟨_, udpSocket_of_slot hslot, rfl⟩⟩
  case case10 hst hnone =>
    obtain ⟨port, sock, hslot⟩ := ht.udpSlot hst
    rw [hslot] at hnone
    cases hnone
  all_goals exact ⟨_, rfl⟩

theorem serviceOne_succeeds (m : Smoltcp σ υ) (tun : Tuning) (ht : Tables acc.1) (now : Nat)
    (env : Nat → FlowEnv) (id : Nat) : ∃ r, serviceOne m tun now env acc id = .ok r := by
  fun_cases serviceOne m tun now env acc id
  · exact ⟨_, rfl⟩
  · next st hst =>
      obtain ⟨remote, port, sock, hslot⟩ := ht.tcpSlot hst
      rw [tcpSocket_of_slot hslot]
      cases hnext : (serviceFlow m tun acc.1.tcpLimits now (env id) st sock).next with
      | none | some next => exact ⟨_, bind_eq_ok.mpr ⟨_, rfl, by simp only [hnext]; rfl⟩⟩

theorem serviceUdpOne_succeeds (ht : Tables acc.1) (answers : Nat → Nat → TryReserve) (id : Nat) :
    ∃ r, serviceUdpOne m answers acc id = .ok r := by
  simp only [serviceUdpOne]
  split
  · exact ⟨_, rfl⟩
  · rename_i st hst
    obtain ⟨port, sock, hslot⟩ := ht.udpSlot hst
    rw [udpSocket_of_slot hslot]
    by_cases hclosed : (deliverUdp m (answers id) maxRecvChunks 0 sock).2 = .closed
    · exact ⟨_, bind_eq_ok.mpr ⟨_, rfl, if_pos hclosed⟩⟩
    · exact ⟨_, bind_eq_ok.mpr ⟨_, rfl, if_neg hclosed⟩⟩

theorem reapOne_succeeds {acc : NetStack σ υ × Backlog} (ht : Tables acc.1) (id : Nat) :
    ∃ r, reapOne m acc id = .ok r := by
  simp only [reapOne, resetFlow]
  split
  · exact ⟨_, rfl⟩
  · rename_i st hst
    obtain ⟨remote, port, sock, hslot⟩ := ht.tcpSlot hst
    rw [tcpSocket_of_slot hslot]
    exact ⟨_, rfl⟩

theorem reap_succeeds (m : Smoltcp σ υ) (acc : NetStack σ υ × Backlog) (ht : Tables acc.1)
    (ids : List Nat) :
    ∃ r, ids.foldlM (reapOne m) acc = .ok r ∧ Tables r.1 := by
  refine foldlM_succeeds (P := fun a : NetStack σ υ × Backlog => Tables a.1) ht ?_
  intro id _ t ht
  obtain ⟨r, hr⟩ := reapOne_succeeds (m := m) ht id
  exact ⟨r, hr, ht.reset (reapOne_ok hr).1⟩

/-- A step on consistent tables fails at most on an address smoltcp does not take. -/
theorem step_succeeds (m : Smoltcp σ υ) (tun : Tuning) (ht : Tables w.stack) (l : Step σ υ) :
    (∃ w', step m tun w l = .ok w') ∨ ∃ addr, step m tun w l = .error (.badAddress addr) := by
  cases l with
  | poll tcp udp device panicked => exact Or.inl ⟨_, rfl⟩
  | serviceTcp ids now env =>
    obtain ⟨r, hr, -⟩ := foldlM_succeeds (f := serviceOne m tun now env) (l := ids)
      (P := fun acc => Tables acc.1) (s := (w.stack, false)) ht fun id _ t ht => by
        obtain ⟨r, hr⟩ := serviceOne_succeeds m tun ht now env id
        exact ⟨r, hr, ht.served (served_of_ok hr)⟩
    exact Or.inl ⟨_, bind_eq_ok.mpr ⟨r, hr, rfl⟩⟩
  | serviceUdp ids answers =>
    obtain ⟨r, hr, -⟩ := foldlM_succeeds (f := serviceUdpOne m answers) (l := ids)
      (P := fun acc => Tables acc.1) (s := (w.stack, false)) ht fun id _ t ht => by
        obtain ⟨r, hr⟩ := serviceUdpOne_succeeds (m := m) ht answers id
        exact ⟨r, hr, ht.servedUdp (servedUdp_of_ok hr)⟩
    exact Or.inl ⟨_, bind_eq_ok.mpr ⟨r, hr, rfl⟩⟩
  | flushTx answers => exact Or.inl ⟨_, rfl⟩
  | drainBacklog =>
    obtain ⟨r, hr⟩ := KeyedQueue.pass_succeeds DataIn.id (tryHandleData m tun) (P := Tables)
      (fun s d ht => by
        obtain ⟨r, hr⟩ := tryHandleData_succeeds m tun ht d
        exact ⟨r, hr, ht.handled (handled_of_ok hr)⟩) w.backlog.queue w.stack ∅ ht
    refine Or.inl ?_
    simp only [step, drainBacklog]
    split
    · exact ⟨_, rfl⟩
    · exact ⟨_, bind_eq_ok.mpr ⟨_, bind_eq_ok.mpr ⟨r, hr, rfl⟩, rfl⟩⟩
  | reapWedged ids blockedIds stallAt wedgeAt =>
    obtain ⟨r, hr, htr⟩ := reap_succeeds m (w.stack, w.backlog) ht
      (ids.filter (drainStalled w.stack stallAt))
    obtain ⟨r', hr', -⟩ := reap_succeeds m r htr
      ((blockedIds.filter fun id => id ∈ r.2.blocked).filter (wedged r.1 wedgeAt))
    have hreap : ∃ q, reapWedged m ids blockedIds stallAt wedgeAt w.stack w.backlog = .ok q := by
      by_cases hempty : r.2.blocked = ∅
      · exact ⟨_, bind_eq_ok.mpr ⟨r, hr, if_pos hempty⟩⟩
      · exact ⟨_, bind_eq_ok.mpr ⟨r, hr, by rw [if_neg hempty]; exact hr'⟩⟩
    obtain ⟨q, hq⟩ := hreap
    exact Or.inl ⟨_, bind_eq_ok.mpr ⟨q, hq, rfl⟩⟩
  | inbound pkt => exact Or.inl ⟨_, rfl⟩
  | ingest d =>
    obtain ⟨⟨t, o⟩, hr⟩ := tryHandleData_succeeds m tun (ht.log [.ingested d]) d
    refine Or.inl ?_
    simp only [step, ingest]
    split
    · exact ⟨_, rfl⟩
    · rw [hr]
      cases o <;> exact ⟨_, rfl⟩
  | cmd c env =>
    cases c with
    | openTcp dst | openUdp =>
      refine Or.inl ?_
      simp only [step, handleCmd]
      split <;> exact ⟨_, rfl⟩
    | setAddrs v4 v6 =>
      simp only [step, handleCmd, applyAddrs_eq]
      split
      · exact Or.inr ⟨_, rfl⟩
      · exact Or.inl ⟨_, rfl⟩

/-- **The sockets are exactly the flows' handles, each held once, no id is in both
tables, and no call meets a handle that is not there.** -/
theorem socketTable_consistent {w : World σ υ} (h : Reachable m tun w) :
    (∀ handle, (w.stack.sockets handle).isSome = true ↔
      ∃! f : Holder, w.stack.owner f = some handle) ∧
    (∀ id, w.stack.tcpConns id = none ∨ w.stack.udpConns id = none) ∧
    (∀ l handle, step m tun w l ≠ .error (.deadHandle handle) ∧
      step m tun w l ≠ .error (.wrongType handle)) := by
  have ht := reachable_tables h
  refine ⟨?_, ?_, ?_⟩
  · intro handle
    constructor
    · intro hsome
      obtain ⟨slot, hslot⟩ := Option.isSome_iff_exists.mp hsome
      have hlive : w.stack.live handle = some slot.kind := by simp [NetStack.live, hslot]
      obtain ⟨f, hf⟩ := ht.owned.held hlive
      exact ⟨f, hf, fun g hg => ht.owned.once hg hf⟩
    · rintro ⟨f, hf, -⟩
      have hlive := ht.owned.alive hf
      unfold NetStack.live at hlive
      cases hs : w.stack.sockets handle with
      | none => rw [hs] at hlive; cases hlive
      | some slot => rfl
  · intro id
    rcases ht.apart id with hid | hid
    · exact Or.inl (by simpa [NetStack.owner] using hid)
    · exact Or.inr (by simpa [NetStack.owner] using hid)
  · intro l handle
    rcases step_succeeds m tun ht l with ⟨w', hw⟩ | ⟨addr, hw⟩
    · simp [hw]
    · simp [hw]

/-- A TCP flow and a UDP flow are opened, the UDP flow is closed, and a second TCP flow gets its
handle: the handle has one holder again, and the closed id none. -/
theorem socketTable_consistent_reused :
    ∃ w, Reachable Simple.tcp Simple.tuning w ∧
      w.stack.owner (.tcp 1) = some 0 ∧ w.stack.owner (.tcp 3) = some 1 ∧
      (∃! f : Holder, w.stack.owner f = some 0) ∧ (∃! f : Holder, w.stack.owner f = some 1) ∧
      (w.stack.tcpConns 2 = none ∨ w.stack.udpConns 2 = none) ∧
      step Simple.tcp Simple.tuning w (.ingest (.udpClose 2)) ≠ .error (.deadHandle 1) := by
  have hsecond : ∃ w, Reachable Simple.tcp Simple.tuning w ∧ w.stack.owner (.tcp 1) = some 0 ∧
      w.stack.owner (.tcp 3) = some 1 ∧ (w.stack.sockets 0).isSome = true ∧
      (w.stack.sockets 1).isSome = true := by
    have hudp := (Solo.reachable_opened Simple.tuning).step
      (l := .cmd .openUdp { Simple.openEnv with handle := 1 }) rfl rfl
    have hclosed := hudp.step (l := .ingest (.udpClose 2)) trivial rfl
    have htcp := hclosed.step
      (l := .cmd (.openTcp Simple.remote) { Simple.openEnv with handle := 1 }) rfl rfl
    exact ⟨_, htcp, rfl, rfl, rfl, rfl⟩
  obtain ⟨w, hreach, hfirst, hlast, hslot, hslot'⟩ := hsecond
  obtain ⟨hheld, hapart, hsafe⟩ := socketTable_consistent hreach
  exact ⟨w, hreach, hfirst, hlast, (hheld 0).mp hslot, (hheld 1).mp hslot', hapart 2,
    (hsafe _ 1).1⟩

end Aether
