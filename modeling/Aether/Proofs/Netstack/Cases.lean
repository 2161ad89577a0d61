/-
What one call can do to the stack.

Each of the small calls (`tryHandleData`, one flow's turn, one reset, a command) is
read once, here: an inductive with a constructor for every way the call can end,
guards included.  Everything proved about the stack goes through these and never
unfolds the calls again.
-/
import Aether.Netstack.Flow

namespace Aether

open Machine

variable {σ υ : Type}

/-! ### Reading the socket set -/

variable {s s' : NetStack σ υ} {id h port : Nat} {m : Smoltcp σ υ} {tun : Tuning}
  {acc' acc : NetStack σ υ × Bool} {b : Backlog} {r : NetStack σ υ × Backlog}
  {w w₀ w' : World σ υ} {l : Step σ υ} {ls : List (Step σ υ)} {T : TurnCond σ}

theorem tcpSocket_ok {slot : SocketAddr × Nat × σ} (hok : s.tcpSocket h = .ok slot) :
    s.sockets h = some (.tcp slot.1 slot.2.1 slot.2.2) := by
  unfold NetStack.tcpSocket at hok
  split at hok
  · cases hok
  · cases hok
  · rename_i remote port sock hs
    cases hok
    exact hs

theorem tcpSocket_of_slot {remote : SocketAddr} {sock : σ}
    (hs : s.sockets h = some (.tcp remote port sock)) :
    s.tcpSocket h = .ok (remote, port, sock) := by
  simp [NetStack.tcpSocket, hs]

theorem udpSocket_ok {slot : Nat × υ} (hok : s.udpSocket h = .ok slot) :
    s.sockets h = some (.udp slot.1 slot.2) := by
  unfold NetStack.udpSocket at hok
  split at hok
  · cases hok
  · cases hok
  · rename_i port sock hs
    cases hok
    exact hs

theorem udpSocket_of_slot {sock : υ} (hs : s.sockets h = some (.udp port sock)) :
    s.udpSocket h = .ok (port, sock) := by
  simp [NetStack.udpSocket, hs]

/-! ### Handling a message -/

/-- The ways `tryHandleData` ends. -/
inductive Handled (m : Smoltcp σ υ) (tun : Tuning) (s : NetStack σ υ) :
    DataIn → NetStack σ υ → Option DataIn → Prop
  /-- The flow is not there; the message is dropped. -/
  | noTcp {id : Nat} {d : DataIn} (hd : (∃ data, d = .tcp id data) ∨ d = .tcpClose id)
      (hst : s.tcpConns id = none) : Handled m tun s d s none
  | noUdp {id : Nat} {d : DataIn} (hd : (∃ dst data, d = .udp id dst data) ∨ d = .udpClose id)
      (hst : s.udpConns id = none) : Handled m tun s d s none
  /-- `pending` is full. -/
  | full {id : Nat} {data : Bytes} {st : TcpState} (hst : s.tcpConns id = some st)
      (hfull : tun.maxTcpPending ≤ st.pending.length) :
      Handled m tun s (.tcp id data) s (some (.tcp id data))
  | taken {id : Nat} {data : Bytes} {st : TcpState} (hst : s.tcpConns id = some st)
      (hroom : st.pending.length + data.length ≤ tun.maxTcpPending) :
      Handled m tun s (.tcp id data)
        (s.setTcp id { st with pending := st.pending ++ data }) none
  /-- As much as fits is taken and the rest comes back. -/
  | split {id n : Nat} {data : Bytes} {st : TcpState} (hst : s.tcpConns id = some st)
      (hn : st.pending.length + n = tun.maxTcpPending) (hmore : n < data.length) :
      Handled m tun s (.tcp id data)
        (s.setTcp id { st with pending := st.pending ++ data.take n })
        (some (.tcp id (data.drop n)))
  | halfClosed {id : Nat} {st : TcpState} (hst : s.tcpConns id = some st) :
      Handled m tun s (.tcpClose id) (s.setTcp id { st with halfClosed := true }) none
  | udpSent {id port : Nat} {dst : SocketAddr} {data : Bytes} {st : UdpState} {sock : υ}
      (hst : s.udpConns id = some st) (hslot : s.sockets st.handle = some (.udp port sock)) :
      Handled m tun s (.udp id dst data)
        (s.setSocket st.handle (.udp port (m.udpSendSlice sock data dst))) none
  | udpClosed {id : Nat} {st : UdpState} {slot : Slot σ υ} (hst : s.udpConns id = some st)
      (hslot : s.sockets st.handle = some slot) :
      Handled m tun s (.udpClose id) (s.dropUdp id st.handle) none

theorem handled_of_ok {d : DataIn} {o : Option DataIn} (h : tryHandleData m tun s d = .ok (s', o)) :
    Handled m tun s d s' o := by
  revert h
  fun_cases tryHandleData m tun s d <;> intro h
  case case8 hst =>
    obtain ⟨slot, hslot, heq⟩ := bind_eq_ok.mp h
    cases heq
    exact .udpSent hst (udpSocket_ok hslot)
  all_goals cases h
  case case1 hst => exact .noTcp (.inl ⟨_, rfl⟩) hst
  case case2 hst _ hfull => exact .full hst hfull
  case case3 hst _ hfull _ hroom => exact .taken hst (by omega)
  case case4 hst _ hfull _ hroom => exact .split hst (by omega) (by omega)
  case case5 hst => exact .noTcp (.inr rfl) hst
  case case6 hst => exact .halfClosed hst
  case case7 hst => exact .noUdp (.inl ⟨_, _, rfl⟩) hst
  case case9 hst => exact .noUdp (.inr rfl) hst
  case case11 hst _ hslot => exact .udpClosed hst hslot

/-- What is given back belongs to the flow it was for. -/
theorem tryHandleData_keepsKey (m : Smoltcp σ υ) (tun : Tuning) :
    KeyedQueue.KeepsKey DataIn.id (tryHandleData m tun) := by
  intro s d s' b h
  cases handled_of_ok h with
  | full _ _ => rfl
  | split _ _ _ => rfl

/-! ### A flow's turn -/

/-- The turn of a flow that is in the table. -/
def turnOf (m : Smoltcp σ υ) (tun : Tuning) (now : Nat) (env : Nat → FlowEnv)
    (s : NetStack σ υ) (id : Nat) (st : TcpState) (sock : σ) : FlowTurn σ :=
  serviceFlow m tun s.tcpLimits now (env id) st sock

/-- The ways one iteration of `service_tcp` ends. -/
inductive Served (m : Smoltcp σ υ) (tun : Tuning) (now : Nat) (env : Nat → FlowEnv)
    (s : NetStack σ υ) (id : Nat) : NetStack σ υ → Prop
  | gone (hst : s.tcpConns id = none) : Served m tun now env s id s
  | removed {port : Nat} {st : TcpState} {remote : SocketAddr} {sock : σ}
      (hst : s.tcpConns id = some st) (hslot : s.sockets st.handle = some (.tcp remote port sock))
      (hnext : (turnOf m tun now env s id st sock).next = none) :
      Served m tun now env s id
        ((s.log ((turnOf m tun now env s id st sock).log.map (Event.flow id))).dropTcp id st.handle)
  | kept {port : Nat} {st st' : TcpState} {remote : SocketAddr} {sock sock' : σ}
      (hst : s.tcpConns id = some st) (hslot : s.sockets st.handle = some (.tcp remote port sock))
      (hnext : (turnOf m tun now env s id st sock).next = some (st', sock')) :
      Served m tun now env s id
        (((s.log ((turnOf m tun now env s id st sock).log.map (Event.flow id))).setTcp id
          st').setSocket st.handle (.tcp remote port sock'))

theorem served_of_ok {now : Nat} {env : Nat → FlowEnv}
    (h : serviceOne m tun now env acc id = .ok acc') : Served m tun now env acc.1 id acc'.1 := by
  revert h
  fun_cases serviceOne m tun now env acc id <;> intro h
  case case1 hst =>
    cases h
    exact .gone hst
  case case2 st hst =>
    obtain ⟨slot, hslot, h⟩ := bind_eq_ok.mp h
    dsimp only at h
    split at h <;> cases h
    · next hnext => exact .removed hst (tcpSocket_ok hslot) hnext
    · next hnext => exact .kept hst (tcpSocket_ok hslot) hnext

/-- The ways one iteration of `service_udp` ends. -/
inductive ServedUdp (s : NetStack σ υ) (id : Nat) : NetStack σ υ → Prop
  | gone : ServedUdp s id s
  | removed {port : Nat} {st : UdpState} {sock : υ} (hst : s.udpConns id = some st)
      (hslot : s.sockets st.handle = some (.udp port sock)) :
      ServedUdp s id (s.dropUdp id st.handle)
  | kept {port : Nat} {st : UdpState} {sock sock' : υ} (hst : s.udpConns id = some st)
      (hslot : s.sockets st.handle = some (.udp port sock)) :
      ServedUdp s id (s.setSocket st.handle (.udp port sock'))

theorem servedUdp_of_ok {answers : Nat → Nat → TryReserve}
    (h : serviceUdpOne m answers acc id = .ok acc') : ServedUdp acc.1 id acc'.1 := by
  revert h
  fun_cases serviceUdpOne m answers acc id <;> intro h
  case case1 hst =>
    cases h
    exact .gone
  case case2 st hst =>
    obtain ⟨slot, hslot, h⟩ := bind_eq_ok.mp h
    dsimp only at h
    split at h <;> cases h
    · exact .removed hst (udpSocket_ok hslot)
    · exact .kept hst (udpSocket_ok hslot)

/-! ### A reset -/

/-- The ways one iteration of `reap_wedged`'s loops ends. -/
inductive Reset (m : Smoltcp σ υ) (s : NetStack σ υ) (id : Nat) : NetStack σ υ → Prop
  | gone (hst : s.tcpConns id = none) : Reset m s id s
  | aborted {port : Nat} {st : TcpState} {remote : SocketAddr} {sock : σ}
      (hst : s.tcpConns id = some st)
      (hslot : s.sockets st.handle = some (.tcp remote port sock)) :
      Reset m s id (((s.setTcp id { st with pending := [], credit := st.credit.close }).setSocket
        st.handle (.tcp remote port (m.abort sock))).log [.flow id .abort])

theorem reset_of_ok (h : resetFlow m s id = .ok s') : Reset m s id s' := by
  revert h
  fun_cases resetFlow m s id <;> intro h
  case case1 hst =>
    cases h
    exact .gone hst
  case case2 st hst =>
    obtain ⟨slot, hslot, heq⟩ := bind_eq_ok.mp h
    cases heq
    exact .aborted hst (tcpSocket_ok hslot)

theorem reapOne_ok {acc acc' : NetStack σ υ × Backlog} (h : reapOne m acc id = .ok acc') :
    Reset m acc.1 id acc'.1 ∧ acc'.2 = acc.2.purge id := by
  obtain ⟨s, hs, heq⟩ := bind_eq_ok.mp h
  cases heq
  exact ⟨reset_of_ok hs, rfl⟩

/-- `reap_wedged` is a sequence of resets. -/
theorem reapWedged_ok {ids blockedIds : List Nat} {stallAt wedgeAt : Nat → Nat}
    (h : reapWedged m ids blockedIds stallAt wedgeAt s b = .ok r) :
    ∃ reset : List Nat, reset.foldlM (reapOne m) (s, b) = .ok r := by
  obtain ⟨t, ht, h⟩ := bind_eq_ok.mp h
  by_cases hempty : t.2.blocked = ∅
  · rw [if_pos hempty] at h
    cases h
    exact ⟨_, ht⟩
  · rw [if_neg hempty] at h
    refine ⟨ids.filter (drainStalled s stallAt) ++
      (blockedIds.filter fun id => id ∈ t.2.blocked).filter (wedged t.1 wedgeAt), ?_⟩
    rw [List.foldlM_append]
    exact bind_eq_ok.mpr ⟨t, ht, h⟩

/-! ### A command -/

/-- The ways `handle_cmd` ends. -/
inductive Commanded (m : Smoltcp σ υ) (tun : Tuning) (env : OpenEnv) (s : NetStack σ υ) :
    Cmd → NetStack σ υ → Prop
  | tcpFailed {dst : SocketAddr} {e : String} :
      Commanded m tun env s (.openTcp dst) (s.takePort.log [.openFailed e])
  | tcpOpened {dst : SocketAddr} {sock : σ}
      (hconnect : m.connect s.iface
        (m.tcpNew tun.tcpRxBuf tun.tcpTxBuf s.tcpLimits.keepalive s.tcpLimits.deadPeer) dst
        s.nextPort = .ok sock) :
      Commanded m tun env s (.openTcp dst) (s.takePort.addTcp env dst s.nextPort sock)
  | udpFailed {e : String} :
      Commanded m tun env s .openUdp (s.takePort.log [.openFailed e])
  | udpOpened {sock : υ}
      (hbind : m.bind (m.udpNew tun.udpMeta tun.udpBuf) s.nextPort = .ok sock) :
      Commanded m tun env s .openUdp (s.takePort.addUdp env.handle s.nextPort sock)
  | addrsSet {v4 : Option (Ipv4Addr × Nat)} {v6 : Option (Ipv6Addr × Nat)} {addrs : List IpCidr} :
      Commanded m tun env s (.setAddrs v4 v6) { s with iface := addrs }

/-- The addresses of a control message, with the prefixes they get. -/
def routable (v4 : Option (Ipv4Addr × Nat)) (v6 : Option (Ipv6Addr × Nat)) : List IpCidr :=
  (v4.map fun a => ⟨.v4 a.1, routablePrefixV4 a.2⟩).toList ++
    (v6.map fun a => ⟨.v6 a.1, routablePrefixV6 a.2⟩).toList

theorem IpCidr.new_routable_v4 (ip : Ipv4Addr) (p : Nat) :
    IpCidr.new (.v4 ip) (routablePrefixV4 p) = .ok ⟨.v4 ip, routablePrefixV4 p⟩ := by
  have hle : routablePrefixV4 p ≤ 32 := by
    unfold routablePrefixV4
    split <;> omega
  exact if_pos hle

theorem IpCidr.new_routable_v6 (ip : Ipv6Addr) (p : Nat) :
    IpCidr.new (.v6 ip) (routablePrefixV6 p) = .ok ⟨.v6 ip, routablePrefixV6 p⟩ := by
  have hle : routablePrefixV6 p ≤ 128 := by
    unfold routablePrefixV6
    split <;> omega
  exact if_pos hle

/-- **No prefix octet makes `IpCidr::new` panic**: only an address can end the task. -/
theorem applyAddrs_eq (m : Smoltcp σ υ) (v4 : Option (Ipv4Addr × Nat))
    (v6 : Option (Ipv6Addr × Nat)) :
    applyAddrs m v4 v6 =
      match (routable v4 v6).find? fun c => !m.takesAddr c.addr with
      | some c => .error (.badAddress c.addr)
      | none => .ok (routable v4 v6) := by
  have h4 : (v4.toList.mapM fun a => IpCidr.new (.v4 a.1) (routablePrefixV4 a.2)) =
      .ok (v4.map fun a => ⟨.v4 a.1, routablePrefixV4 a.2⟩).toList := by
    cases v4 with
    | none => rfl
    | some a => simp [IpCidr.new_routable_v4, pure, Except.pure, bind, Except.bind]
  have h6 : (v6.toList.mapM fun a => IpCidr.new (.v6 a.1) (routablePrefixV6 a.2)) =
      .ok (v6.map fun a => ⟨.v6 a.1, routablePrefixV6 a.2⟩).toList := by
    cases v6 with
    | none => rfl
    | some a => simp [IpCidr.new_routable_v6, pure, Except.pure, bind, Except.bind]
  unfold applyAddrs
  rw [h4, h6]
  rfl

theorem commanded_of_ok {env : OpenEnv} {c : Cmd} (h : handleCmd m tun env s c = .ok s') :
    Commanded m tun env s c s' := by
  revert h
  fun_cases handleCmd m tun env s c <;> intro h
  case case5 =>
    obtain ⟨addrs, -, heq⟩ := bind_eq_ok.mp h
    cases heq
    exact .addrsSet
  all_goals cases h
  case case1 => exact .tcpFailed
  case case2 hconnect => exact .tcpOpened hconnect
  case case3 => exact .udpFailed
  case case4 hbind => exact .udpOpened hbind

/-! ### The backlog's passes -/

theorem drainBacklog_cases (h : drainBacklog m tun s b = .ok r) :
    (b.queue = [] ∧ r = (s, b)) ∨
      (KeyedQueue.Passed DataIn.id (tryHandleData m tun) s ∅ b.queue r.1 r.2.blocked r.2.queue ∧
        r.2.bytes = r.2.queue.foldl (fun n d => tun.target.saturatingAdd n d.bytes) 0) := by
  unfold drainBacklog at h
  by_cases hempty : b.queue.isEmpty = true
  · rw [if_pos hempty] at h
    cases h
    exact Or.inl ⟨List.isEmpty_iff.mp hempty, rfl⟩
  · rw [if_neg hempty] at h
    obtain ⟨⟨t, blocked, kept⟩, hpass, heq⟩ := bind_eq_ok.mp h
    cases heq
    exact Or.inr ⟨KeyedQueue.passed_of_ok hpass, rfl⟩

theorem ingest_cases {d : DataIn} (h : ingest m tun s b d = .ok r) :
    (d.id ∈ b.blocked ∧ r = (s.log [.ingested d], b.push tun.target d)) ∨
    (d.id ∉ b.blocked ∧ ∃ o, Handled m tun (s.log [.ingested d]) d r.1 o ∧
      r.2 = match o with
        | none => b
        | some back => b.push tun.target back) := by
  unfold ingest at h
  by_cases hb : d.id ∈ b.blocked
  · rw [if_pos (by simpa [Backlog.holds] using hb)] at h
    cases h
    exact Or.inl ⟨hb, rfl⟩
  · rw [if_neg (by simpa [Backlog.holds] using hb)] at h
    obtain ⟨⟨t, o⟩, hhandle, heq⟩ := bind_eq_ok.mp h
    refine Or.inr ⟨hb, o, ?_⟩
    cases o with
    | none | some back => cases heq; exact ⟨handled_of_ok hhandle, rfl⟩

/-! ### Whole steps -/

/-- `P` survives everything a step does to the stack. -/
structure StackRule (m : Smoltcp σ υ) (tun : Tuning) (P : NetStack σ υ → Prop) : Prop where
  poll : ∀ {s tcp udp device panicked},
    (∀ h remote port sock, s.sockets h = some (.tcp remote port sock) →
      m.polled sock (tcp h sock)) → P s → P (pollStack m tcp udp device panicked s)
  served : ∀ {s s' now env id}, Served m tun now env s id s' → P s → P s'
  servedUdp : ∀ {s s' id}, ServedUdp s id s' → P s → P s'
  handled : ∀ {s s' d o}, Handled m tun s d s' o → P s → P s'
  reset : ∀ {s s' id}, Reset m s id s' → P s → P s'
  commanded : ∀ {s s' env c}, s.sockets env.handle = none → Commanded m tun env s c s' → P s → P s'
  device : ∀ {s} (device : StackDevice), P s → P { s with device }

/-- The stack once the message of a step, if it brings one, is in the history. -/
def Step.logged (l : Step σ υ) (s : NetStack σ υ) : NetStack σ υ :=
  match l with
  | .ingest d => s.log [.ingested d]
  | _ => s

/-- **What every part of a step keeps, the step keeps.** -/
theorem StackRule.step {P : NetStack σ υ → Prop} (r : StackRule m tun P) (hv : l.Valid m w)
    (h : step m tun w l = .ok w') (hP : P (l.logged w.stack)) : P w'.stack := by
  cases l with
  | poll tcp udp device panicked =>
    cases h
    exact r.poll hv hP
  | serviceTcp ids now env =>
    obtain ⟨q, hq, heq⟩ := bind_eq_ok.mp h
    cases heq
    exact foldlM_keeps (P := fun acc => P acc.1) hq hP
      (fun id _ t t' ht hone => r.served (served_of_ok hone) ht)
  | serviceUdp ids answers =>
    obtain ⟨q, hq, heq⟩ := bind_eq_ok.mp h
    cases heq
    exact foldlM_keeps (P := fun acc => P acc.1) hq hP
      (fun id _ t t' ht hone => r.servedUdp (servedUdp_of_ok hone) ht)
  | flushTx answers =>
    cases h
    exact r.device _ hP
  | drainBacklog =>
    obtain ⟨q, hq, heq⟩ := bind_eq_ok.mp h
    cases heq
    rcases drainBacklog_cases hq with ⟨-, rfl⟩ | ⟨hpass, -⟩
    · exact hP
    · exact KeyedQueue.pass_keeps (fun s d s' o ht hd => r.handled (handled_of_ok hd) ht) hpass hP
  | reapWedged ids blockedIds stallAt wedgeAt =>
    obtain ⟨q, hq, heq⟩ := bind_eq_ok.mp h
    cases heq
    obtain ⟨reset, hreset⟩ := reapWedged_ok hq
    exact foldlM_keeps (P := fun acc => P acc.1) hreset hP
      (fun id _ t t' ht hone => r.reset (reapOne_ok hone).1 ht)
  | inbound pkt =>
    cases h
    exact r.device _ hP
  | ingest d =>
    obtain ⟨q, hq, heq⟩ := bind_eq_ok.mp h
    cases heq
    rcases ingest_cases hq with ⟨-, rfl⟩ | ⟨-, o, hd, -⟩
    · exact hP
    · exact r.handled hd hP
  | cmd c env =>
    obtain ⟨s, hs, heq⟩ := bind_eq_ok.mp h
    cases heq
    exact r.commanded hv (commanded_of_ok hs) hP

/-! ### One more step -/

theorem Runs.step (h : Runs m tun w₀ ls w) (l : Step σ υ) (hv : l.Valid m w)
    (hstep : step m tun w l = .ok w') : Runs m tun w₀ (ls ++ [l]) w' :=
  h.snoc hv hstep

theorem RunsWith.step (h : RunsWith m tun T w₀ ls w) (l : Step σ υ) (hv : l.Valid m w)
    (hT : l.Turns T w) (hstep : step m tun w l = .ok w') : RunsWith m tun T w₀ (ls ++ [l]) w' :=
  h.snoc ⟨hv, hT⟩ hstep

/-- A step that finds nothing to do. -/
theorem RunsWith.stay (h : RunsWith m tun T w₀ ls w) (l : Step σ υ) (hv : l.Valid m w)
    (hT : l.Turns T w) (hstep : Aether.step m tun w l = .ok w) :
    RunsWith m tun T w₀ (ls ++ [l]) w :=
  h.step l hv hT hstep

theorem RunsWith.runs (h : RunsWith m tun T w₀ ls w) : Runs m tun w₀ ls w :=
  h.weaken fun _ _ hok => hok.1

theorem Reachable.step (h : Reachable m tun w) (hv : l.Valid m w)
    (hstep : step m tun w l = .ok w') : Reachable m tun w' := by
  obtain ⟨iface, mtu, limits, steps, hrun⟩ := h
  exact ⟨iface, mtu, limits, steps ++ [l], hrun.snoc hv hstep⟩

end Aether
