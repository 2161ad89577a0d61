/-
Control messages and resets: `handle_cmd` and `reap_wedged`, with what they use.
-/
import Aether.Netstack.Service

namespace Aether

open Function

variable {σ υ : Type}

/-! ### Ports and addresses -/

/-- The port handed out, and the one that is next. -/
def allocPort (p : Nat) : Nat × Nat := (p, if p ≥ 65000 then 49152 else p + 1)

def routablePrefixV4 (p : Nat) : Nat := if p ≥ 31 then 24 else p

def routablePrefixV6 (p : Nat) : Nat := if p ≥ 127 then 64 else p

/-- `IpCidr::new`, which asserts that the prefix is not longer than the address. -/
def IpCidr.new (addr : IpAddr) (prefixLen : Nat) : Except Panic IpCidr :=
  let bits := match addr with
    | .v4 _ => 32
    | .v6 _ => 128
  if prefixLen ≤ bits then .ok { addr, prefixLen } else .error (.badPrefix prefixLen)

/-- The address list `apply_addrs` installs, unless smoltcp refuses one of them. -/
def applyAddrs (m : Smoltcp σ υ) (v4 : Option (Ipv4Addr × Nat)) (v6 : Option (Ipv6Addr × Nat)) :
    Except Panic (List IpCidr) := do
  let a4 ← v4.toList.mapM fun a => IpCidr.new (.v4 a.1) (routablePrefixV4 a.2)
  let a6 ← v6.toList.mapM fun a => IpCidr.new (.v6 a.1) (routablePrefixV6 a.2)
  match (a4 ++ a6).find? fun c => !m.takesAddr c.addr with
  | some c => .error (.badAddress c.addr)
  | none => .ok (a4 ++ a6)

/-- The configured address of each family; the last one wins. -/
def currentAddrs (iface : List IpCidr) : Option (Ipv4Addr × Nat) × Option (Ipv6Addr × Nat) :=
  iface.foldl
    (fun acc c =>
      match c.addr with
      | .v4 ip => (some (ip, c.prefixLen), acc.2)
      | .v6 ip => (acc.1, some (ip, c.prefixLen)))
    (none, none)

/-! ### Commands -/

/-- The slot `SocketSet::add` picks, and the clock readings of an open. -/
structure OpenEnv where
  handle : Nat
  connectAt : Nat
  progressAt : Nat
  drainAt : Nat
  markAt : Nat

/-- A flow as `handle_cmd` enters it into `tcp_conns`. -/
def TcpState.opening (env : OpenEnv) (limits : TcpLimits) : TcpState :=
  { handle := env.handle
    connectResp := true
    fromStackRx := true
    pending := []
    established := false
    halfClosed := false
    connectDeadline := env.connectAt + limits.connect
    orphanedAt := none
    aborted := false
    lastProgress := env.progressAt
    sendQueueHigh := 0
    acceptedTotal := 0
    ackedHigh := 0
    lastDrain := env.drainAt
    drainWarned := false
    credit := FlowCredit.new
    uplinkBudget := minFlowQueueBytes
    outstandingPeak := 0
    pendingPeak := 0
    sendQueuePeak := 0
    stallCount := 0
    stallMark := env.markAt }

/-- `alloc_port` on the stack's counter. -/
def NetStack.takePort (s : NetStack σ υ) : NetStack σ υ :=
  { s with nextPort := (allocPort s.nextPort).2 }.log [.portTaken (allocPort s.nextPort).1]

/-- Enters a connected socket and its flow. -/
def NetStack.addTcp (s : NetStack σ υ) (env : OpenEnv) (dst : SocketAddr) (port : Nat)
    (sock : σ) : NetStack σ υ :=
  { s with
    sockets := update s.sockets env.handle (some (.tcp dst port sock))
    tcpConns := update s.tcpConns s.nextId (some (.opening env s.tcpLimits))
    nextId := s.nextId + 1 }.log [.openedTcp s.nextId]

/-- Enters a bound socket and its flow. -/
def NetStack.addUdp (s : NetStack σ υ) (handle port : Nat) (sock : υ) : NetStack σ υ :=
  { s with
    sockets := update s.sockets handle (some (.udp port sock))
    udpConns := update s.udpConns s.nextId (some { handle })
    nextId := s.nextId + 1 }.log [.openedUdp s.nextId]

def handleCmd (m : Smoltcp σ υ) (tun : Tuning) (env : OpenEnv) (s : NetStack σ υ) (c : Cmd) :
    Except Panic (NetStack σ υ) :=
  match c with
  | .openTcp dst =>
    let socket := m.tcpNew tun.tcpRxBuf tun.tcpTxBuf s.tcpLimits.keepalive s.tcpLimits.deadPeer
    let port := (allocPort s.nextPort).1
    match m.connect s.iface socket dst port with
    | .error e => .ok (s.takePort.log [.openFailed s!"connect: {e}"])
    | .ok sock => .ok (s.takePort.addTcp env dst port sock)
  | .openUdp =>
    let port := (allocPort s.nextPort).1
    match m.bind (m.udpNew tun.udpMeta tun.udpBuf) port with
    | .error e => .ok (s.takePort.log [.openFailed s!"bind: {e}"])
    | .ok sock => .ok (s.takePort.addUdp env.handle port sock)
  | .setAddrs v4 v6 => do
    let current := currentAddrs s.iface
    let addrs ← applyAddrs m (v4.or current.1) (v6.or current.2)
    return { s with iface := addrs }

/-! ### Resets -/

/-- Clears what the flow holds, releases its writer and aborts its socket. -/
def resetFlow (m : Smoltcp σ υ) (s : NetStack σ υ) (id : Nat) : Except Panic (NetStack σ υ) :=
  match s.tcpConns id with
  | none => .ok s
  | some st => do
    let slot ← s.tcpSocket st.handle
    return ((s.setTcp id { st with pending := [], credit := st.credit.close }).setSocket
      st.handle (.tcp slot.1 slot.2.1 (m.abort slot.2.2))).log [.flow id .abort]

/-- The body of both loops of `reap_wedged`. -/
def reapOne (m : Smoltcp σ υ) (acc : NetStack σ υ × Backlog) (id : Nat) :
    Except Panic (NetStack σ υ × Backlog) := do
  let s ← resetFlow m acc.1 id
  return (s, acc.2.purge id)

/-- Holds bytes none of which was acknowledged for too long. -/
def drainStalled (s : NetStack σ υ) (stallAt : Nat → Nat) (id : Nat) : Bool :=
  match s.tcpConns id with
  | none => false
  | some st =>
    decide (st.sendQueueHigh > 0) && decide (stallAt id - st.lastDrain ≥ tcpDrainStallTimeout)

/-- Took nothing for too long, or is gone. -/
def wedged (s : NetStack σ υ) (wedgeAt : Nat → Nat) (id : Nat) : Bool :=
  match s.tcpConns id with
  | none => true
  | some st => decide (wedgeAt id - st.lastProgress ≥ tcpWedgeTimeout)

/-- `reap_wedged`, with the keys of `tcp_conns` and of `backlog.blocked` in iteration
order and the clock each of them is compared with. -/
def reapWedged (m : Smoltcp σ υ) (ids blockedIds : List Nat) (stallAt wedgeAt : Nat → Nat)
    (s : NetStack σ υ) (backlog : Backlog) : Except Panic (NetStack σ υ × Backlog) := do
  let r ← (ids.filter (drainStalled s stallAt)).foldlM (reapOne m) (s, backlog)
  if r.2.blocked = ∅ then return r
  else
    ((blockedIds.filter fun id => id ∈ r.2.blocked).filter (wedged r.1 wedgeAt)).foldlM
      (reapOne m) r

end Aether
