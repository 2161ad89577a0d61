/-
The netstack's data: `netstack.rs` and the part of `sysprofile.rs` it reads.

Maps and sets of the source are functions and finite sets; where the source
iterates over a `HashMap` or `HashSet`, whose order is unspecified, the order is an
argument of the function that iterates.  Instants are nanoseconds, and every
`Instant::now()` is an argument too.

`trace` is the one field with no counterpart in the source.  It records, in order,
the calls the loop makes on sockets and channels, so that what happened over a
whole run can be stated.
-/
import Aether.Netstack.Smoltcp
import Mathlib.Data.Finset.Basic

namespace Aether

open Function

/-! ### Tuning -/

/-- `sysprofile::Tier`. -/
inductive Tier
  | low | medium | high
deriving DecidableEq, Repr

/-- `buffer_override`, on what the environment variable parses to. -/
def bufferOverride (value : Option Nat) (fallback : Nat) : Nat :=
  (value.filter fun bytes => 16 * 1024 ≤ bytes ∧ bytes ≤ 64 * 1024 * 1024).getD fallback

/-- The fields of `sysprofile::Tuning` the netstack reads, and the target it was built for. -/
structure Tuning where
  target : Target
  tier : Tier
  netstackTcpTxBuf : Nat
  netstackTcpRxBuf : Nat
  netstackUdpBuf : Nat
deriving DecidableEq, Repr

/-- `build_tuning` for a detected tier and the two overrides. -/
def buildTuning (target : Target) (tier : Tier) (txOverride rxOverride : Option Nat) : Tuning :=
  let sizes : Nat × Nat × Nat :=
    match tier with
    | .low => (64 * 1024, 64 * 1024, 32 * 1024)
    | .medium => (96 * 1024, 128 * 1024, 64 * 1024)
    | .high => (128 * 1024, 192 * 1024, 128 * 1024)
  { target
    tier
    netstackTcpTxBuf := bufferOverride txOverride sizes.1
    netstackTcpRxBuf := bufferOverride rxOverride sizes.2.1
    netstackUdpBuf := sizes.2.2 }

namespace Tuning

def tcpTxBuf (t : Tuning) : Nat := t.netstackTcpTxBuf

def tcpRxBuf (t : Tuning) : Nat := t.netstackTcpRxBuf

/-- The pending-write bound tracks the send side. -/
def tcpBuf (t : Tuning) : Nat := t.tcpTxBuf

def udpBuf (t : Tuning) : Nat := t.netstackUdpBuf

def udpMeta (t : Tuning) : Nat :=
  match t.tier with
  | .low => 32
  | .medium => 64
  | .high => 128

def maxTcpPending (t : Tuning) : Nat := max (t.tcpBuf * 2) (64 * 1024)

end Tuning

/-! ### Constants -/

def secs (n : Nat) : Nat := n * 1000000000

def maxRecvChunks : Nat := 128

def tcpWedgeTimeout : Nat := secs 30

def tcpDrainStallTimeout : Nat := secs 8

def tcpDrainStallWarn : Nat := secs 3

def minFlowQueueBytes : Nat := 48 * 1024

def stallFlapWindow : Nat := secs 60

def stallFlapLimit : Nat := 2

def maxDeviceTxHard : Nat := 256

def u64Max : Nat := 2 ^ 64 - 1

structure TcpLimits where
  connect : Nat
  keepalive : Nat
  deadPeer : Nat
  orphanLinger : Nat
deriving DecidableEq, Repr

/-! ### Admission credit -/

structure FlowCredit where
  /-- Bytes the app has handed to the stack for this flow, ever. -/
  sent : Nat
  /-- Bytes the peer has acknowledged, as published by `serviceTcp`. -/
  acked : Nat
  cap : Nat
  closed : Bool
deriving DecidableEq, Repr

namespace FlowCredit

def new : FlowCredit := { sent := 0, acked := 0, cap := minFlowQueueBytes, closed := false }

def outstanding (c : FlowCredit) : Nat := c.sent - c.acked

def budget (c : FlowCredit) : Nat := c.cap

def publish (c : FlowCredit) (acked cap : Nat) : FlowCredit :=
  { c with
    acked := if acked > c.acked then acked else c.acked
    cap := max cap minFlowQueueBytes }

def close (c : FlowCredit) : FlowCredit := { c with closed := true }

end FlowCredit

/-! ### Messages from the app -/

inductive DataIn
  | tcp (id : Nat) (data : Bytes)
  | tcpClose (id : Nat)
  | udp (id : Nat) (dst : SocketAddr) (data : Bytes)
  | udpClose (id : Nat)
deriving DecidableEq, Repr

namespace DataIn

def id : DataIn → Nat
  | tcp id _ | tcpClose id | udp id _ _ | udpClose id => id

@[simp] theorem id_tcp (i : Nat) (data : Bytes) : (tcp i data).id = i := rfl
@[simp] theorem id_tcpClose (i : Nat) : (tcpClose i).id = i := rfl

def bytes : DataIn → Nat
  | tcp _ data => data.length
  | udp _ _ data => data.length
  | _ => 0

end DataIn

inductive Cmd
  | openTcp (dst : SocketAddr)
  | openUdp
  | setAddrs (v4 : Option (Ipv4Addr × Nat)) (v6 : Option (Ipv6Addr × Nat))
deriving DecidableEq, Repr

/-! ### Flows -/

/-- A TCP flow's bookkeeping.  The two halves of the app's side are kept as whether
they are still here: `connectResp` and `fromStackRx` are `Option`s that are only ever
taken out.  The drain rate is a float and arrives as an argument of the pass that
measures it. -/
structure TcpState where
  handle : Nat
  connectResp : Bool
  fromStackRx : Bool
  pending : Bytes
  established : Bool
  halfClosed : Bool
  connectDeadline : Nat
  orphanedAt : Option Nat
  aborted : Bool
  lastProgress : Nat
  sendQueueHigh : Nat
  acceptedTotal : Nat
  ackedHigh : Nat
  lastDrain : Nat
  drainWarned : Bool
  credit : FlowCredit
  uplinkBudget : Nat
  outstandingPeak : Nat
  pendingPeak : Nat
  sendQueuePeak : Nat
  stallCount : Nat
  stallMark : Nat
deriving DecidableEq, Repr

structure UdpState where
  handle : Nat
deriving DecidableEq, Repr

/-! ### What happened -/

/-- What a service pass did for one flow. -/
inductive FlowEvent
  /-- The connect call was answered: `none` is success, otherwise the error text. -/
  | answered (error : Option String)
  /-- The socket took these bytes out of `pending`. -/
  | accepted (bytes : Bytes)
  | toApp (chunk : Bytes)
  /-- The app's receiver was found closed. -/
  | appGone
  /-- `close()` was called while this much was still pending. -/
  | close (pending : Bytes)
  | abort
  /-- The flow left `tcp_conns` and its socket the socket set. -/
  | removed
deriving DecidableEq, Repr

inductive Event
  | portTaken (port : Nat)
  | openFailed (error : String)
  | openedTcp (id : Nat)
  | openedUdp (id : Nat)
  | ingested (d : DataIn)
  | flow (id : Nat) (e : FlowEvent)
  /-- A poll, with what it appended to each flow's receive queue and the state it
  left the flow's socket in. -/
  | polled (arrived : Nat → Bytes) (state : Nat → Option Tcp.State)

/-! ### The stack -/

structure StackDevice where
  rx : List Bytes
  tx : List Bytes
  mtu : Nat
  txStalls : Nat
  txShed : Nat
  txPeak : Nat
deriving DecidableEq, Repr

def StackDevice.new (mtu : Nat) : StackDevice :=
  { rx := [], tx := [], mtu, txStalls := 0, txShed := 0, txPeak := 0 }

/-- An entry of the `SocketSet`, with the port it was bound or connected from. -/
inductive Slot (σ υ : Type)
  | tcp (remote : SocketAddr) (localPort : Nat) (sock : σ)
  | udp (localPort : Nat) (sock : υ)

/-- How the netstack task dies. -/
inductive Panic
  /-- `SocketSet::get_mut` or `remove` on a handle that is not in the set. -/
  | deadHandle (handle : Nat)
  /-- `get_mut` for the other kind of socket. -/
  | wrongType (handle : Nat)
  /-- `IpCidr::new` with a prefix longer than the address. -/
  | badPrefix (prefixLen : Nat)
  /-- `update_ip_addrs` with an address smoltcp does not take. -/
  | badAddress (addr : IpAddr)
deriving DecidableEq, Repr

structure NetStack (σ υ : Type) where
  iface : List IpCidr
  device : StackDevice
  sockets : Nat → Option (Slot σ υ)
  tcpConns : Nat → Option TcpState
  udpConns : Nat → Option UdpState
  /-- A `usize` that every open moves on by one.  It has no end here: the model is of runs that
  open fewer flows than a `usize` can count, so that the counter does not wrap. -/
  nextId : Nat
  nextPort : Nat
  tcpLimits : TcpLimits
  trace : List Event

structure Backlog where
  queue : List DataIn
  blocked : Finset Nat
  bytes : Nat
deriving DecidableEq

namespace Backlog

def empty : Backlog := { queue := [], blocked := ∅, bytes := 0 }

def holds (b : Backlog) (id : Nat) : Bool := id ∈ b.blocked

def push (t : Target) (b : Backlog) (d : DataIn) : Backlog :=
  { queue := b.queue ++ [d]
    blocked := insert d.id b.blocked
    bytes := t.saturatingAdd b.bytes d.bytes }

def purge (b : Backlog) (id : Nat) : Backlog :=
  let queue := b.queue.filter fun d => d.id ≠ id
  { queue
    blocked := b.blocked.erase id
    bytes := (queue.map DataIn.bytes).sum }

end Backlog

namespace NetStack

variable {σ υ : Type}

/-- `sockets.get_mut::<tcp::Socket>(handle)`, with the rest of the entry. -/
def tcpSocket (s : NetStack σ υ) (handle : Nat) : Except Panic (SocketAddr × Nat × σ) :=
  match s.sockets handle with
  | none => .error (.deadHandle handle)
  | some (.udp _ _) => .error (.wrongType handle)
  | some (.tcp remote port sock) => .ok (remote, port, sock)

/-- `sockets.get_mut::<udp::Socket>(handle)`, with the rest of the entry. -/
def udpSocket (s : NetStack σ υ) (handle : Nat) : Except Panic (Nat × υ) :=
  match s.sockets handle with
  | none => .error (.deadHandle handle)
  | some (.tcp _ _ _) => .error (.wrongType handle)
  | some (.udp port sock) => .ok (port, sock)

def log (s : NetStack σ υ) (events : List Event) : NetStack σ υ :=
  { s with trace := s.trace ++ events }

/-- Writes a socket back into its slot. -/
def setSocket (s : NetStack σ υ) (handle : Nat) (slot : Slot σ υ) : NetStack σ υ :=
  { s with sockets := update s.sockets handle (some slot) }

def setTcp (s : NetStack σ υ) (id : Nat) (st : TcpState) : NetStack σ υ :=
  { s with tcpConns := update s.tcpConns id (some st) }

/-- Drops a TCP flow's entry and its socket. -/
def dropTcp (s : NetStack σ υ) (id handle : Nat) : NetStack σ υ :=
  { s with
    sockets := update s.sockets handle none
    tcpConns := update s.tcpConns id none }

/-- Drops a UDP flow's entry and its socket. -/
def dropUdp (s : NetStack σ υ) (id handle : Nat) : NetStack σ υ :=
  { s with
    sockets := update s.sockets handle none
    udpConns := update s.udpConns id none }

end NetStack

end Aether
