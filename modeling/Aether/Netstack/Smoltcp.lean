/-
What the netstack uses of smoltcp.

smoltcp is a dependency and not part of this repository, so its sockets are a
parameter: `Smoltcp σ υ` lists the calls `netstack.rs` makes, on an arbitrary type
`σ` of TCP sockets and `υ` of UDP sockets.  What the code relies on about those
calls is stated in the law structures further down, one group for each concern, and
every theorem names the groups it needs.

Two of the fields are not calls but ways to talk about a socket: `rx` reads the
receive buffer, and `polled` says what one `iface.poll` may make of a socket.
-/
import Mathlib.Algebra.GroupWithZero.Nat
import Mathlib.Data.List.Basic

namespace Aether

abbrev Bytes := List UInt8

/-! ### Targets -/

/-- The targets the app ships native code for. -/
inductive Target
  | armeabiV7a | arm64V8a
deriving DecidableEq, Repr

namespace Target

/-- The width of `usize`. -/
def usizeBits : Target → Nat
  | armeabiV7a => 32
  | arm64V8a => 64

def usizeMax (t : Target) : Nat := 2 ^ t.usizeBits - 1

/-- `usize::saturating_add`. -/
def saturatingAdd (t : Target) (a b : Nat) : Nat := min (a + b) t.usizeMax

end Target

/-! ### Addresses -/

abbrev Ipv4Addr := BitVec 32

abbrev Ipv6Addr := BitVec 128

inductive IpAddr
  | v4 (ip : Ipv4Addr)
  | v6 (ip : Ipv6Addr)
deriving DecidableEq, Repr

structure SocketAddr where
  ip : IpAddr
  port : Nat
deriving DecidableEq, Repr

/-- An interface address with its prefix length. -/
structure IpCidr where
  addr : IpAddr
  prefixLen : Nat
deriving DecidableEq, Repr

/-! ### TCP states -/

/-- smoltcp's `tcp::State`. -/
inductive Tcp.State
  | closed | listen | synSent | synReceived | established | finWait1 | finWait2
  | closeWait | closing | lastAck | timeWait
deriving DecidableEq, Repr

namespace Tcp.State

/-- The handshake is over, whatever happened to the connection since. -/
def pastHandshake : Tcp.State → Bool
  | listen | synSent | synReceived => false
  | _ => true

/-- The states a connection is in once the peer's FIN has arrived. -/
def finReceived : Tcp.State → Bool
  | closeWait | closing | lastAck | timeWait => true
  | _ => false

/-- Where `close()` takes a socket. -/
def afterClose : Tcp.State → Tcp.State
  | listen | synSent => closed
  | synReceived | established => finWait1
  | closeWait => lastAck
  | s => s

/-- The states that segments and timers can take a connection to while the application
does nothing.  A connection can be reset from anywhere. -/
def leadsTo : Tcp.State → Tcp.State → Bool
  | _, closed => true
  | listen, s | synSent, s | synReceived, s =>
    s == listen || s == synSent || s == synReceived || s == established || s == closeWait
  | established, s => s == established || s == closeWait
  | finWait1, s => s == finWait1 || s == finWait2 || s == closing || s == timeWait
  | finWait2, s => s == finWait2 || s == timeWait
  | closing, s => s == closing || s == timeWait
  | s, s' => s == s'

end Tcp.State

/-! ### The calls -/

structure Smoltcp (σ υ : Type) where
  /-- A fresh `tcp::Socket`: receive and send buffer, keep-alive and timeout. -/
  tcpNew : (rxBuf txBuf keepAlive timeout : Nat) → σ
  /-- `connect`, from the interface's addresses; an error is its `{:?}` text. -/
  connect : List IpCidr → σ → SocketAddr → (localPort : Nat) → Except String σ
  state : σ → Tcp.State
  canSend : σ → Bool
  /-- `send_slice`: how many bytes were taken, or `none` for an error. -/
  sendSlice : σ → Bytes → Option Nat × σ
  sendQueue : σ → Nat
  canRecv : σ → Bool
  /-- `recv` with a closure that takes all it is shown; `none` is an error. -/
  recv : σ → Option Bytes × σ
  close : σ → σ
  abort : σ → σ
  rx : σ → Bytes
  polled : σ → σ → Prop
  /-- A fresh `udp::Socket`: metadata slots and buffer size. -/
  udpNew : (slots buf : Nat) → υ
  bind : υ → (localPort : Nat) → Except String υ
  udpSendSlice : υ → Bytes → SocketAddr → υ
  udpCanRecv : υ → Bool
  udpRecv : υ → Option (SocketAddr × Bytes) × υ
  /-- Whether `update_ip_addrs` takes the address; it panics on one it does not. -/
  takesAddr : IpAddr → Bool

namespace Smoltcp

variable {σ υ : Type}

/-! ### What the code relies on -/

/-- `send_slice` never takes more than it was given. -/
structure SendBound (m : Smoltcp σ υ) : Prop where
  le : ∀ k data n k', m.sendSlice k data = (some n, k') → n ≤ data.length

/-- The send queue grows by what is taken and shrinks only on acknowledgements. -/
structure SendQueue (m : Smoltcp σ υ) : Prop extends SendBound m where
  connect : ∀ ifc rxBuf txBuf ka timeout remote port k,
    m.connect ifc (m.tcpNew rxBuf txBuf ka timeout) remote port = .ok k → m.sendQueue k = 0
  taken : ∀ k data n k', m.sendSlice k data = (some n, k') →
    m.sendQueue k' = m.sendQueue k + n
  refused : ∀ k data k', m.sendSlice k data = (none, k') → m.sendQueue k' = m.sendQueue k
  close : ∀ k, m.sendQueue (m.close k) = m.sendQueue k
  recv : ∀ k, m.sendQueue (m.recv k).2 = m.sendQueue k
  polled : ∀ k k', m.polled k k' → m.sendQueue k' ≤ m.sendQueue k

/-- The TCP state machine as far as the netstack drives it. -/
structure States (m : Smoltcp σ υ) : Prop where
  connect : ∀ ifc rxBuf txBuf ka timeout remote port k,
    m.connect ifc (m.tcpNew rxBuf txBuf ka timeout) remote port = .ok k → m.state k = .synSent
  sendSlice : ∀ k data, m.state (m.sendSlice k data).2 = m.state k
  recv : ∀ k, m.state (m.recv k).2 = m.state k
  close : ∀ k, m.state (m.close k) = (m.state k).afterClose
  abort : ∀ k, m.state (m.abort k) = .closed
  /-- Only an open sending half takes data. -/
  canSend : ∀ k, m.canSend k = true → m.state k = .established ∨ m.state k = .closeWait
  /-- Closing a socket that is already closing or closed does nothing. -/
  closeAgain : ∀ k, (m.state k).afterClose = m.state k → m.close k = k
  polled : ∀ k k', m.polled k k' → (m.state k).leadsTo (m.state k') = true

/-- The receive buffer is a queue of bytes, readable in every state. -/
structure RecvQueue (m : Smoltcp σ υ) : Prop where
  connect : ∀ ifc rxBuf txBuf ka timeout remote port k,
    m.connect ifc (m.tcpNew rxBuf txBuf ka timeout) remote port = .ok k → m.rx k = []
  canRecv : ∀ k, m.canRecv k = true ↔ m.rx k ≠ []
  /-- A read shows a non-empty front part of the queue and takes it out. -/
  recv : ∀ k, m.rx k ≠ [] → ∃ chunk, (m.recv k).1 = some chunk ∧ chunk ≠ [] ∧
    m.rx k = chunk ++ m.rx (m.recv k).2
  sendSlice : ∀ k data, m.rx (m.sendSlice k data).2 = m.rx k
  close : ∀ k, m.rx (m.close k) = m.rx k
  abort : ∀ k, m.rx (m.abort k) = m.rx k
  /-- A poll can only append what arrived. -/
  polled : ∀ k k', m.polled k k' → m.rx k <+: m.rx k'

end Smoltcp

end Aether
