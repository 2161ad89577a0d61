/-
A small TCP to run the netstack on.

`Simple.tcp` is one choice of the `Smoltcp` parameter that keeps all its laws: a
socket is its state, its receive queue and the length of its send queue.  `Solo` is
the netstack while it has exactly one flow, whose steps come down to steps of that
flow's entry and socket.
-/
import Aether.Netstack.App

namespace Aether

namespace Simple

structure Socket where
  state : Tcp.State
  rx : Bytes
  queued : Nat
  txBuf : Nat
deriving DecidableEq, Repr

/-- The sending half is open. -/
def Socket.open (k : Socket) : Bool := k.state == .established || k.state == .closeWait

def tcp : Smoltcp Socket Unit where
  tcpNew _ txBuf _ _ := { state := .closed, rx := [], queued := 0, txBuf }
  connect _ k _ _ := .ok { k with state := .synSent }
  state k := k.state
  canSend k := k.open && k.queued < k.txBuf
  sendSlice k data :=
    if k.open then
      let n := min data.length (k.txBuf - k.queued)
      (some n, { k with queued := k.queued + n })
    else (none, k)
  sendQueue k := k.queued
  canRecv k := !k.rx.isEmpty
  recv k := (some k.rx, { k with rx := [] })
  close k := { k with state := k.state.afterClose }
  abort k := { k with state := .closed }
  rx k := k.rx
  polled k k' := k.rx <+: k'.rx ∧ k'.queued ≤ k.queued ∧
    k.state.leadsTo k'.state = true
  udpNew _ _ := ()
  bind _ _ := .ok ()
  udpSendSlice _ _ _ := ()
  udpCanRecv _ := false
  udpRecv _ := (none, ())
  takesAddr _ := true

/-- The lifetimes `TcpLimits::from_env` gives without overrides. -/
def limits : TcpLimits :=
  { connect := secs 30, keepalive := secs 15, deadPeer := secs 90, orphanLinger := secs 10 }

def tuning : Tuning := buildTuning .arm64V8a .low none none

def remote : SocketAddr := { ip := .v4 0x01010101#32, port := 443 }

/-- Opens at time zero, into slot zero. -/
def openEnv : OpenEnv :=
  { handle := 0, connectAt := 0, progressAt := 0, drainAt := 0, markAt := 0 }

/-- A turn at time `t` whose reader takes everything. -/
def calmAt (t : Nat) : FlowEnv :=
  { respClosed := false, progressAt := t, drainAt := t, warnAt := t, windowAt := t, markAt := t,
    measured := 0, tryReserve := fun _ => .permit }

def calm : FlowEnv := calmAt 0

/-- A socket in `state` with empty queues. -/
def idle (state : Tcp.State) : Socket :=
  { state, rx := [], queued := 0, txBuf := tuning.tcpTxBuf }

end Simple

/-- The netstack with one flow, `1`, in slot `0`. -/
structure Solo where
  st : TcpState
  sock : Simple.Socket
  trace : List Event

namespace Solo

def stack (c : Solo) : NetStack Simple.Socket Unit :=
  { iface := []
    device := .new 1280
    sockets := Function.update (fun _ => none) 0 (some (.tcp Simple.remote 49152 c.sock))
    tcpConns := Function.update (fun _ => none) 1 (some c.st)
    udpConns := fun _ => none
    nextId := 2
    nextPort := 49153
    tcpLimits := Simple.limits
    trace := c.trace }

def world (c : Solo) : World Simple.Socket Unit := { stack := c.stack, backlog := .empty }

/-- Right after `OpenTcp` on a fresh stack. -/
def opened (tun : Tuning) : Solo :=
  { st := .opening Simple.openEnv Simple.limits
    sock := { state := .synSent, rx := [], queued := 0, txBuf := tun.tcpTxBuf }
    trace := [.portTaken 49152, .openedTcp 1] }

/-- The flow's turn, if it stays. -/
def serve (c : Solo) (tun : Tuning) (now : Nat) (env : FlowEnv) : Option Solo :=
  let turn := serviceFlow Simple.tcp tun Simple.limits now env c.st c.sock
  turn.next.map fun r =>
    { st := r.1, sock := r.2, trace := c.trace ++ turn.log.map (.flow 1) }

/-- The stack after the flow was removed. -/
def gone (c : Solo) (log : List FlowEvent) : World Simple.Socket Unit :=
  { c.world with stack := (c.stack.log (log.map (.flow 1))).dropTcp 1 0 }

/-- A poll that makes `sock` of the flow's socket. -/
def polled (c : Solo) (sock : Simple.Socket) : Solo :=
  { c with
    sock
    trace := c.trace ++ [.polled (fun id => if id = 1 then sock.rx.drop c.sock.rx.length else [])
      (fun id => if id = 1 then some sock.state else none)] }

def pollStep (sock : Simple.Socket) : Step Simple.Socket Unit :=
  .poll (fun _ _ => sock) (fun _ u => u) (.new 1280) false

/-- Right after the connect call was answered. -/
def up : Solo :=
  { st := { TcpState.opening Simple.openEnv Simple.limits with
      established := true, connectResp := false, fromStackRx := false }
    sock := Simple.idle .established
    trace := ((opened Simple.tuning).polled (Simple.idle .established)).trace ++
      [.flow 1 (.answered none)] }

/-- A write of the app that fits. -/
def wrote (c : Solo) (data : Bytes) : Solo :=
  { c with
    st := { c.st with pending := c.st.pending ++ data }
    trace := c.trace ++ [.ingested (.tcp 1 data)] }

/-- The app closes its half. -/
def halfClosed (c : Solo) : Solo :=
  { c with
    st := { c.st with halfClosed := true }
    trace := c.trace ++ [.ingested (.tcpClose 1)] }

/-! ### The flow and its writer -/

def app (c : Solo) (channel : List DataIn) (p : Writer) : AppWorld Simple.Socket Unit :=
  { world := c.world, channel, writer := Function.update (fun _ => .idle) 1 p }

/-- `fetch_add` on the flow's credit. -/
def counting (c : Solo) (len : Nat) : Solo :=
  { c with st := { c.st with credit := c.st.credit.addSent len } }

/-! ### The loop with one flow -/

/-- An iteration of the loop: what the poll makes of the socket, the time, and what the
app writes. -/
structure Pass where
  sock : Simple.Socket
  now : Nat
  data : Bytes

def Pass.loop (p : Pass) : LoopPass Simple.Socket Unit :=
  { tcp := fun _ _ => p.sock
    udp := fun _ u => u
    device := .new 1280
    panicked := false
    ids := [1]
    now := p.now
    env := fun _ => Simple.calmAt p.now
    udpIds := []
    udpAnswers := fun _ _ => .permit
    flushAnswers := fun _ => .ok
    reapIds := [1]
    blockedIds := []
    stallAt := fun _ => 0
    wedgeAt := fun _ => 0
    queues := [.ingest (.tcp 1 p.data)] }

/-- The flow after one iteration. -/
def pass (c : Solo) (p : Pass) : Option Solo :=
  ((c.polled p.sock).serve Simple.tuning p.now (Simple.calmAt p.now)).map fun c => c.wrote p.data

/-- The poll is one smoltcp could make, and what the app writes fits. -/
def fits (c : Solo) (p : Pass) : Bool :=
  c.st.handle == 0 && c.sock.rx.isPrefixOf p.sock.rx && decide (p.sock.queued ≤ c.sock.queued) &&
    c.sock.state.leadsTo p.sock.state &&
    (c.pass p).all fun c' => decide (c'.st.pending.length < Simple.tuning.maxTcpPending)

/-- The flow after several iterations, if they fit. -/
def passes : Solo → List Pass → Option Solo
  | c, [] => some c
  | c, p :: ps => if c.fits p then (c.pass p).bind fun c => passes c ps else none

/-- The first iteration: there is no flow yet, and the app opens one. -/
def openPass : LoopPass Simple.Socket Unit :=
  { Pass.loop { sock := Simple.idle .closed, now := 0, data := [] } with
    ids := []
    reapIds := []
    queues := [.cmd (.openTcp Simple.remote) Simple.openEnv] }

/-- The flow that iteration leaves. -/
def first : Solo :=
  { opened Simple.tuning with
    trace := [.polled (fun _ => []) (fun _ => none), .portTaken 49152, .openedTcp 1] }

end Solo

end Aether
