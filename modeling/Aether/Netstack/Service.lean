/-
The service passes: `service_tcp` and `service_udp`.

The body of `service_tcp`'s loop touches one flow, its entry in `tcp_conns` and its
socket, so it is a function of the two: `serviceFlow`.  Its blocks are separate
definitions in the order of the source, each on a `FlowRun`, which is the entry, the
socket, and what has been done so far.  `continue` is an early result.

What the world outside answers during the pass (the clock, the app's end of the
channel, whether the connect caller is still there) is a `FlowEnv`.
-/
import Aether.Netstack.State

namespace Aether

variable {σ υ : Type}

/-- What `to_app.try_reserve()` answers. -/
inductive TryReserve
  | permit | full | closed
deriving DecidableEq, Repr

/-- The answers and clock readings of one flow's turn. -/
structure FlowEnv where
  /-- `resp.is_closed()`: the caller of the connect gave up. -/
  respClosed : Bool
  /-- The reading that refreshes `last_progress`. -/
  progressAt : Nat
  /-- The reading that refreshes `last_drain`. -/
  drainAt : Nat
  /-- The reading that decides whether the flow is reported as not draining. -/
  warnAt : Nat
  /-- The reading that decides whether the stall window has passed. -/
  windowAt : Nat
  /-- The reading that refreshes `stall_mark`. -/
  markAt : Nat
  /-- The measured drain rate times the queue budget, as bytes. -/
  measured : Nat
  /-- The answer to each `try_reserve`, by how many chunks were delivered before. -/
  tryReserve : Nat → TryReserve

/-- A flow in the middle of its turn. -/
structure FlowRun (σ : Type) where
  st : TcpState
  sock : σ
  log : List FlowEvent

/-- How a flow's turn ends; `none` means it was removed. -/
structure FlowTurn (σ : Type) where
  next : Option (TcpState × σ)
  backpressured : Bool
  log : List FlowEvent

namespace FlowRun

def emit (f : FlowRun σ) (e : FlowEvent) : FlowRun σ := { f with log := f.log ++ [e] }

def keep (f : FlowRun σ) (backpressured : Bool) : FlowTurn σ :=
  { next := some (f.st, f.sock), backpressured, log := f.log }

def remove (f : FlowRun σ) (backpressured : Bool) : FlowTurn σ :=
  { next := none, backpressured, log := f.log ++ [.removed] }

/-! ### The blocks of one turn -/

/-- A connection that came up is answered once. -/
def establish (m : Smoltcp σ υ) (f : FlowRun σ) : FlowRun σ :=
  if !f.st.established && (m.state f.sock == .established || m.state f.sock == .closeWait) then
    let log := if f.st.connectResp && f.st.fromStackRx then f.log ++ [.answered none] else f.log
    { f with
      st := { f.st with established := true, connectResp := false, fromStackRx := false }
      log }
  else f

/-- Takes the connect caller's channel and reports an error on it. -/
def answerError (f : FlowRun σ) (error : String) : FlowRun σ :=
  if f.st.connectResp then
    { f with st := { f.st with connectResp := false } }.emit (.answered (some error))
  else f

/-- Moves what the socket takes out of `pending`. -/
def pushPending (m : Smoltcp σ υ) (env : FlowEnv) (f : FlowRun σ) : FlowRun σ :=
  if f.st.pending.isEmpty then
    { f with st := { f.st with lastProgress := env.progressAt } }
  else if m.canSend f.sock then
    let r := m.sendSlice f.sock f.st.pending
    let sent := r.1.getD 0
    if sent > 0 then
      { st := { f.st with
          lastProgress := env.progressAt
          acceptedTotal := f.st.acceptedTotal + sent
          pending := f.st.pending.drop sent }
        sock := r.2
        log := f.log ++ [.accepted (f.st.pending.take sent)] }
    else { f with sock := r.2 }
  else f

/-- Whether this turn is the stall that gets the flow reset. -/
def flaps (m : Smoltcp σ υ) (env : FlowEnv) (f : FlowRun σ) : Bool :=
  let queued := m.sendQueue f.sock
  let acked := f.st.acceptedTotal - queued
  !(queued == 0 || decide (acked > f.st.ackedHigh)) && !f.st.drainWarned &&
    decide (env.warnAt - f.st.lastDrain ≥ tcpDrainStallWarn) &&
    decide ((if env.windowAt - f.st.stallMark ≥ stallFlapWindow then 0 else f.st.stallCount) + 1
      ≥ stallFlapLimit)

/-- The liveness bookkeeping: has the peer acknowledged anything. -/
def noteDrain (m : Smoltcp σ υ) (env : FlowEnv) (f : FlowRun σ) : TcpState :=
  let queued := m.sendQueue f.sock
  let acked := f.st.acceptedTotal - queued
  if queued == 0 || decide (acked > f.st.ackedHigh) then
    { f.st with lastDrain := env.drainAt, ackedHigh := acked, drainWarned := false }
  else if !f.st.drainWarned && decide (env.warnAt - f.st.lastDrain ≥ tcpDrainStallWarn) then
    { f.st with
      drainWarned := true
      stallMark := env.markAt
      stallCount :=
        (if env.windowAt - f.st.stallMark ≥ stallFlapWindow then 0 else f.st.stallCount) + 1 }
  else f.st

/-- The budget a measured rate is worth: at least the floor, at most what the socket
could hold anyway. -/
def uplinkBudget (tun : Tuning) (measured : Nat) : Nat :=
  min (max measured minFlowQueueBytes) (max tun.tcpTxBuf minFlowQueueBytes)

/-- Publishes what the peer acknowledged, and the budget, to the app's side. -/
def account (m : Smoltcp σ υ) (tun : Tuning) (env : FlowEnv) (f : FlowRun σ) : FlowRun σ :=
  let queued := m.sendQueue f.sock
  let acked := f.st.acceptedTotal - queued
  let st := noteDrain m env f
  let budget := uplinkBudget tun env.measured
  let credit := st.credit.publish acked budget
  { f with
    st := { st with
      sendQueueHigh := queued
      uplinkBudget := budget
      credit
      outstandingPeak := max st.outstandingPeak (min credit.outstanding tun.target.usizeMax)
      pendingPeak := max st.pendingPeak st.pending.length
      sendQueuePeak := max st.sendQueuePeak queued } }

/-- The reset of a flow that keeps stalling. -/
def resetFlapping (m : Smoltcp σ υ) (f : FlowRun σ) : FlowRun σ :=
  { st := { f.st with
      pending := []
      stallCount := 0
      drainWarned := false
      credit := f.st.credit.close }
    sock := m.abort f.sock
    log := f.log ++ [.abort] }

/-- `close()`, noting what is still pending. -/
def close (m : Smoltcp σ υ) (f : FlowRun σ) : FlowRun σ :=
  { f with sock := m.close f.sock }.emit (.close f.st.pending)

/-- The app closed its half and everything it wrote has been taken. -/
def halfClose (m : Smoltcp σ υ) (f : FlowRun σ) : FlowRun σ :=
  if f.st.halfClosed && f.st.pending.isEmpty then f.close m else f

/-- Why the delivery loop stopped. -/
inductive Stop
  | drained | full | closed
deriving DecidableEq, Repr

/-- The delivery loop, with `budget` chunks to go after `delivered`. -/
def deliver (m : Smoltcp σ υ) (answers : Nat → TryReserve) :
    (budget delivered : Nat) → FlowRun σ → FlowRun σ × Stop
  | 0, _, f => (f, .drained)
  | budget + 1, delivered, f =>
    match answers delivered with
    | .full => (f, .full)
    | .closed => (f.emit .appGone, .closed)
    | .permit =>
      if m.canRecv f.sock then
        match m.recv f.sock with
        | (some (b :: chunk), sock) =>
          deliver m answers budget (delivered + 1)
            { f with sock, log := f.log ++ [.toApp (b :: chunk)] }
        | (_, sock) => ({ f with sock }, .drained)
      else (f, .drained)

/-- An orphan's linger starts when its app side is first found gone. -/
def orphan (now : Nat) (f : FlowRun σ) : FlowRun σ :=
  { f with st := { f.st with orphanedAt := some (f.st.orphanedAt.getD now) } }

/-- Whether an orphan is reset now: it still has data nobody will read, or its linger
is over. -/
def orphanExpired (m : Smoltcp σ υ) (limits : TcpLimits) (now : Nat) (f : FlowRun σ) : Bool :=
  m.canRecv f.sock || decide (now - f.st.orphanedAt.getD now ≥ limits.orphanLinger)

/-- The reset of an orphan, which the next pass removes. -/
def resetOrphan (m : Smoltcp σ υ) (f : FlowRun σ) : FlowRun σ :=
  let f := if m.state f.sock ≠ .closed then { f with sock := m.abort f.sock }.emit .abort else f
  { f with st := { f.st with aborted := true } }

def clearPending (f : FlowRun σ) : FlowRun σ := { f with st := { f.st with pending := [] } }

/-- The end of a turn: follow the peer's FIN, and let go of a finished connection. -/
def finish (m : Smoltcp σ υ) (backpressured : Bool) (f : FlowRun σ) : FlowTurn σ :=
  let state := m.state f.sock
  let f := if state = .closeWait then f.close m else f
  let f := if state = .timeWait then f.clearPending else f
  if (state = .closed ∨ state = .timeWait) ∧ f.st.established = true then f.remove backpressured
  else f.keep backpressured

/-- The part of a turn up to the reset of a flapping flow. -/
def upload (m : Smoltcp σ υ) (tun : Tuning) (env : FlowEnv) (f : FlowRun σ) : FlowRun σ :=
  let f := f.pushPending m env
  let flapReset := f.flaps m env
  let f := f.account m tun env
  if flapReset then f.resetFlapping m else f

/-- What follows the delivery loop. -/
def afterDelivery (m : Smoltcp σ υ) (limits : TcpLimits) (now : Nat) (r : FlowRun σ × Stop) :
    FlowTurn σ :=
  let backpressured := r.2 == .full
  if r.2 = .closed then
    let f := r.1.orphan now
    if f.orphanExpired m limits now then (f.resetOrphan m).keep backpressured
    else (f.close m).finish m backpressured
  else r.1.finish m backpressured

/-- The rest of a turn: the half-close, the delivery to the app, and its end. -/
def download (m : Smoltcp σ υ) (limits : TcpLimits) (now : Nat) (env : FlowEnv)
    (f : FlowRun σ) : FlowTurn σ :=
  afterDelivery m limits now ((f.halfClose m).deliver m env.tryReserve maxRecvChunks 0)

end FlowRun

/-- One flow's turn in `service_tcp`. -/
def serviceFlow (m : Smoltcp σ υ) (tun : Tuning) (limits : TcpLimits) (now : Nat)
    (env : FlowEnv) (st : TcpState) (sock : σ) : FlowTurn σ :=
  let f : FlowRun σ := { st, sock, log := [] }
  -- A flow reset last pass goes now.
  if st.aborted then f.remove false
  else
    let f := f.establish m
    if f.st.established then (f.upload m tun env).download m limits now env
    else if m.state sock = .closed ∨ m.state sock = .timeWait then
      (f.answerError "connection refused").remove false
    else if (!f.st.connectResp || env.respClosed) || decide (now ≥ f.st.connectDeadline) then
      (f.answerError "connection timed out").remove false
    else f.keep false

/-- The turn of flow `id`, which may have left the table since the pass began. -/
def serviceOne (m : Smoltcp σ υ) (tun : Tuning) (now : Nat) (env : Nat → FlowEnv)
    (acc : NetStack σ υ × Bool) (id : Nat) : Except Panic (NetStack σ υ × Bool) :=
  match acc.1.tcpConns id with
  | none => .ok acc
  | some st => do
    let slot ← acc.1.tcpSocket st.handle
    let turn := serviceFlow m tun acc.1.tcpLimits now (env id) st slot.2.2
    let s := acc.1.log (turn.log.map (Event.flow id))
    match turn.next with
    | none => return (s.dropTcp id st.handle, acc.2 || turn.backpressured)
    | some (st', sock) =>
      return ((s.setTcp id st').setSocket st.handle (.tcp slot.1 slot.2.1 sock),
        acc.2 || turn.backpressured)

/-- `service_tcp` with the keys of `tcp_conns` in iteration order. -/
def serviceTcp (m : Smoltcp σ υ) (tun : Tuning) (ids : List Nat) (now : Nat)
    (env : Nat → FlowEnv) (s : NetStack σ υ) : Except Panic (NetStack σ υ × Bool) :=
  ids.foldlM (serviceOne m tun now env) (s, false)

/-! ### UDP -/

/-- The delivery loop of `service_udp`. -/
def deliverUdp (m : Smoltcp σ υ) (answers : Nat → TryReserve) :
    (budget delivered : Nat) → υ → υ × FlowRun.Stop
  | 0, _, sock => (sock, .drained)
  | budget + 1, delivered, sock =>
    match answers delivered with
    | .full => (sock, .full)
    | .closed => (sock, .closed)
    | .permit =>
      if m.udpCanRecv sock then
        match m.udpRecv sock with
        | (some _, sock) => deliverUdp m answers budget (delivered + 1) sock
        | (none, sock) => (sock, .drained)
      else (sock, .drained)

/-- The turn of UDP flow `id`. -/
def serviceUdpOne (m : Smoltcp σ υ) (answers : Nat → Nat → TryReserve)
    (acc : NetStack σ υ × Bool) (id : Nat) : Except Panic (NetStack σ υ × Bool) :=
  match acc.1.udpConns id with
  | none => .ok acc
  | some st => do
    let slot ← acc.1.udpSocket st.handle
    let r := deliverUdp m (answers id) maxRecvChunks 0 slot.2
    if r.2 = .closed then
      -- A closed channel takes the socket with it.
      return (acc.1.dropUdp id st.handle, acc.2)
    else
      return (acc.1.setSocket st.handle (.udp slot.1 r.1), acc.2 || r.2 == .full)

/-- `service_udp` with the keys of `udp_conns` in iteration order. -/
def serviceUdp (m : Smoltcp σ υ) (ids : List Nat) (answers : Nat → Nat → TryReserve)
    (s : NetStack σ υ) : Except Panic (NetStack σ υ × Bool) :=
  ids.foldlM (serviceUdpOne m answers) (s, false)

end Aether
