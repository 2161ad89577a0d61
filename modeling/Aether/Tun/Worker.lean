/-
`TcpSession.run` and `readFromSocks`: the threads of a session of the tun bridge.

The session's own thread decides where to connect, answers the SYN and writes the queue to the
socket; the reader waits for what the remote side sends.  A step is an operation of theirs on
`isClosed`, `connected`, the queue or the socket, or a segment.  What is taken from the queue is
written in the same step, and what ends the reader's stream is answered in the same step: a `close`
in between leaves what one right before leaves.
-/
import Aether.Tun.Session

namespace Aether.Tun

/-- What the decision of the routing engine comes to. -/
inductive Route
  /-- `DIRECT`, without a network to go out by. -/
  | rejected
  | block
  | connect
deriving DecidableEq, Repr

/-- Where `run` is. -/
inductive Phase
  | start
  /-- The SYN-ACK went out, and the first packet is awaited for a name. -/
  | sniffing
  | decided (r : Route)
  /-- The client was sent a RST, and `close` is next. -/
  | reset
  /-- `connected` was set. -/
  | connected
  /-- `isClosed` was not set. -/
  | answering
  /-- At the condition of the loop. -/
  | loop
  /-- `count` packets were written, and one more may be. -/
  | writing (count : Nat)
  | flushing
  /-- The `close` of the `finally` block is next. -/
  | leaving
  | finished
deriving DecidableEq, Repr

/-- Where `readFromSocks` is. -/
inductive Reader
  | none
  /-- At the condition of the loop. -/
  | loop
  | reading
  /-- The FIN went out. -/
  | finSent
  | leaving
  | finished
deriving DecidableEq, Repr

/-- The capacity of the buffer in front of the socket. -/
def bufferCapacity : Nat := 131072

structure Worker where
  session : TcpSession
  phase : Phase
  reader : Reader
  synAckSent : Bool
  /-- A FIN or a RST was enqueued for the client. -/
  endSent : Bool
  buffer : Bytes
  /-- What was written to the socket. -/
  socket : Bytes
  /-- The bytes that were acknowledged in place of a FIN behind them, and not queued. -/
  torn : Bytes
deriving DecidableEq, Repr

def Worker.new (initialSeq : BitVec 32) : Worker where
  session := .new initialSeq
  phase := .start
  reader := .none
  synAckSent := false
  endSent := false
  buffer := []
  socket := []
  torn := []

/-- What the outside answers to a step of `run`. -/
structure Answer where
  /-- The flow is tunnelled to port 80 or 443, and no name is known for its address. -/
  sniff : Bool
  route : Route
  /-- The connection is up, and the proxy accepted the request. -/
  up : Bool
  isRunning : Bool
  /-- There was no activity for five minutes. -/
  expired : Bool
  /-- The socket throws at a write, as it does once it was closed. -/
  broken : Bool

namespace Worker

variable (w : Worker)

/-- A segment; the number that acknowledges a FIN is the next one, whatever its segment carries. -/
def arrive (g : Segment) (stale blocked : Bool) : Worker :=
  let session := w.session.arrive g stale blocked
  { w with
    session
    torn := w.torn ++
      if g.fin && session.myAck ≠ w.session.myAck then g.payload.take 1 else [] }

/-- `out.write`: what does not fit goes to the socket.  The socket's bytes, and the buffer's. -/
def write (broken : Bool) (data : Bytes) : Option (Bytes × Bytes) :=
  if w.buffer.length + data.length ≤ bufferCapacity ∧ data.length < bufferCapacity then
    some (w.socket, w.buffer ++ data)
  else if w.session.closed || broken then none
  else if data.length < bufferCapacity then some (w.socket ++ w.buffer, data)
  else some (w.socket ++ w.buffer ++ data, [])

/-- The next operation of `run`. -/
def run (a : Answer) : Except String Worker :=
  match w.phase with
  | .start =>
    .ok (if a.sniff then { w with synAckSent := true, phase := .sniffing }
      else { w with phase := .decided a.route })
  -- a first packet would be put back in front of the queue, whatever is read in it
  | .sniffing => .ok { w with phase := .decided a.route }
  | .decided .rejected => .ok { w with endSent := true, phase := .reset }
  | .decided .block =>
    .ok (if w.synAckSent then { w with endSent := true, phase := .reset }
      else { w with phase := .leaving })
  | .decided .connect =>
    .ok (if a.up then
        { w with session := { w.session with connected := true }, phase := .connected }
      else { w with phase := .leaving })
  | .connected => .ok { w with phase := if w.session.closed then .leaving else .answering }
  | .answering => .ok { w with synAckSent := true, reader := .loop, phase := .loop }
  | .loop =>
    .ok { w with phase := if w.session.closed || !a.isRunning then .leaving else .writing 0 }
  | .writing count =>
    match w.session.queue with
    | [] =>
      if 0 < count then .ok { w with phase := .flushing }
      else .ok { w with phase := if a.expired then .leaving else .loop }
    | data :: rest =>
      let session := { w.session with queue := rest }
      if 64 < count then .ok { w with phase := .flushing }
      else
        match w.write a.broken data with
        | none => .ok { w with session, phase := .leaving }
        | some (socket, buffer) =>
          .ok { w with session, socket, buffer, phase := .writing (count + 1) }
  | .flushing =>
    .ok (if !w.buffer.isEmpty && (w.session.closed || a.broken) then { w with phase := .leaving }
      else { w with socket := w.socket ++ w.buffer, buffer := [], phase := .loop })
  | .reset | .leaving => .ok { w with session := w.session.close, phase := .finished }
  | .finished => .error "finished"

/-- What `ins.read` comes to. -/
inductive Read
  | bytes
  | ended
  | failed
deriving DecidableEq, Repr

/-- The next operation of `readFromSocks`. -/
def read (isRunning : Bool) (r : Read) : Except String Worker :=
  match w.reader with
  | .none | .finished => .error "not reading"
  | .loop =>
    .ok { w with reader := if w.session.closed || !isRunning then .leaving else .reading }
  | .reading =>
    match r with
    | .bytes => .ok { w with reader := .loop }
    | .ended => .ok { w with endSent := true, reader := .finSent }
    | .failed => .ok { w with reader := .leaving }
  | .finSent | .leaving => .ok { w with session := w.session.close, reader := .finished }

inductive Label
  /-- A segment; whether the session is older than a second, and whether its app is blocked. -/
  | arrive (g : Segment) (stale blocked : Bool)
  | run (a : Answer)
  | read (isRunning : Bool) (r : Read)
  /-- The bridge stops. -/
  | close

def step : Label → Except String Worker
  | .arrive g stale blocked => .ok (w.arrive g stale blocked)
  | .run a => w.run a
  | .read isRunning r => w.read isRunning r
  | .close => .ok { w with session := w.session.close }

/-- A write fails though the socket was not closed. -/
def Label.broken : Label → Bool
  | .run a => a.broken
  | _ => false

/-- What was taken from the client and is not written yet. -/
def pending : Bytes := w.buffer ++ w.session.queue.flatten

end Worker

end Aether.Tun
