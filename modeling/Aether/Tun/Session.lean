/-
`TcpSession` of the tun bridge, as far as it takes what the client sends.

Segments come from the one thread that reads the tun device; the session's own thread sets
`connected` and empties the queue.  Nothing else writes what `handleFromTun` reads and writes,
so a call of it is one step.  The sequence numbers are 32 bits wide.  The queue is empty until
the session is connected, so what `run` does to sniff a first packet finds none.

What was ever put into the queue, and the numbers that were acknowledged, are kept for the
statements.
-/
import Aether.Lib.Machine
import Aether.Net.Addr

namespace Aether.Tun

/-- A TCP segment of the client; no payload is `null` in the source. -/
structure Segment where
  seq : BitVec 32
  payload : Bytes
  syn : Bool := false
  ack : Bool := true
  fin : Bool := false
  rst : Bool := false
deriving DecidableEq, Repr

/-- The capacity of the queue of a session. -/
def queueCapacity : Nat := 8192

structure TcpSession where
  closed : Bool
  connected : Bool
  clientClosed : Bool
  myAck : BitVec 32
  queue : List Bytes
  /-- Every payload ever put into the queue. -/
  queued : List Bytes
  /-- Every number `sendAck` acknowledged. -/
  acks : List (BitVec 32)
deriving DecidableEq, Repr

/-- A session for a SYN with this number. -/
def TcpSession.new (initialSeq : BitVec 32) : TcpSession where
  closed := false
  connected := false
  clientClosed := false
  myAck := initialSeq + 1
  queue := []
  queued := []
  acks := []

def TcpSession.close (s : TcpSession) : TcpSession := { s with closed := true }

def TcpSession.sendAck (s : TcpSession) : TcpSession := { s with acks := s.acks ++ [s.myAck] }

/-- `queue.offer` succeeded. -/
def TcpSession.put (s : TcpSession) (payload : Bytes) : TcpSession :=
  { s with queue := s.queue ++ [payload], queued := s.queued ++ [payload] }

def TcpSession.handleFromTun (s : TcpSession) (g : Segment) : TcpSession :=
  if s.closed then s
  else if g.rst then s.close
  else if !s.connected then if g.fin then s.close else s
  else if g.fin then
    if g.seq = s.myAck then
      { { s with myAck := g.seq + 1 }.sendAck with clientClosed := true }
    else s.sendAck
  else if g.payload = [] then s
  else if g.seq = s.myAck then
    if s.queue.length < queueCapacity then
      { s.put g.payload with myAck := g.seq + BitVec.ofNat 32 g.payload.length }.sendAck
    else s
  else s.sendAck

/-- What `processIpv4` and `processIpv6` do with a segment whose session exists. -/
def TcpSession.arrive (s : TcpSession) (g : Segment) (stale blocked : Bool) : TcpSession :=
  if (g.syn && !g.ack) && !s.connected then if stale then s.close else s
  else if blocked then s.close
  else s.handleFromTun g

inductive Label
  /-- A segment that stands at `pos` of the client's stream; whether the session is older than a
  second, and whether its app is blocked. -/
  | arrive (pos : Nat) (g : Segment) (stale blocked : Bool)
  /-- `connected.set(true)`. -/
  | connect
  /-- `queue.poll()`. -/
  | poll
  | close

def TcpSession.step (s : TcpSession) : Label → Except String TcpSession
  | .arrive _ g stale blocked => .ok (s.arrive g stale blocked)
  | .connect => .ok { s with connected := true }
  | .poll =>
    match s.queue with
    | [] => .error "empty"
    | _ :: rest => .ok { s with queue := rest }
  | .close => .ok s.close

/-! ### The client -/

/-- A segment of a client that sends `stream` behind a SYN with the number `isn`: its payload is
the stream's at its position, and a FIN stands behind the last byte. -/
structure OfStream (stream : Bytes) (isn : BitVec 32) (pos : Nat) (g : Segment) : Prop where
  seq : g.seq = isn + BitVec.ofNat 32 (if g.syn then 0 else pos + 1)
  syn : g.syn = true → pos = 0
  payload : g.payload <+: stream.drop pos
  fin : g.fin = true → pos + g.payload.length = stream.length

/-- The positions behind the SYN that were acknowledged, the FIN among them. -/
def TcpSession.acked (s : TcpSession) : Nat :=
  s.queued.flatten.length + if s.clientClosed then 1 else 0

/-- The session takes segments. -/
def TcpSession.Taking (s : TcpSession) : Prop := s.closed = false ∧ s.connected = true

/-- The condition on a segment that has the number the session waits for: a FIN carries no
payload, and the segment is not older by a multiple of `2 ^ 32`. -/
def Expected (s : TcpSession) (pos : Nat) (g : Segment) : Prop :=
  s.Taking → g.seq = s.myAck →
    (g.fin = true → g.payload = []) ∧ g.syn = false ∧ pos = s.acked

/-- Every segment is the client's. -/
def FromClient (stream : Bytes) (isn : BitVec 32) : Label → Prop
  | .arrive pos g _ _ => OfStream stream isn pos g
  | _ => True

/-- Every segment is the client's and meets the condition. -/
def Proper (stream : Bytes) (isn : BitVec 32) (s : TcpSession) (l : Label) : Prop :=
  FromClient stream isn l ∧
    match l with
    | .arrive pos g _ _ => Expected s pos g
    | _ => True

end Aether.Tun
