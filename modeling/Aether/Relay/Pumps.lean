/-
The two Kotlin relays: `PsiphonSocksFront.relayThroughPsiphon` and `ShareBridge.relay` with
the two `finally` blocks of its callers.

Each relay has a thread for each direction.  A thread reads what its side has sent and
writes it to the other side until the stream ends or a call throws, and then performs
what is left for it to do.  The relays differ in that rest only, so it is a table.

A read or a write throws when this side has closed the socket.  Both ends of the relay keep
to what they promised: the client reads everything, and neither side breaks its stream off.
The threads, the client and the remote side take their steps in any order.
-/
import Aether.Lib.Machine
import Aether.Net.Addr

namespace Aether.Pumps

inductive Relay
  | psiphon
  | share
deriving DecidableEq, Repr

/-- Up is from the client to the remote side. -/
inductive Direction
  | up
  | down
deriving DecidableEq, Repr

/-- What a thread does after its pump has ended. -/
inductive Action
  | closeUpstream
  | closeClient
  /-- `to.shutdownOutput()`: nothing is written in this direction any more. -/
  | shutdownOutput
  /-- `from.shutdownInput()`: nothing is read in this direction any more. -/
  | shutdownInput
  /-- `reverse.join(1_000)`. -/
  | join
deriving DecidableEq, Repr

/-- The rest of each thread.  In the bridge the upload is pumped by the thread of the
connection, which closes the upstream socket where `relay` was called and the client where
the connection was accepted. -/
def finale : Relay → Direction → List Action
  | .psiphon, _ => [.closeUpstream, .closeClient]
  | .share, .up => [.shutdownOutput, .shutdownInput, .join, .closeUpstream, .closeClient]
  | .share, .down => [.shutdownOutput, .shutdownInput]

/-- The buffer of `pipe`. -/
def bufferSize : Relay → Nat
  | .psiphon => 32768
  | .share => 16384

/-- Where a thread is: about to read, about to write what it has read, or past its loop. -/
inductive Place
  | reading
  | writing (held : Bytes)
  | finishing (todo : List Action)
deriving DecidableEq, Repr

/-- One direction: all that its side has sent, what of it has not been read, whether it has
ended its stream, and what was written on the other side. -/
structure Channel where
  sent : Bytes := []
  pending : Bytes := []
  ended : Bool := false
  delivered : Bytes := []
  pump : Place := .reading
deriving DecidableEq, Repr

structure State where
  up : Channel := {}
  down : Channel := {}
  upstreamClosed : Bool := false
  clientClosed : Bool := false
deriving DecidableEq, Repr

namespace State

def channel (s : State) : Direction → Channel
  | .up => s.up
  | .down => s.down

def setChannel (s : State) (c : Channel) : Direction → State
  | .up => { s with up := c }
  | .down => { s with down := c }

/-- Whether the relay has closed the socket a direction reads from. -/
def sourceClosed (s : State) : Direction → Bool
  | .up => s.clientClosed
  | .down => s.upstreamClosed

def sinkClosed (s : State) : Direction → Bool
  | .up => s.upstreamClosed
  | .down => s.clientClosed

end State

/-- A step that is not there to be taken. -/
inductive Blocked
  | blocked
deriving DecidableEq, Repr

/-- The side of a direction sends, unless it has ended its stream. -/
def Channel.send (c : Channel) (bytes : Bytes) : Except Blocked Channel :=
  if c.ended then .error .blocked
  else .ok { c with sent := c.sent ++ bytes, pending := c.pending ++ bytes }

/-- One turn of `pipe`: a read of at most `n` bytes, or the write of what was read. -/
def Channel.turn (c : Channel) (size : Nat) (rest : List Action) (sourceClosed sinkClosed : Bool)
    (n : Nat) : Except Blocked Channel :=
  match c.pump with
  | .reading =>
    if sourceClosed then .ok { c with pump := .finishing rest }
    else if c.pending ≠ [] then
      if 0 < n ∧ n ≤ size then
        .ok { c with pump := .writing (c.pending.take n), pending := c.pending.drop n }
      else .error .blocked
    else if c.ended then .ok { c with pump := .finishing rest }
    else .error .blocked
  | .writing held =>
    if sinkClosed then .ok { c with pump := .finishing rest }
    else .ok { c with pump := .reading, delivered := c.delivered ++ held }
  | .finishing _ => .error .blocked

/-- What an action does to the sockets.  The thread that joins waits for the other one to
end, or for its second to pass. -/
def act (s : State) (timedOut : Bool) : Action → Except Blocked State
  | .closeUpstream => .ok { s with upstreamClosed := true }
  | .closeClient => .ok { s with clientClosed := true }
  -- the loop of this direction is over: nothing reads or writes there
  | .shutdownOutput => .ok s
  | .shutdownInput => .ok s
  | .join => if s.down.pump = .finishing [] ∨ timedOut then .ok s else .error .blocked

/-- A thread performs the next action of its rest. -/
def actNext (s : State) (d : Direction) (timedOut : Bool) : Except Blocked State :=
  match (s.channel d).pump with
  | .finishing (a :: todo) =>
    act (s.setChannel { s.channel d with pump := .finishing todo } d) timedOut a
  | _ => .error .blocked

inductive Label
  /-- The side of a direction sends. -/
  | send (d : Direction) (bytes : Bytes)
  /-- It ends its stream. -/
  | finish (d : Direction)
  /-- The thread of a direction takes a turn of its loop. -/
  | turn (d : Direction) (n : Nat)
  /-- It performs the next action of its rest. -/
  | act (d : Direction) (timedOut : Bool)
deriving DecidableEq, Repr

def step (relay : Relay) (s : State) : Label → Except Blocked State
  | .send d bytes => do
    let c ← (s.channel d).send bytes
    .ok (s.setChannel c d)
  | .finish d => .ok (s.setChannel { s.channel d with ended := true } d)
  | .turn d n => do
    let c ← (s.channel d).turn (bufferSize relay) (finale relay d) (s.sourceClosed d)
      (s.sinkClosed d) n
    .ok (s.setChannel c d)
  | .act d timedOut => actNext s d timedOut

end Aether.Pumps
