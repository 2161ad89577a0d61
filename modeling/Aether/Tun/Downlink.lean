/-
The downlink of the tun bridge: the sessions that read from the SOCKS side, the queue they
share, and the writer that empties it.

A thread's operation on the queue or on `mySeq` is one step, so a critical packet that meets a
full queue is offered, makes room and is offered again in three steps, and `mySeq` moves in a
step after the packet was handed over.  SYN-ACKs, acknowledgements, resets and datagrams are
told apart only by who enqueues them: they carry no sequence numbers of a session's data.
-/
import Aether.Lib.Machine
import Aether.Net.Addr
import Mathlib.Logic.Function.Basic

namespace Aether.Tun

open Function

/-- The capacity of `tunOutputQueue`. -/
def tunCapacity : Nat := 32768

inductive Packet
  | data (session : Nat) (seq : BitVec 32) (payload : Bytes)
  | fin (session : Nat) (seq : BitVec 32)
  | control
deriving DecidableEq, Repr

/-! ### `enqueueTun` -/

/-- The next operation of `enqueueTun` for a critical packet. -/
inductive Enqueue
  | offer
  | evict
  | reoffer
deriving DecidableEq, Repr

/-- `tunOutputQueue.offer`. -/
def offer (queue : List Packet) (p : Packet) : List Packet :=
  if queue.length < tunCapacity then queue ++ [p] else queue

/-- The queue after one operation, and the operation after it. -/
def enqueueTun (queue : List Packet) (p : Packet) : Enqueue → List Packet × Option Enqueue
  | .offer => if queue.length < tunCapacity then (queue ++ [p], none) else (queue, some .evict)
  | .evict => (queue.tail, some .reoffer)
  | .reoffer => (offer queue p, none)

/-! ### The sessions -/

/-- Where a session's threads are: `run` up to the SYN-ACK, then `readFromSocks`. -/
inductive Pc
  | none
  | synAck (next : Enqueue)
  | synAckSent
  /-- At the condition of the loop. -/
  | loop
  /-- In `ins.read`. -/
  | reading
  /-- A chunk of what was read is next. -/
  | sending (rest : Bytes)
  /-- A chunk was handed over, and `mySeq` is still to move. -/
  | sent (len : Nat) (rest : Bytes)
  | fin (next : Enqueue)
  | finSent
  | ended
deriving DecidableEq, Repr

structure Downstream where
  version : Nat
  isn : BitVec 32
  mySeq : BitVec 32
  closed : Bool
  pc : Pc
deriving DecidableEq, Repr

structure Downlink where
  queue : List Packet
  /-- The packets the writer took. -/
  taken : List Packet
  sessions : Nat → Downstream
  /-- The threads that enqueue critical packets that are not a session's data or FIN. -/
  others : Nat → Option Enqueue

def Downlink.initial : Downlink where
  queue := []
  taken := []
  sessions := fun _ => ⟨4, 0, 0, false, .none⟩
  others := fun _ => none

namespace Downlink

/-- `(mtu - 40).coerceAtLeast(20)`, or 60 for IPv6. -/
def maxPayload (mtu version : Nat) : Nat := max (mtu - if version = 4 then 40 else 60) 20

variable (mtu : Nat)

/-- The next operation of a session's thread, other than a read. -/
def advance (b : Downlink) (id : Nat) : Except String Downlink :=
  let s := b.sessions id
  let set (queue : List Packet) (s : Downstream) : Downlink :=
    { b with queue, sessions := update b.sessions id s }
  match s.pc with
  | .synAck next =>
    match enqueueTun b.queue .control next with
    | (queue, some next) => .ok (set queue { s with pc := .synAck next })
    | (queue, none) => .ok (set queue { s with pc := .synAckSent })
  | .synAckSent => .ok (set b.queue { s with mySeq := s.mySeq + 1, pc := .loop })
  | .loop => .ok (set b.queue { s with pc := if s.closed then .ended else .reading })
  | .sending rest =>
    let chunk := rest.take (maxPayload mtu s.version)
    .ok (set (offer b.queue (.data id s.mySeq chunk))
      { s with pc := .sent chunk.length (rest.drop (maxPayload mtu s.version)) })
  | .sent len rest =>
    .ok (set b.queue { s with
      mySeq := s.mySeq + BitVec.ofNat 32 len
      pc := if rest = [] then .loop else .sending rest })
  | .fin next =>
    match enqueueTun b.queue (.fin id s.mySeq) next with
    | (queue, some next) => .ok (set queue { s with pc := .fin next })
    | (queue, none) => .ok (set queue { s with pc := .finSent })
  | .finSent => .ok (set b.queue { s with mySeq := s.mySeq + 1, pc := .ended })
  | _ => .error "nothing to do"

inductive Label
  /-- A session is made with this random number, and its thread goes for the SYN-ACK. -/
  | create (id version : Nat) (isn : BitVec 32)
  | advance (id : Nat)
  /-- `ins.read`; nothing is the end of the stream. -/
  | read (id : Nat) (bytes : Bytes)
  | close (id : Nat)
  /-- The next operation of another thread's critical `enqueueTun`. -/
  | control (thread : Nat)
  /-- A datagram, not critical. -/
  | datagram
  /-- The writer takes a packet. -/
  | take

def step (b : Downlink) : Label → Except String Downlink
  | .create id version isn =>
    if (b.sessions id).pc = .none then
      .ok { b with
        sessions := update b.sessions id ⟨version, isn, isn, false, .synAck .offer⟩ }
    else .error "exists"
  | .advance id => b.advance mtu id
  | .read id bytes =>
    let s := b.sessions id
    if s.pc = .reading then
      .ok { b with
        sessions := update b.sessions id
          { s with pc := if bytes = [] then .fin .offer else .sending bytes } }
    else .error "not reading"
  | .close id =>
    let s := b.sessions id
    if s.pc = .none then .error "no session"
    else .ok { b with sessions := update b.sessions id { s with closed := true } }
  | .control thread =>
    let (queue, next) := enqueueTun b.queue .control ((b.others thread).getD .offer)
    .ok { b with queue, others := update b.others thread next }
  | .datagram => .ok { b with queue := offer b.queue .control }
  | .take =>
    match b.queue with
    | [] => .error "empty"
    | p :: rest => .ok { b with queue := rest, taken := b.taken ++ [p] }

end Downlink

/-! ### What the segments cover -/

/-- The first number and the length of what a packet carries of a session; a FIN has a number
of its own. -/
def Packet.covers (id : Nat) : Packet → Option (BitVec 32 × Nat)
  | .data session seq payload => if session = id then some (seq, payload.length) else none
  | .fin session seq => if session = id then some (seq, 1) else none
  | .control => none

/-- The ranges cover the numbers from one up to the other without gap or overlap. -/
def Covers (start : BitVec 32) : List (BitVec 32 × Nat) → BitVec 32 → Prop
  | [], stop => start = stop
  | (seq, len) :: rest, stop => seq = start ∧ Covers (start + BitVec.ofNat 32 len) rest stop

/-- What a session produced and the writer took or will take. -/
def Downlink.produced (b : Downlink) (id : Nat) : List (BitVec 32 × Nat) :=
  (b.taken ++ b.queue).filterMap (Packet.covers id)

/-- How far `mySeq` moves in the step that follows what was handed over, the SYN-ACK counting
as handed over from the start. -/
def Pc.pending : Pc → Nat
  | .none | .synAck _ | .synAckSent | .finSent => 1
  | .sent len _ => len
  | _ => 0

/-- The number behind what a session has handed over: `mySeq`, unless it is just moving. -/
def Downstream.reached (s : Downstream) : BitVec 32 := s.mySeq + BitVec.ofNat 32 s.pc.pending

/-! ### The condition -/

/-- The packet at the head is not part of what an open session sent. -/
def Downlink.Spare (b : Downlink) : Prop :=
  ∀ p ∈ b.queue.head?, ∀ id, (b.sessions id).closed = false → p.covers id = none

/-- A full queue does not meet a segment of an open session, and no such segment makes room for
a critical packet. -/
def Downlink.Roomy (b : Downlink) : Downlink.Label → Prop
  | .advance id =>
    match (b.sessions id).pc with
    | .synAck .evict | .fin .evict => b.Spare
    | .sending _ | .fin .reoffer =>
      (b.sessions id).closed = false → b.queue.length < tunCapacity
    | _ => True
  | .control thread => b.others thread = some .evict → b.Spare
  | _ => True

end Aether.Tun
