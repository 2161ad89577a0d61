/-
The connection ids of `PsiphonSocksFront.UdpgwSession`.

All UDP flows of the device share one stream to the server.  A frame on it carries the
connection id of its flow, and a reply is handed to the flow its id stands for.  `conids`
gives the id of a flow's key and `flows` the flow of an id; both are bounded, the first in
access order and the second in order of insertion.

Three kinds of threads touch them: those that send, those that close an association, and the
one that reads replies.  A step is one `synchronized` block or one operation on a map, so
the threads interleave between them.

What was allocated, sent and delivered is logged; no step looks at the log.
-/
import Aether.Lib.LinkedMap
import Aether.Lib.Machine
import Aether.Net.Addr

namespace Aether.Udpgw

open LinkedMap

def maxUdpgwFlows : Nat := 2048

/-- What a flow is known by: the client's port and the destination.  The source writes them
as a text, the port in front of a bar and the bytes of the destination as hex digits. -/
abbrev Key := Nat × Bytes

/-- `UdpgwFlow`: the association's socket, the client's port, and the destination that stands in
the header it echoes. -/
structure Flow where
  relay : Nat
  clientPort : Nat
  address : Bytes
deriving DecidableEq, Repr

def Flow.key (f : Flow) : Key := (f.clientPort, f.address)

/-! ### Allocation -/

/-- An id for a value of the counter: its low 16 bits, but not zero. -/
def candidate (n : Nat) : Nat := if n % 65536 = 0 then 1 else n % 65536

/-- The loop of `allocateConid`: the id and the counter after it. -/
def allocateFrom (flows : List (Nat × Flow)) : Nat → Nat → Nat × Nat
  | 0, n => (1, n)
  | turns + 1, n =>
    if containsKey flows (candidate n) then allocateFrom flows turns (n + 1)
    else (candidate n, n + 1)

def allocateConid (flows : List (Nat × Flow)) (counter : Nat) : Nat × Nat :=
  allocateFrom flows 65536 counter

/-! ### Threads -/

/-- A thread of an association: between the steps of `send`, or between the two blocks of
`releaseFlowsFor`. -/
inductive Thread
  | idle
  /-- About to set `flows[conid]`. -/
  | storing (conid : Nat) (flow : Flow)
  /-- About to hand the frame to the writer. -/
  | enqueueing (conid : Nat) (flow : Flow)
  | releasing
deriving DecidableEq, Repr

/-- The thread of `readLoop`. -/
inductive Reader
  | idle
  /-- The reply's id was looked up. -/
  | holding (conid : Nat) (flow : Flow)
  /-- The relay's socket has thrown. -/
  | dropping (conid : Nat)
deriving DecidableEq, Repr

inductive Event
  | allocated (conid : Nat) (key : Key)
  | sent (conid : Nat) (key : Key)
  | delivered (conid : Nat) (key : Key)
deriving DecidableEq, Repr

structure State where
  nextConid : Nat := 1
  flows : List (Nat × Flow) := []
  conids : List (Key × Nat) := []
  threads : Nat → Thread := fun _ => .idle
  reader : Reader := .idle
  log : List Event := []

namespace State

def setThread (s : State) (t : Nat) (thread : Thread) : State :=
  { s with threads := Function.update s.threads t thread }

/-- A new id for a key.  `conids` may have to drop its eldest key, and then drops the flow of
its id as well. -/
def allocate (s : State) (key : Key) : Nat × State :=
  let (conid, nextConid) := allocateConid s.flows s.nextConid
  let (eldest, conids) := put maxUdpgwFlows s.conids key conid
  let flows := match eldest with
    | some e => remove s.flows e.2
    | none => s.flows
  (conid, { s with nextConid, conids, flows, log := s.log ++ [.allocated conid key] })

/-- The `synchronized` block of `send`. -/
def conidOf (s : State) (key : Key) : Nat × State :=
  match get s.conids key with
  | some conid => (conid, { s with conids := touch s.conids key })
  | none => s.allocate key

/-- The first block of `releaseFlowsFor`. -/
def releaseFlows (s : State) (relay : Nat) : State :=
  { s with flows := s.flows.filter fun e => decide (e.2.relay ≠ relay) }

/-- The second one: the keys whose id has no flow are stale. -/
def releaseConids (s : State) : State :=
  { s with conids := s.conids.filter fun e => containsKey s.flows e.2 }

end State

inductive Blocked
  | blocked
deriving DecidableEq, Repr

inductive Label
  /-- A thread starts to send for a flow and finds its id. -/
  | assign (t : Nat) (flow : Flow)
  | store (t : Nat)
  /-- `enqueueFrame`, which refuses only when the session is dead or the frame too long. -/
  | enqueue (t : Nat) (accepted : Bool)
  | releaseFlows (t : Nat) (relay : Nat)
  | releaseConids (t : Nat)
  /-- A reply has been read: `flows[conid]`. -/
  | lookUp (conid : Nat)
  | deliver (fails : Bool)
  /-- `flows.remove(conid)` after a relay that failed. -/
  | drop
deriving DecidableEq, Repr

def step (s : State) : Label → Except Blocked State
  | .assign t flow =>
    match s.threads t with
    | .idle =>
      let (conid, s) := s.conidOf flow.key
      .ok (s.setThread t (.storing conid flow))
    | _ => .error .blocked
  | .store t =>
    match s.threads t with
    | .storing conid flow =>
      let s := { s with flows := (put maxUdpgwFlows s.flows conid flow).2 }
      .ok (s.setThread t (.enqueueing conid flow))
    | _ => .error .blocked
  | .enqueue t accepted =>
    match s.threads t with
    | .enqueueing conid flow =>
      let s := if accepted then { s with log := s.log ++ [.sent conid flow.key] } else s
      .ok (s.setThread t .idle)
    | _ => .error .blocked
  | .releaseFlows t relay =>
    match s.threads t with
    | .idle => .ok ((s.releaseFlows relay).setThread t .releasing)
    | _ => .error .blocked
  | .releaseConids t =>
    match s.threads t with
    | .releasing => .ok (s.releaseConids.setThread t .idle)
    | _ => .error .blocked
  | .lookUp conid =>
    match s.reader with
    | .idle =>
      match get s.flows conid with
      | some flow => .ok { s with reader := .holding conid flow }
      | none => .ok s
    | _ => .error .blocked
  | .deliver fails =>
    match s.reader with
    | .holding conid flow =>
      if fails then .ok { s with reader := .dropping conid }
      else .ok { s with reader := .idle, log := s.log ++ [.delivered conid flow.key] }
    | _ => .error .blocked
  | .drop =>
    match s.reader with
    | .dropping conid => .ok { s with reader := .idle, flows := remove s.flows conid }
    | _ => .error .blocked

end Aether.Udpgw
