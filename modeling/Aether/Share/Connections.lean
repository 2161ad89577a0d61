/-
The connections of `ShareBridge`: the accept loops, `admit`, the connection threads and the
counter `liveConnections`.

Every operation on the counter is a step, so `admit` reads it and increments it in two.  The
calls of `startSync` and `stop` are those of the sessions; `startSync` sets the counter inside
its block, after it closed the old listeners and before it binds the new ones, and the counter
is all that loops and threads share with it there.  A thread that decremented the counter still
has its socket to close.  Threads can be created.
-/
import Aether.Share.Access
import Aether.Share.Session

namespace Aether.Share

open Function

/-- Where the loop of a listener is. -/
inductive AcceptLoop
  | accepting
  /-- In `admit`, with a local address. -/
  | admitting
  /-- The counter was below the limit. -/
  | allowed
deriving DecidableEq, Repr

structure Connections where
  bridge : Bridge
  liveConnections : Int
  loops : Nat → AcceptLoop
  /-- Connections that were admitted and not taken off the counter. -/
  serving : Nat
  /-- Threads that decremented the counter and have not finished. -/
  finishing : Nat

def Connections.initial (upstreamPort : Nat) : Connections where
  bridge := .initial upstreamPort
  liveConnections := 0
  loops := fun _ => .accepting
  serving := 0
  finishing := 0

/-- A listener is up, so that `startSync` returns at once. -/
def Bridge.isUp (b : Bridge) : Bool :=
  b.active && (b.isOpen b.socksServer || b.isOpen b.httpServer)

/-- `startSync` where a port could not be bound. -/
def Bridge.startUnbound (b : Bridge) (localOnly : Bool) (upstreamPort : Option Nat)
    (minted : Text) : Bridge :=
  { { b with session := b.session + 1 }.closeServers with
    active := false
    upstreamPort := upstreamPort.getD b.upstreamPort
    localOnly
    proxyPassword := if !localOnly && Text.isBlank b.proxyPassword then minted
      else b.proxyPassword }

inductive ConnLabel
  | bridge (l : Label)
  | startUnbound (localOnly : Bool) (upstreamPort : Option Nat) (minted : Text)
  | accept (listener : Nat) (inetAddress : Option IpAddr)
  /-- `liveConnections.get()`. -/
  | get (listener : Nat)
  /-- `liveConnections.incrementAndGet()`. -/
  | increment (listener : Nat)
  /-- `liveConnections.decrementAndGet()`, by a thread. -/
  | decrement
  /-- The socket is closed, and the thread ends. -/
  | finish

def connStep (s : Connections) : ConnLabel → Except String Connections
  | .bridge l => do
    let bridge ← step s.bridge l
    -- new listeners: a new session, and not the early return
    let liveConnections := if bridge.bound = s.bridge.bound then s.liveConnections else 0
    .ok { s with bridge, liveConnections }
  | .startUnbound localOnly upstreamPort minted =>
    if s.bridge.isUp then .error "up"
    else
      let bridge := s.bridge.startUnbound localOnly upstreamPort minted
      .ok { s with bridge, liveConnections := 0 }
  | .accept listener inetAddress =>
    if listener < s.bridge.bound ∧ listener ∉ s.bridge.closed ∧
        s.loops listener = .accepting then
      if LanGuard.isLocalNetworkAddress inetAddress then
        .ok { s with loops := update s.loops listener .admitting }
      else .ok s
    else .error "no connection"
  | .get listener =>
    if s.loops listener = .admitting then
      .ok { s with
        loops := update s.loops listener
          (if s.liveConnections ≥ maxLiveConnections then .accepting else .allowed) }
    else .error "not there"
  | .increment listener =>
    if s.loops listener = .allowed then
      .ok { s with
        liveConnections := s.liveConnections + 1
        serving := s.serving + 1
        loops := update s.loops listener .accepting }
    else .error "not there"
  | .decrement =>
    if 0 < s.serving then
      .ok { s with
        liveConnections := s.liveConnections - 1
        serving := s.serving - 1
        finishing := s.finishing + 1 }
    else .error "no thread"
  | .finish =>
    if 0 < s.finishing then .ok { s with finishing := s.finishing - 1 } else .error "no thread"

/-- Connections that were admitted and whose thread has not finished. -/
def Connections.live (s : Connections) : Nat := s.serving + s.finishing

/-- No loop is inside `admit`, and no thread is finishing. -/
def Connections.Quiet (s : Connections) : Prop :=
  (∀ listener, s.loops listener = .accepting) ∧ s.finishing = 0

/-- A session begins over no connection, and the counter is read by a loop while no thread is
finishing and no other loop is about to increment it. -/
def Connections.Apart (s : Connections) : ConnLabel → Prop
  | .bridge (.startSync _ _ _) => s.bridge.isUp = true ∨ s.serving = 0
  | .startUnbound _ _ _ => s.serving = 0
  | .get _ => s.finishing = 0 ∧ ∀ other, s.loops other ≠ .allowed
  | _ => True

end Aether.Share
