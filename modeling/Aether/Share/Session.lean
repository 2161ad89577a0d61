/-
The sessions of `ShareBridge`: `startSync`, `stop` and the threads `stop` leaves behind.

A synchronized block is one step and every other statement a step of its own, so the calls of
different threads interleave at these points.  `startSync` is one block.  `stop` clears the
flag, takes a number in a block, and starts a thread that closes the listeners in another
block if the number is still the last one.  Binding succeeds.

Listeners are numbered in the order in which they are bound.  What a `stop` closed, and which
listeners were bound before it began, is kept for the statements.
-/
import Aether.Lib.Machine
import Aether.Lib.Text
import Aether.Net.Addr
import Mathlib.Logic.Function.Basic

namespace Aether.Share

open Function

def socksSharePort : Nat := 10810
def httpSharePort : Nat := 10811

/-- Where a call of `stop` is, with the number of listeners bound before its flag write and the
session number it took. -/
inductive StopCall
  | idle
  | flagged (before : Nat)
  | numbered (before : Nat) (stopSession : BitVec 32)
  /-- Its thread was started and has not run yet. -/
  | closing (before : Nat) (stopSession : BitVec 32)
  | finished
deriving DecidableEq, Repr

/-- A listener that a `stop` closed. -/
structure Closed where
  before : Nat
  listener : Nat
deriving DecidableEq, Repr

structure Bridge where
  active : Bool
  session : BitVec 32
  socksServer : Option Nat
  httpServer : Option Nat
  socksPort : Option Nat
  httpPort : Option Nat
  upstreamPort : Nat
  localOnly : Bool
  proxyPassword : Text
  /-- Listeners that were bound. -/
  bound : Nat
  /-- Listeners that were closed. -/
  closed : List Nat
  stops : Nat → StopCall
  stopped : List Closed

/-- The state of the object when the class is loaded. -/
def Bridge.initial (upstreamPort : Nat) : Bridge where
  active := false
  session := 0
  socksServer := none
  httpServer := none
  socksPort := none
  httpPort := none
  upstreamPort := upstreamPort
  localOnly := true
  proxyPassword := []
  bound := 0
  closed := []
  stops := fun _ => .idle
  stopped := []

/-- `isClosed == false`. -/
def Bridge.isOpen (b : Bridge) (server : Option Nat) : Bool :=
  server.any (fun listener => !b.closed.contains listener)

/-- The listeners `closeServers` closes. -/
def Bridge.servers (b : Bridge) : List Nat := b.socksServer.toList ++ b.httpServer.toList

def Bridge.closeServers (b : Bridge) : Bridge :=
  { b with
    closed := b.closed ++ b.servers
    socksServer := none
    httpServer := none
    socksPort := none
    httpPort := none }

/-- The fixed ports are bound. -/
def Bridge.bind (b : Bridge) : Bridge :=
  { b with
    socksServer := some b.bound
    httpServer := some (b.bound + 1)
    socksPort := some socksSharePort
    httpPort := some httpSharePort
    bound := b.bound + 2
    active := true }

/-- `startSync`, with the password it mints if there is none. -/
def Bridge.startSync (b : Bridge) (localOnly : Bool) (upstreamPort : Option Nat)
    (minted : Text) : Bridge :=
  let b := { b with upstreamPort := upstreamPort.getD b.upstreamPort }
  if b.active && (b.isOpen b.socksServer || b.isOpen b.httpServer) then b
  else
    let b := { b with session := b.session + 1 }.closeServers
    let b := { b with
      localOnly
      proxyPassword := if !localOnly && Text.isBlank b.proxyPassword then minted
        else b.proxyPassword }
    b.bind

inductive Label
  | startSync (localOnly : Bool) (upstreamPort : Option Nat) (minted : Text)
  /-- `_active.value = false`. -/
  | flag (call : Nat)
  /-- `synchronized(this) { ++session }`. -/
  | number (call : Nat)
  /-- The thread is started, and `stop` returns. -/
  | spawn (call : Nat)
  /-- What the thread does. -/
  | close (call : Nat)

/-- The block of the thread. -/
def Bridge.closeStale (b : Bridge) (before : Nat) (stopSession : BitVec 32) : Bridge :=
  if b.session = stopSession then
    { b.closeServers with stopped := b.stopped ++ b.servers.map (Closed.mk before) }
  else b

def step (b : Bridge) : Label → Except String Bridge
  | .startSync localOnly upstreamPort minted => .ok (b.startSync localOnly upstreamPort minted)
  | .flag call =>
    match b.stops call with
    | .idle =>
      .ok { b with active := false, stops := update b.stops call (.flagged b.bound) }
    | _ => .error "begun"
  | .number call =>
    match b.stops call with
    | .flagged before =>
      .ok { b with
        session := b.session + 1
        stops := update b.stops call (.numbered before (b.session + 1)) }
    | _ => .error "not there"
  | .spawn call =>
    match b.stops call with
    | .numbered before stopSession =>
      .ok { b with stops := update b.stops call (.closing before stopSession) }
    | _ => .error "not there"
  | .close call =>
    match b.stops call with
    | .closing before stopSession =>
      .ok { b.closeStale before stopSession with
        stops := update b.stops call .finished }
    | _ => .error "not there"

/-- All calls and threads have finished. -/
def Bridge.Quiet (b : Bridge) : Prop := ∀ call, b.stops call = .idle ∨ b.stops call = .finished

def Bridge.BothOpen (b : Bridge) : Prop :=
  b.isOpen b.socksServer = true ∧ b.isOpen b.httpServer = true

/-- The session number a `stop` that is not over holds. -/
def StopCall.holds : StopCall → Option (BitVec 32)
  | .numbered _ stopSession | .closing _ stopSession => some stopSession
  | _ => none

/-- No session starts between the flag write of a `stop` and its number, and the numbers do not
come round to one that a thread still waits with. -/
def Orderly (b : Bridge) : Label → Prop
  | .startSync _ _ _ =>
    (∀ call before, b.stops call ≠ .flagged before) ∧
      ∀ call, (b.stops call).holds ≠ some (b.session + 1)
  | .number _ => ∀ call, (b.stops call).holds ≠ some (b.session + 1)
  | _ => True

end Aether.Share
