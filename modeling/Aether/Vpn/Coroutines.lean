/-
The coroutines of `AetherVpnService` side by side: sessions, teardowns, and the commands that launch
them.

A session goes through `startTunnel`, `connectFlow` and what these call; a teardown is what
`stopEverything` or `enterLockdown` launches.  Whatever does not suspend is done statement by
statement, and in between any other coroutine or a command may act.  Of a coroutine its place is
recorded, and of the service the fields that are shared: the engine, the interface, the flag of
the lockdown and the two jobs.  A session that was cancelled notices it where it suspends, and
whether a call suspends at all is up to the world, as is what the call returns.
-/
import Aether.Vpn.Service

namespace Aether.Vpn

namespace Coroutines

/-! ### Places -/

/-- The statements of a cleanup that concern the engine and the interface, in their order. -/
inductive Statement
  /-- `engine?.stop()`. -/
  | stopEngine
  /-- `engine = null`. -/
  | clearEngine
  /-- `tun?.close()`. -/
  | closeTun
  /-- `tun = null`. -/
  | clearTun
deriving DecidableEq, Repr

def Statement.next : Statement → Option Statement
  | .stopEngine => some .clearEngine
  | .clearEngine => some .closeTun
  | .closeTun => some .clearTun
  | .clearTun => none

/-- What a session does behind a cleanup. -/
inductive After
  /-- `startTunnel` waits for the session before and for its teardown. -/
  | join (run : Nat) (stop : Option Nat)
  /-- `connectExternal` and `connectTor` plan their attempts. -/
  | plan
  /-- `connectAttempt` waits for the port. -/
  | closing (left : Nat)
  /-- `runLadder` goes on with so many candidates. -/
  | rung (left : Nat)
  /-- The catch block of `startTunnel` ends. -/
  | finished
deriving DecidableEq, Repr

/-- Where a session is. -/
inductive Place
  /-- Launched, with the session and the teardown it found. -/
  | launched (run stop : Option Nat)
  | cleaning (now : Statement) (after : After)
  | joiningRun (run : Nat) (stop : Option Nat)
  | joiningStop (stop : Option Nat)
  /-- The attempts are planned, which may ask the network. -/
  | planning
  /-- The head of the loop of `runLadder`. -/
  | rung (left : Nat)
  /-- `lockdownTunActive = false`. -/
  | leavingLockdown (left : Nat)
  /-- `awaitClosed`. -/
  | closing (left : Nat)
  /-- The engine is started. -/
  | starting (left : Nat)
  /-- `awaitOpen`. -/
  | opening (left : Nat)
  /-- `runProxyStage`. -/
  | probing (left : Nat)
  /-- The local proxy, or `establishTun`. -/
  | raising (left : Nat)
  /-- `startTun2Socks`. -/
  | forwarding (left : Nat)
  /-- The self-test of a plain session. -/
  | verifying (left : Nat)
  /-- The second stage, or the front of a Tor session. -/
  | staging
  | raisingChain
  | forwardingChain
  /-- The self-test of a session with two stages. -/
  | verifyingChain
  /-- The loop of `connectExternal`. -/
  | watching
  /-- Behind this loop. -/
  | unwatched
  /-- The head of the loop of `superviseEngine`. -/
  | supervising (attempt : Nat)
  /-- `awaitExit` and the watchdog. -/
  | awaitingExit
  /-- `engine?.stop()` of the supervisor. -/
  | stopping (attempt : Nat)
  /-- `delay(backoff)`. -/
  | delaying (attempt : Nat)
  /-- The engine is started again. -/
  | restarting (attempt : Nat)
  | reopening (attempt : Nat)
  /-- The self-test behind a restart. -/
  | retesting (attempt : Nat)
  | finished
deriving DecidableEq, Repr

def After.place : After → Place
  | .join run stop => .joiningRun run stop
  | .plan => .planning
  | .closing left => .closing left
  | .rung left => .rung left
  | .finished => .finished

structure Session where
  profile : ConnectionProfile
  place : Place
  cancelled : Bool
deriving DecidableEq, Repr

/-- What a teardown does next. -/
inductive TeardownPlace
  | cleaning (now : Statement)
  /-- The interface of the lockdown is established. -/
  | establishing
  /-- `lockdownTunActive = true`. -/
  | activating
  /-- `job?.join()`. -/
  | joining
  | finished
deriving DecidableEq, Repr

structure Teardown where
  /-- It is that of a lockdown. -/
  lockdown : Bool
  place : TeardownPlace
  /-- The session that was cancelled. -/
  job : Option Nat
deriving DecidableEq, Repr

/-! ### The service -/

/-- `tun`: no descriptor, one of an open interface, or one of an interface that was closed. -/
inductive Tun
  | null | held | closed
deriving DecidableEq, Repr

/-- What the last command led to. -/
inductive LastCommand
  | none
  | connect
  /-- `stopEverything`, with the teardown it launched. -/
  | stop (teardown : Nat)
  | lockdown
deriving DecidableEq, Repr

structure State where
  engine : Option Nat := none
  /-- The engine processes that run. -/
  running : List Nat := []
  /-- How many were started. -/
  spawned : Nat := 0
  tun : Tun := .null
  lockdownTunActive : Bool := false
  runJob : Option Nat := none
  stopJob : Option Nat := none
  lastProfile : Option ConnectionProfile := none
  sessions : List Session := []
  teardowns : List Teardown := []
  last : LastCommand := .none
deriving DecidableEq, Repr

namespace State

def sessionFinished (s : State) (i : Nat) : Bool :=
  (s.sessions[i]?).any fun x => x.place = .finished

def teardownFinished (s : State) (j : Nat) : Bool :=
  (s.teardowns[j]?).any fun x => x.place = .finished

/-- `currentScopeActive()`. -/
def active (s : State) : Bool :=
  match s.runJob with
  | none => false
  | some i => (s.sessions[i]?).any fun x => !x.cancelled && x.place ≠ .finished

/-- `engine?.isAlive() == true`. -/
def alive (s : State) : Bool := s.engine.any s.running.contains

def cancel (s : State) (i : Nat) : State :=
  { s with sessions := s.sessions.modify i fun x => { x with cancelled := true } }

def exec (s : State) : Statement → State
  | .stopEngine => { s with running := s.running.filter fun e => s.engine ≠ some e }
  | .clearEngine => { s with engine := none }
  | .closeTun => { s with tun := if s.tun = .held then .closed else s.tun }
  | .clearTun => { s with tun := .null }

/-- The job of the session is taken, cancelled and torn down. -/
def launchTeardown (s : State) (lockdown : Bool) : State :=
  let t := match s.runJob with
    | none => s
    | some i => s.cancel i
  { t with
    runJob := none
    stopJob := some s.teardowns.length
    teardowns := s.teardowns ++ [⟨lockdown, .cleaning .stopEngine, s.runJob⟩] }

def stopEverything (s : State) : State := s.launchTeardown false

def enterLockdown (s : State) : State := s.launchTeardown true

def startTunnel (s : State) (profile : ConnectionProfile) : State :=
  { s with
    lastProfile := some profile
    runJob := some s.sessions.length
    sessions := s.sessions ++ [⟨profile, .launched s.runJob s.stopJob, false⟩] }

/-- The branch of `onStartCommand` for `ACTION_DISCONNECT`. -/
def disconnect (s : State) : State :=
  let stop := { s.stopEverything with last := .stop s.teardowns.length }
  if s.lockdownTunActive then stop
  else
    match s.lastProfile with
    | some last =>
      if last.strictKillSwitch then { s.enterLockdown with last := .lockdown } else stop
    | none => stop

end State

/-! ### Steps of a session -/

/-- What the world answers to a session. -/
inductive Answer
  | go
  /-- A call that can suspend: whether it did, and whether it went well. -/
  | await (suspended ok : Bool)
  /-- The attempts that are planned. -/
  | plan (suspended : Bool) (candidates : Nat)
  /-- A call that cannot suspend. -/
  | call (ok : Bool)
deriving DecidableEq, Repr

/-- What a session does to the service. -/
inductive Effect
  | none
  | exec (statement : Statement)
  | startEngine
  | establish
  | cancel (run : Nat)
  | leaveLockdown
  | enterLockdown
deriving DecidableEq, Repr

/-- A coroutine cannot go on, or is somewhere else. -/
inductive Stuck
  | waiting | elsewhere
deriving DecidableEq, Repr

/-- A session with a second stage or a front, whose attempts bring up the engine only. -/
def stageOnly (profile : ConnectionProfile) : Bool :=
  profile.backend.usesExternal || profile.backend.needsTorFront

/-- An attempt has thrown: it is torn down, and the ladder goes on. -/
def nextRung (left : Nat) : Place := .cleaning .stopEngine (.rung left)

/-- The catch block of `startTunnel`. -/
def caught : Place := .cleaning .stopEngine .finished

/-- `connectFlow`. -/
def connectFlow (profile : ConnectionProfile) : Place :=
  if stageOnly profile then .cleaning .stopEngine .plan else .planning

/-- A call that throws where it suspends if the session was cancelled. -/
def Session.awaited (x : Session) (suspended : Bool) (place : Place) : Effect × Place :=
  if suspended && x.cancelled then (.none, .finished) else (.none, place)

/-- The loop head of `superviseEngine`. -/
def Session.supervise (x : Session) (s : State) (attempt : Nat) : Effect × Place :=
  if !s.active then (.none, .finished)
  else if s.alive then (.none, .awaitingExit)
  else if (attempt : Int) ≥ maxRetries x.profile then
    if x.profile.killSwitch || x.profile.strictKillSwitch then (.enterLockdown, .finished)
    else (.none, caught)
  else (.none, .delaying (attempt + 1))

/-- One step of a session: its effect, and the place behind it. -/
def Session.act (x : Session) (s : State) (a : Answer) : Except Stuck (Effect × Place) :=
  match x.place, a with
  | .launched run stop, .go =>
    -- a coroutine that was cancelled before its first statement never runs
    if x.cancelled then .ok (.none, .finished)
    else
      match run with
      | some i => .ok (.cancel i, .cleaning .stopEngine (.join i stop))
      | none => .ok (.none, .joiningStop stop)
  | .cleaning now after, .go =>
    match now.next with
    | some next => .ok (.exec now, .cleaning next after)
    | none => .ok (.exec now, after.place)
  | .joiningRun i stop, .go =>
    if x.cancelled then .ok (.none, .finished)
    else if s.sessionFinished i then .ok (.none, .joiningStop stop)
    else .error .waiting
  | .joiningStop none, .go => .ok (.none, connectFlow x.profile)
  | .joiningStop (some j), .go =>
    if x.cancelled then .ok (.none, .finished)
    else if s.teardownFinished j then .ok (.none, connectFlow x.profile)
    else .error .waiting
  | .planning, .plan suspended candidates => .ok (x.awaited suspended (.rung candidates))
  | .rung 0, .go => .ok (.none, caught)
  | .rung (left + 1), .go =>
    -- `ensureActive`
    if x.cancelled then .ok (.none, .finished) else .ok (.none, .leavingLockdown left)
  | .leavingLockdown left, .go =>
    .ok (.leaveLockdown, .cleaning .stopEngine (.closing left))
  | .closing left, .await suspended _ => .ok (x.awaited suspended (.starting left))
  | .starting left, .call ok =>
    if ok then .ok (.startEngine, .opening left) else .ok (.none, nextRung left)
  | .opening left, .await suspended ok =>
    .ok (x.awaited suspended
      (if !ok then nextRung left
      else if stageOnly x.profile then .probing left else .raising left))
  | .probing left, .await suspended ok =>
    .ok (x.awaited suspended (if ok then .staging else nextRung left))
  | .raising left, .call ok =>
    if !ok then .ok (.none, nextRung left)
    else if x.profile.proxyMode then .ok (.none, .verifying left)
    else .ok (.establish, .forwarding left)
  | .forwarding left, .call ok =>
    if ok then .ok (.none, .verifying left) else .ok (.none, nextRung left)
  | .verifying left, .await suspended ok =>
    .ok (x.awaited suspended (if ok then .supervising 0 else nextRung left))
  | .staging, .await suspended ok =>
    .ok (x.awaited suspended (if ok then .raisingChain else caught))
  | .raisingChain, .call ok =>
    if !ok then .ok (.none, caught)
    else if x.profile.proxyMode then .ok (.none, .verifyingChain)
    else .ok (.establish, .forwardingChain)
  | .forwardingChain, .call ok =>
    if ok then .ok (.none, .verifyingChain) else .ok (.none, caught)
  | .verifyingChain, .await suspended ok =>
    -- `runCatching` takes a cancellation for a failed test
    if !ok || (suspended && x.cancelled) then .ok (.none, caught)
    else if x.profile.backend.usesExternal then .ok (.none, .watching)
    else .ok (.none, .supervising 0)
  | .watching, .await suspended ok =>
    if !(s.active && s.alive) then .ok (.none, .unwatched)
    else if ok then
      -- `delay` always suspends
      .ok (x.awaited true .watching)
    else .ok (x.awaited suspended .unwatched)
  | .unwatched, .go => if s.active then .ok (.none, caught) else .ok (.none, .finished)
  | .supervising attempt, .go => .ok (x.supervise s attempt)
  | .awaitingExit, .await suspended ok =>
    -- `awaitExit` swallows a cancellation, the probe of the watchdog does not
    .ok (x.awaited suspended (if ok then .supervising 0 else .stopping 0))
  | .stopping attempt, .go => .ok (.exec .stopEngine, .supervising attempt)
  | .delaying attempt, .await _ _ => .ok (x.awaited true (.restarting attempt))
  | .restarting attempt, .call ok =>
    if ok then .ok (.startEngine, .reopening attempt) else .ok (.none, caught)
  | .reopening attempt, .await suspended ok =>
    .ok (x.awaited suspended (if ok then .retesting attempt else .supervising attempt))
  | .retesting attempt, .await suspended ok =>
    if !ok || (suspended && x.cancelled) then .ok (.none, .stopping attempt)
    else .ok (.none, .supervising 0)
  | _, _ => .error .elsewhere

def State.apply (s : State) : Effect → State
  | .none => s
  | .exec statement => s.exec statement
  | .startEngine =>
    { s with engine := some s.spawned, running := s.running ++ [s.spawned],
             spawned := s.spawned + 1 }
  | .establish => { s with tun := .held }
  | .cancel i => s.cancel i
  | .leaveLockdown => { s with lockdownTunActive := false }
  | .enterLockdown => s.enterLockdown

/-! ### Steps of a teardown -/

/-- One step of a teardown, `established` being whether the interface of a lockdown could be: the
service behind it, and the place. -/
def Teardown.act (x : Teardown) (s : State) (established : Bool) :
    Except Stuck (State × TeardownPlace) :=
  match x.place with
  | .cleaning now =>
    match now.next with
    | some next => .ok (s.exec now, .cleaning next)
    | none => .ok (s.exec now, if x.lockdown then .establishing else .joining)
  | .establishing => .ok ({ s with tun := if established then .held else .null }, .activating)
  | .activating => .ok ({ s with lockdownTunActive := true }, .joining)
  | .joining =>
    if x.job.all s.sessionFinished then .ok (s, .finished) else .error .waiting
  | .finished => .error .elsewhere

/-! ### Runs -/

inductive Label
  | connect (profile : ConnectionProfile)
  | disconnect
  | session (i : Nat) (a : Answer)
  | teardown (j : Nat) (established : Bool)
  /-- An engine exits by itself. -/
  | engineExits (e : Nat)
deriving DecidableEq, Repr

/-- A session goes to a place. -/
def State.move (s : State) (i : Nat) (place : Place) : State :=
  { s with sessions := s.sessions.modify i fun x => { x with place := place } }

/-- A teardown goes to a place. -/
def State.moveTeardown (s : State) (j : Nat) (place : TeardownPlace) : State :=
  { s with teardowns := s.teardowns.modify j fun x => { x with place := place } }

def State.stepSession (s : State) (i : Nat) (a : Answer) : Except Stuck State :=
  match s.sessions[i]? with
  | none => .error .elsewhere
  | some x => (x.act s a).map fun next => (s.apply next.1).move i next.2

def State.stepTeardown (s : State) (j : Nat) (established : Bool) : Except Stuck State :=
  match s.teardowns[j]? with
  | none => .error .elsewhere
  | some x => (x.act s established).map fun next => next.1.moveTeardown j next.2

def step (s : State) : Label → Except Stuck State
  | .connect profile => .ok { s.startTunnel profile with last := .connect }
  | .disconnect => .ok s.disconnect
  | .session i a => s.stepSession i a
  | .teardown j established => s.stepTeardown j established
  | .engineExits e => .ok { s with running := s.running.filter (· ≠ e) }

/-- All coroutines have finished. -/
structure State.Quiet (s : State) : Prop where
  sessions : ∀ x ∈ s.sessions, x.place = .finished
  teardowns : ∀ x ∈ s.teardowns, x.place = .finished

/-- Whatever a disconnect stopped has stopped. -/
def State.StopHolds (s : State) : Prop :=
  ∀ j, s.last = .stop j → s.Quiet → s.running = [] ∧ s.tun = .null

end Coroutines

end Aether.Vpn
