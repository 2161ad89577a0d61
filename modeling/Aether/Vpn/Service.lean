/-
The session coroutine of `AetherVpnService`: `connectFlow` with its three drivers, the ladder of
attempts, the supervisors, the catch block of `startTunnel` and the kill-switch lockdown.

Nothing else acts on the service: no command, no `onRevoke` and no `onDestroy` arrives, so the
coroutine is not cancelled before it cancels itself.  A step goes from one point where the
coroutine waits for the world to the next one, and its label says what the world answered: whether
a process could be spawned, a port opened, an interface was established, a check was passed, and
who was found alive.  What is held is recorded as held or not.

A profile has the fields that decide where a session goes.  The candidates of a ladder are copies
of the profile in which these fields are the same.
-/
import Aether.Lib.Machine

namespace Aether.Vpn

/-! ### Profiles -/

inductive TransportBackend
  | aether
  | aetherPsiphon
  | tor
  | aetherTor
  | torPsiphon
  | torAether
deriving DecidableEq, Repr

inductive ExternalKind
  | psiphon
deriving DecidableEq, Repr

inductive TorMode
  | chain
  | only
  | reverse
deriving DecidableEq, Repr

namespace TransportBackend

def externalKind : TransportBackend → Option ExternalKind
  | .aether | .tor | .aetherTor | .torAether => none
  | .aetherPsiphon | .torPsiphon => some .psiphon

def torMode : TransportBackend → Option TorMode
  | .aether | .aetherPsiphon => none
  | .aetherTor => some .chain
  | .tor | .torPsiphon => some .only
  | .torAether => some .reverse

def usesExternal (b : TransportBackend) : Bool := b.externalKind.isSome

def needsTorFront (b : TransportBackend) : Bool :=
  !b.usesExternal && (b.torMode == some .chain || b.torMode == some .only)

def isChained (b : TransportBackend) : Bool := b.usesExternal

end TransportBackend

structure ConnectionProfile where
  backend : TransportBackend
  proxyMode : Bool
  lanShare : Bool
  /-- `blockedApps.isNotEmpty()`. -/
  blocksApps : Bool
  killSwitch : Bool
  strictKillSwitch : Bool
  smartReconnect : Bool
  reconnectRetryLimit : Int
deriving DecidableEq, Repr

def maxRetries (profile : ConnectionProfile) : Int :=
  if profile.smartReconnect then max 1 (min profile.reconnectRetryLimit 50) else 50

/-- `TRANSPORT_DEAD_CONFIRMATIONS`. -/
def transportDeadConfirmations : Nat := 5

/-- `PIPELINE_DEAD_CONFIRMATIONS`. -/
def pipelineDeadConfirmations : Nat := 2

/-- `WATCHDOG_FAIL_CYCLES`. -/
def watchdogFailCycles : Nat := 2

/-! ### The service -/

/-- Where the session coroutine is. -/
inductive Phase
  | launched
  /-- `runLadder`, with so many candidates to go. -/
  | ladder (stageOnly : Bool) (left : Nat)
  /-- `connectAttempt` has spawned the engine. -/
  | spawned (stageOnly : Bool) (left : Nat)
  /-- The port of the engine is open. -/
  | opened (stageOnly : Bool) (left : Nat)
  /-- The self-test of a plain session. -/
  | verifying (left : Nat)
  /-- The first stage is up. -/
  | staged
  /-- The second stage is up. -/
  | chained
  /-- The self-test of a session with two stages. -/
  | verifyingChain
  /-- `superviseEngine`. -/
  | supervising (attempt : Nat)
  /-- The loop of `connectExternal`. -/
  | watching (transportDead pipelineDead : Nat)
  /-- The catch block of `startTunnel`. -/
  | caught
  /-- `enterLockdown` has returned. -/
  | returning
  | ended
deriving DecidableEq, Repr

/-- The coroutine that `enterLockdown` starts. -/
inductive Lockdown
  | absent
  | launched
  | stopped
  | finished
deriving DecidableEq, Repr

structure Service where
  sharing : Bool
  tunBridge : Bool
  tunnelStarted : Bool
  externalTransport : Bool
  torFront : Bool
  engine : Bool
  tun : Bool
  lockdownTunActive : Bool
  probeFailures : Nat
  phase : Phase
  lockdown : Lockdown
  /-- The session has reached `Connected`. -/
  connected : Bool
  /-- The interface of the lockdown could not be established. -/
  refused : Bool
deriving DecidableEq, Repr

/-- A session was launched and does its first step; whatever the one before it left behind. -/
structure Service.Launched (s : Service) : Prop where
  phase : s.phase = .launched
  lockdown : s.lockdown = .absent
  connected : s.connected = false
  refused : s.refused = false

/-- A session that was launched on a service with nothing up. -/
def Service.initial : Service where
  sharing := false
  tunBridge := false
  tunnelStarted := false
  externalTransport := false
  torFront := false
  engine := false
  tun := false
  lockdownTunActive := false
  probeFailures := 0
  phase := .launched
  lockdown := .absent
  connected := false
  refused := false

namespace Service

def cleanupForwardingOnly (s : Service) : Service :=
  { s with
    sharing := false
    tunBridge := false
    tunnelStarted := false
    externalTransport := false
    torFront := false
    engine := false }

/-- The same, and the interface is closed. -/
def cleanupNativeOnly (s : Service) : Service := { s.cleanupForwardingOnly with tun := false }

/-- `tun` is closed and built anew as a blackhole. -/
def ensureLockdownTun (s : Service) (established : Bool) : Service :=
  { s with tun := established, refused := s.refused || !established }

/-- What bringing up the proxy or the interface met with: the proxy ports, the interface as it
was asked for first and as it was asked for again, and the forwarder. -/
structure BringUp where
  shareReady : Bool
  established : Bool
  establishedAgain : Bool
  forwarded : Bool
deriving DecidableEq, Repr

/-- `establishTun`: a chained session asks again with an IPv6 address. -/
def establishTun (s : Service) (profile : ConnectionProfile) (b : BringUp) : Option Service :=
  if b.established || (profile.backend.isChained && b.establishedAgain) then
    some { s with tun := true }
  else none

def startTun2Socks (s : Service) (profile : ConnectionProfile) : Service :=
  if profile.blocksApps then { s with tunBridge := true } else { s with tunnelStarted := true }

/-- The local proxy, or the interface and its forwarder; with it whether nothing was thrown. -/
def bringUp (s : Service) (profile : ConnectionProfile) (b : BringUp) : Service × Bool :=
  if profile.proxyMode then ({ s with sharing := b.shareReady }, b.shareReady)
  else
    match s.establishTun profile b with
    | none => (s, false)
    | some s =>
      if b.forwarded then
        let s := s.startTun2Socks profile
        ({ s with sharing := s.sharing || profile.lanShare }, true)
      else (s, false)

/-- An attempt has thrown: it is torn down, and the ladder goes on. -/
def nextRung (s : Service) (stageOnly : Bool) (left : Nat) : Service :=
  { s.cleanupNativeOnly with phase := .ladder stageOnly left }

/-- `enterLockdown` cancels the session and leaves the rest to a coroutine of its own. -/
def enterLockdown (s : Service) : Service :=
  { s with phase := .returning, lockdown := .launched }

end Service

/-! ### Steps -/

/-- What the end-to-end probe of a chained session is about to find. -/
inductive PipelineProbe
  | notDue
  /-- An exit is being changed. -/
  | settling
  | answered
  /-- No answer, but bytes have moved. -/
  | moving
  | nothing
deriving DecidableEq, Repr

inductive Label
  /-- `connectFlow` begins, with a plan of so many candidates. -/
  | connectFlow (plan : Nat)
  | attempt (spawned : Bool)
  | port (opened : Bool)
  /-- `runProxyStage`. -/
  | stage (ok : Bool)
  /-- The transport of a chained session has started, or the front of a Tor session. -/
  | second (started : Bool)
  | bringUp (b : Service.BringUp)
  | selfTest (healthy : Bool)
  /-- The engine was found alive; whether it still is after the wait, and what the watchdog
  finds. -/
  | watch (stillAlive moving answered : Bool)
  /-- The engine was found dead; what starting it again meets with. -/
  | restart (spawned opened healthy : Bool)
  | pipeline (engineAlive transportAlive : Bool) (probe : PipelineProbe)
  /-- The catch block cleans up. -/
  | cleanup
  /-- The session coroutine ends behind `enterLockdown`. -/
  | finish
  | lockdownStop
  | lockdownTun (established : Bool)
deriving DecidableEq, Repr

/-- The watchdog of `superviseEngine`. -/
def Service.watch (s : Service) (stillAlive moving answered : Bool) : Service :=
  if !stillAlive then s
  else if answered || moving then { s with probeFailures := 0 }
  else if s.probeFailures + 1 ≥ watchdogFailCycles then
    -- the engine is stopped
    { s with probeFailures := 0 }
  else { s with probeFailures := s.probeFailures + 1 }

/-- `superviseEngine` with a dead engine. -/
def Service.restart (s : Service) (profile : ConnectionProfile) (attempt : Nat)
    (spawned opened healthy : Bool) : Service :=
  if (attempt : Int) ≥ maxRetries profile then
    if profile.killSwitch || profile.strictKillSwitch then s.enterLockdown
    else { s with phase := .caught }
  else if !spawned then { s with phase := .caught }
  else
    { s with
      engine := true
      phase := .supervising (if opened && healthy then 0 else attempt + 1) }

/-- One round of the loop of `connectExternal`: the counters, or nothing if it is left. -/
def pipelineRound (transportDead pipelineDead : Nat) (engineAlive transportAlive : Bool)
    (probe : PipelineProbe) : Option (Nat × Nat) :=
  if !engineAlive then none
  else
    let transportDead := if transportAlive then 0 else transportDead + 1
    if transportDead ≥ transportDeadConfirmations then none
    else
      match probe with
      | .notDue => some (transportDead, pipelineDead)
      | .settling | .answered | .moving => some (transportDead, 0)
      | .nothing =>
        if pipelineDead + 1 ≥ pipelineDeadConfirmations then none
        else some (transportDead, pipelineDead + 1)

def step (profile : ConnectionProfile) (s : Service) (l : Label) : Except String Service :=
  match s.phase, l with
  | .launched, .connectFlow plan =>
    if profile.backend.usesExternal || profile.backend.needsTorFront then
      .ok { s.cleanupNativeOnly with phase := .ladder true plan }
    else .ok { s with phase := .ladder false plan }
  | .ladder _ 0, .attempt _ => .ok { s with phase := .caught }
  | .ladder stageOnly (left + 1), .attempt spawned =>
    let s := { s with lockdownTunActive := false }.cleanupNativeOnly
    if spawned then .ok { s with engine := true, phase := .spawned stageOnly left }
    else .ok (s.nextRung stageOnly left)
  | .spawned stageOnly left, .port opened =>
    if opened then .ok { s with phase := .opened stageOnly left }
    else .ok (s.nextRung stageOnly left)
  | .opened true left, .stage ok =>
    if ok then .ok { s with phase := .staged } else .ok (s.nextRung true left)
  | .opened false left, .bringUp b =>
    match s.bringUp profile b with
    | (s, true) => .ok { s with phase := .verifying left }
    | (s, false) => .ok (s.nextRung false left)
  | .verifying left, .selfTest healthy =>
    if healthy then .ok { s with connected := true, phase := .supervising 0 }
    else .ok (s.nextRung false left)
  | .staged, .second started =>
    let s := { s with externalTransport := s.externalTransport || profile.backend.usesExternal }
    if started then
      .ok { s with
        torFront := s.torFront || profile.backend.needsTorFront
        phase := .chained }
    else .ok { s with phase := .caught }
  | .chained, .bringUp b =>
    match s.bringUp profile b with
    | (s, true) => .ok { s with phase := .verifyingChain }
    | (s, false) => .ok { s with phase := .caught }
  | .verifyingChain, .selfTest healthy =>
    if healthy then
      .ok { s with
        connected := true
        phase := if profile.backend.usesExternal then .watching 0 0 else .supervising 0 }
    else .ok { s with phase := .caught }
  | .supervising _, .watch stillAlive moving answered =>
    .ok { s.watch stillAlive moving answered with phase := .supervising 0 }
  | .supervising attempt, .restart spawned opened healthy =>
    .ok (s.restart profile attempt spawned opened healthy)
  | .watching transportDead pipelineDead, .pipeline engineAlive transportAlive probe =>
    match pipelineRound transportDead pipelineDead engineAlive transportAlive probe with
    | some (transportDead, pipelineDead) =>
      .ok { s with phase := .watching transportDead pipelineDead }
    | none =>
      -- one of the stages is named in what is thrown
      .ok { s with phase := .caught }
  | .caught, .cleanup => .ok { s.cleanupNativeOnly with phase := .ended }
  | .returning, .finish => .ok { s with phase := .ended }
  | _, .lockdownStop =>
    if s.lockdown = .launched then .ok { s.cleanupForwardingOnly with lockdown := .stopped }
    else .error "no lockdown"
  | _, .lockdownTun established =>
    if s.lockdown = .stopped then
      .ok { s.ensureLockdownTun established with
        lockdownTunActive := true
        lockdown := .finished }
    else .error "no lockdown"
  | _, _ => .error "not there"

/-! ### The kill switch -/

/-- The session coroutine has ended, and its teardown has finished. -/
structure Service.Over (s : Service) : Prop where
  ended : s.phase = .ended
  teardown : s.lockdown = .absent ∨ s.lockdown = .finished

/-- A session that was connected and is over holds the interface, unless it could not be
established. -/
def Service.KillSwitchHolds (s : Service) : Prop :=
  s.connected = true → s.Over → s.tun = true ∨ s.refused = true

/-- A chained session keeps both its stages and carries something, and an engine that has to be
started again can be. -/
def Survives (profile : ConnectionProfile) (s : Service) : Label → Prop
  | .pipeline engineAlive transportAlive probe =>
    ∀ transportDead pipelineDead, s.phase = .watching transportDead pipelineDead →
      (pipelineRound transportDead pipelineDead engineAlive transportAlive probe).isSome
  | .restart spawned _ _ =>
    ∀ attempt : Nat, s.phase = .supervising attempt → (attempt : Int) < maxRetries profile →
      spawned = true
  | _ => True

/-! ### The supervisor and its engines -/

/-- The service in `superviseEngine`, whether the process of the engine lives, and how many
engines have been started. -/
structure Supervised where
  service : Service
  alive : Bool
  started : Nat
deriving DecidableEq, Repr

/-- How the supervisor finds the engine at the head of its loop. -/
def Label.finds : Label → Option Bool
  | .watch _ _ _ => some true
  | .restart _ _ _ => some false
  | _ => none

/-- The round leaves the process alone: the watchdog has not stopped it, and no self-test has. -/
def Service.spares (s : Service) : Label → Bool
  | .watch stillAlive moving answered =>
    stillAlive && (answered || moving || decide (s.probeFailures + 1 < watchdogFailCycles))
  | .restart spawned opened healthy => spawned && (!opened || healthy)
  | _ => false

def Service.starts (s : Service) (profile : ConnectionProfile) (l : Label) : Nat :=
  match s.phase, l with
  | .supervising attempt, .restart spawned _ _ =>
    if (attempt : Int) < maxRetries profile ∧ spawned = true then 1 else 0
  | _, _ => 0

/-- One round of `superviseEngine`, and whether the process lives when the next one begins. -/
def Supervised.round (profile : ConnectionProfile) (x : Supervised) (l : Label × Bool) :
    Except String Supervised := do
  if l.1.finds = some x.alive ∧ (l.2 = true → x.service.spares l.1 = true) then
    let service ← step profile x.service l.1
    .ok ⟨service, l.2, x.started + x.service.starts profile l.1⟩
  else .error "not so"

/-- No self-test and no probe is passed, and nothing moves. -/
def failing : Label × Bool → Bool
  | (.watch _ moving answered, _) => !(moving || answered)
  | (.restart _ opened healthy, _) => !(opened && healthy)
  | _ => false

/-- An engine is started and lives on without opening its port. -/
def portless : Label × Bool → Bool
  | (.restart spawned opened _, lives) => spawned && !opened && lives
  | _ => false

end Aether.Vpn
