/-
`PsiphonHealth.kt`: which exit servers filter, and when the session rotates off one.

The functions run under one lock, so an event is a step.  Of a notice the model takes what the four
expressions find in it.  The ids they find are not empty, and the empty id that stands for no
server is `none` here.  The calls of the rotation action are kept in `rotated`.
-/
import Aether.Net.Addr

namespace Aether.Psiphon

def windowMs : Int := 45000
def distinctTargetsTrigger : Nat := 6
def failureDeltaTrigger : Int := 60
def failureCorroboration : Nat := 3
def cooldownMs : Int := 60000
def repeatCooldownMs : Int := 12000
def settleMs : Int := 6000
def healthyMs : Int := 180000
def maxRotations : Nat := 4

inductive Rotation
  | reconnect
  | restart
deriving DecidableEq, Repr

/-- A `Target`: the server that is left, and its region. -/
structure Left where
  serverId : Option Text
  region : Text
deriving DecidableEq, Repr

/-- A call of the rotation action: when it was made, whether for a tunnel that landed on a known
server again (the `repeat` of the source), and its arguments. -/
structure Rotated where
  time : Int
  again : Bool
  strategy : Rotation
  left : Left
deriving DecidableEq, Repr

structure Health where
  /-- Whether `action` is set. -/
  bound : Bool
  activeServer : Option Text
  activeRegion : Text
  serverRegions : List (Text × Text)
  filtering : List Text
  filteringRegions : List Text
  rotations : Nat
  lastRotationAt : Int
  settleUntil : Int
  tunnelSince : Int
  /-- By host and port. -/
  refusedTargets : List ((Text × Nat) × Int)
  selfProbeTargets : List (Text × Nat)
  windowStartedAt : Int
  windowBaseFailures : Int
  rotated : List Rotated

/-- What the expressions find in a notice: the server and the region of a `ConnectedServer`, the
server of an `ActiveTunnel`, the server and the count of a port forward failure.  A count that is
no `Long` is `none`. -/
structure Notice where
  connectedServer : Option Text
  serverRegion : Option Text
  activeTunnel : Option Text
  portForwardFailures : Option (Text × Option Int)

inductive HealthEvent
  | bind
  | reset
  | registerSelfProbe (host : Text) (port : Nat)
  | refused (host : Text) (port : Nat) (now : Int)
  | notice (n : Notice) (now : Int)

/-- When it happens, for the events that read the clock. -/
def HealthEvent.now : HealthEvent → Option Int
  | .refused _ _ now => some now
  | .notice _ now => some now
  | _ => none

namespace Health

def initial : Health where
  bound := false
  activeServer := none
  activeRegion := []
  serverRegions := []
  filtering := []
  filteringRegions := []
  rotations := 0
  lastRotationAt := 0
  settleUntil := 0
  tunnelSince := 0
  refusedTargets := []
  selfProbeTargets := []
  windowStartedAt := 0
  windowBaseFailures := -1
  rotated := []

/-- The targets of the app's own probes stay. -/
def reset (h : Health) : Health := { initial with selfProbeTargets := h.selfProbeTargets }

def bind (h : Health) : Health := { h.reset with bound := true }

def adoptServer (h : Health) (serverId : Text) : Health :=
  let h' :=
    if h.activeServer ≠ some serverId then
      { h with refusedTargets := [], windowStartedAt := 0, windowBaseFailures := -1 }
    else h
  { h' with
    activeServer := some serverId
    activeRegion := (h.serverRegions.lookup serverId).getD [] }

def convict (h : Health) : Health :=
  match h.activeServer with
  | none => h
  | some server =>
    { h with
      filtering := server :: h.filtering
      filteringRegions :=
        ((h.serverRegions.lookup server).filter (· ≠ [])).toList ++ h.filteringRegions }

def openOrRollWindow (h : Health) (now : Int) : Health :=
  if h.windowStartedAt = 0 ∨ now - h.windowStartedAt > windowMs then
    { h with windowStartedAt := now, windowBaseFailures := -1, refusedTargets := [] }
  else
    { h with refusedTargets := h.refusedTargets.filter fun entry => now - entry.2 ≤ windowMs }

def refundIfHealthy (h : Health) (now : Int) : Health :=
  if h.rotations = 0 then h
  else if h.tunnelSince = 0 ∨ now - h.tunnelSince < healthyMs then h
  else if h.activeServer.any h.filtering.contains then h
  else { h with rotations := 0 }

/-- The rotation itself. -/
def rotate (h : Health) (now : Int) (again : Bool) : Health :=
  let attempt := h.rotations + 1
  let strategy := if attempt = 1 ∧ again = false then Rotation.reconnect else .restart
  { h with
    rotations := attempt
    lastRotationAt := now
    windowStartedAt := 0
    windowBaseFailures := -1
    refusedTargets := []
    settleUntil := now + settleMs
    rotated := h.rotated ++ [⟨now, again, strategy, ⟨h.activeServer, h.activeRegion⟩⟩] }

def cooldown (again : Bool) : Int := if again then repeatCooldownMs else cooldownMs

def maybeRotate (h : Health) (now : Int) (again : Bool) : Health :=
  if h.bound = false then h
  else
    let h := h.refundIfHealthy now
    if maxRotations ≤ h.rotations then h
    else if h.lastRotationAt ≠ 0 ∧ now - h.lastRotationAt < cooldown again then h
    else h.rotate now again

def onDestinationRefused (h : Health) (host : Text) (port : Nat) (now : Int) : Health :=
  if h.bound = false ∨ (host, port) ∈ h.selfProbeTargets ∨ now < h.settleUntil then h
  else
    let h := h.openOrRollWindow now
    let h := { h with refusedTargets :=
      ((host, port), now) :: h.refusedTargets.filter fun entry => entry.1 ≠ (host, port) }
    if distinctTargetsTrigger ≤ h.refusedTargets.length then h.convict.maybeRotate now false
    else h

def onTunnelEstablished (h : Health) (serverId : Text) (now : Int) : Health :=
  let known := h.filtering.contains serverId
  let h := { h.adoptServer serverId with settleUntil := now + settleMs, tunnelSince := now }
  if known then h.maybeRotate now true else h

/-- A notice with the failure counter of a server. -/
def onFailures (h : Health) (server : Text) (count now : Int) : Health :=
  let h := if h.activeServer = none then h.adoptServer server else h
  if h.activeServer ≠ some server ∨ now < h.settleUntil then h
  else
    let h := h.openOrRollWindow now
    let h := if h.windowBaseFailures < 0 then { h with windowBaseFailures := count } else h
    let delta := count - h.windowBaseFailures
    if delta < 0 then { h with windowBaseFailures := count }
    else if delta < failureDeltaTrigger ∨ h.refusedTargets.length < failureCorroboration then h
    else h.convict.maybeRotate now false

def onNotice (h : Health) (n : Notice) (now : Int) : Health :=
  let h :=
    match n.connectedServer, n.serverRegion with
    | some id, some region => { h with serverRegions := (id, region) :: h.serverRegions }
    | _, _ => h
  match n.activeTunnel with
  | some serverId => h.onTunnelEstablished serverId now
  | none =>
    if h.bound = false then h
    else
      match n.portForwardFailures with
      | some (server, some count) => h.onFailures server count now
      | _ => h

def step (h : Health) : HealthEvent → Health
  | .bind => h.bind
  | .reset => h.reset
  | .registerSelfProbe host port =>
    { h with selfProbeTargets := (host, port) :: h.selfProbeTargets }
  | .refused host port now => h.onDestinationRefused host port now
  | .notice n now => h.onNotice n now

end Health

end Aether.Psiphon
