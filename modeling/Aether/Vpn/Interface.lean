/-
The interface of a session: `buildTun` and the split-tunnel policy of `applyAppFilter`.

Android's `Builder` is a record.  It knows which packages are installed, and refuses others.
-/
import Aether.Profile.Model

namespace Aether.Vpn

open Profile (SplitMode)

/-- `VpnService.Builder`. -/
structure Builder where
  session : Text := []
  mtu : Int32 := 0
  addresses : List (Text × Nat) := []
  routes : List (Text × Nat) := []
  dnsServers : List Text := []
  blocking : Bool := false
  metered : Bool := true
  allowedApplications : List Text := []
  disallowedApplications : List Text := []
deriving DecidableEq

/-- The device: its packages, and the service's own one. -/
structure Device where
  installed : Text → Bool
  packageName : Text
  /-- `SDK_INT ≥ Q`. -/
  atLeastQ : Bool

namespace Builder

/-- `addAllowedApplication`, which throws for a package that is not installed. -/
def addAllowedApplication (d : Device) (b : Builder) (pkg : Text) : Option Builder :=
  if d.installed pkg then some { b with allowedApplications := b.allowedApplications ++ [pkg] }
  else none

/-- `addDisallowedApplication`, which throws for a package that is not installed. -/
def addDisallowedApplication (d : Device) (b : Builder) (pkg : Text) : Option Builder :=
  if d.installed pkg then
    some { b with disallowedApplications := b.disallowedApplications ++ [pkg] }
  else none

/-- The traffic of a package goes to the interface. -/
def captures (b : Builder) (pkg : Text) : Bool :=
  if b.allowedApplications = [] then !b.disallowedApplications.contains pkg
  else b.allowedApplications.contains pkg

end Builder

variable (d : Device)

def safeAllow (b : Builder) (pkg : Text) : Builder := (b.addAllowedApplication d pkg).getD b

def safeDisallow (b : Builder) (pkg : Text) : Builder := (b.addDisallowedApplication d pkg).getD b

/-- The applications that the user chose for the split. -/
def chosenApps (profile : Profile.ConnectionProfile) : List Text :=
  profile.splitApps.filter fun a => !Text.isBlank a && a ≠ d.packageName

def applyAppFilter (b : Builder) (profile : Profile.ConnectionProfile) : Builder :=
  let apps := chosenApps d profile
  match profile.splitMode with
  | .includeOnly =>
    if apps = [] then safeDisallow d b d.packageName else apps.foldl (safeAllow d) b
  | .exclude =>
    (apps.filter fun a => !profile.blockedApps.contains a).foldl (safeDisallow d)
      (safeDisallow d b d.packageName)
  | .off => safeDisallow d b d.packageName

def buildTun (profile : Profile.ConnectionProfile) (withoutIpv6Address : Bool) : Builder :=
  let b : Builder :=
    { session := "Aether".toList
      mtu := max 576 (min profile.mtu 9000)
      addresses := [("10.10.14.1".toList, 30)] ++
        (if withoutIpv6Address then [] else [("fc00::10:10:14:1".toList, 126)])
      routes := [("0.0.0.0".toList, 0)] ++
        (if profile.ipv6LeakProtection || profile.backend.isChained then [("::".toList, 0)]
          else [])
      blocking := profile.killSwitch || profile.strictKillSwitch
      dnsServers := ["1.1.1.1".toList, "8.8.8.8".toList] }
  let b := applyAppFilter d b profile
  if d.atLeastQ then { b with metered := false } else b

end Aether.Vpn
