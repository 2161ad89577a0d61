/-
`ConnectionProfile`, the settings of a session, with their defaults.

Texts are lists of characters, and an `Int` has 32 bits.  An enumeration of the source is stored by
the names of its entries.
-/
import Aether.Ai.Redaction
import Aether.Vpn.Service

namespace Aether.Profile

open Vpn (TransportBackend TorMode)

/-! ### Enumerations -/

/-- An `enum class`: its entries in order, and their names. -/
class KotlinEnum (E : Type) where
  entries : List E
  name : E → Text
  mem_entries : ∀ e, e ∈ entries
  name_injective : Function.Injective name
  /-- The names are identifiers. -/
  name_identifier : ∀ e, (name e).all (fun c => c.isAlphanum || c == '_') = true

/-- `enumOr`. -/
def enumOr {E : Type} [KotlinEnum E] (t : Text) : Option E :=
  KotlinEnum.entries.find? fun e => KotlinEnum.name e == t

inductive Protocol
  | auto | masque | wireguard | gool | mim
deriving DecidableEq, Repr

inductive TorBridges
  | auto | always | off
deriving DecidableEq, Repr

inductive ScanMode
  | turbo | balanced | thorough | stealth | ironclad
deriving DecidableEq, Repr

inductive IpVersion
  | v4 | v6 | both
deriving DecidableEq, Repr

inductive Noize
  | off | light | firewall | balanced | gfw | aggressive
deriving DecidableEq, Repr

inductive EndpointMode
  | auto | manualPeer | manualRange
deriving DecidableEq, Repr

inductive SplitMode
  | off | includeOnly | exclude
deriving DecidableEq, Repr

inductive TeamAuth
  | off | serviceToken | email | token
deriving DecidableEq, Repr

inductive CoreLogLevel
  | off | error | warn | info | debug
deriving DecidableEq, Repr

instance : KotlinEnum Protocol where
  entries := [.auto, .masque, .wireguard, .gool, .mim]
  name
    | .auto => "AUTO".toList
    | .masque => "MASQUE".toList
    | .wireguard => "WIREGUARD".toList
    | .gool => "GOOL".toList
    | .mim => "MIM".toList
  mem_entries e := by cases e <;> decide
  name_injective a b := by cases a <;> cases b <;> decide
  name_identifier e := by cases e <;> decide

instance : KotlinEnum ScanMode where
  entries := [.turbo, .balanced, .thorough, .stealth, .ironclad]
  name
    | .turbo => "TURBO".toList
    | .balanced => "BALANCED".toList
    | .thorough => "THOROUGH".toList
    | .stealth => "STEALTH".toList
    | .ironclad => "IRONCLAD".toList
  mem_entries e := by cases e <;> decide
  name_injective a b := by cases a <;> cases b <;> decide
  name_identifier e := by cases e <;> decide

instance : KotlinEnum IpVersion where
  entries := [.v4, .v6, .both]
  name
    | .v4 => "V4".toList
    | .v6 => "V6".toList
    | .both => "BOTH".toList
  mem_entries e := by cases e <;> decide
  name_injective a b := by cases a <;> cases b <;> decide
  name_identifier e := by cases e <;> decide

instance : KotlinEnum Noize where
  entries := [.off, .light, .firewall, .balanced, .gfw, .aggressive]
  name
    | .off => "OFF".toList
    | .light => "LIGHT".toList
    | .firewall => "FIREWALL".toList
    | .balanced => "BALANCED".toList
    | .gfw => "GFW".toList
    | .aggressive => "AGGRESSIVE".toList
  mem_entries e := by cases e <;> decide
  name_injective a b := by cases a <;> cases b <;> decide
  name_identifier e := by cases e <;> decide

instance : KotlinEnum EndpointMode where
  entries := [.auto, .manualPeer, .manualRange]
  name
    | .auto => "AUTO".toList
    | .manualPeer => "MANUAL_PEER".toList
    | .manualRange => "MANUAL_RANGE".toList
  mem_entries e := by cases e <;> decide
  name_injective a b := by cases a <;> cases b <;> decide
  name_identifier e := by cases e <;> decide

instance : KotlinEnum SplitMode where
  entries := [.off, .includeOnly, .exclude]
  name
    | .off => "OFF".toList
    | .includeOnly => "INCLUDE".toList
    | .exclude => "EXCLUDE".toList
  mem_entries e := by cases e <;> decide
  name_injective a b := by cases a <;> cases b <;> decide
  name_identifier e := by cases e <;> decide

instance : KotlinEnum TeamAuth where
  entries := [.off, .serviceToken, .email, .token]
  name
    | .off => "OFF".toList
    | .serviceToken => "SERVICE_TOKEN".toList
    | .email => "EMAIL".toList
    | .token => "TOKEN".toList
  mem_entries e := by cases e <;> decide
  name_injective a b := by cases a <;> cases b <;> decide
  name_identifier e := by cases e <;> decide

instance : KotlinEnum CoreLogLevel where
  entries := [.off, .error, .warn, .info, .debug]
  name
    | .off => "OFF".toList
    | .error => "ERROR".toList
    | .warn => "WARN".toList
    | .info => "INFO".toList
    | .debug => "DEBUG".toList
  mem_entries e := by cases e <;> decide
  name_injective a b := by cases a <;> cases b <;> decide
  name_identifier e := by cases e <;> decide

instance : KotlinEnum TransportBackend where
  entries := [.aether, .aetherPsiphon, .tor, .aetherTor, .torPsiphon, .torAether]
  name
    | .aether => "AETHER".toList
    | .aetherPsiphon => "AETHER_PSIPHON".toList
    | .tor => "TOR".toList
    | .aetherTor => "AETHER_TOR".toList
    | .torPsiphon => "TOR_PSIPHON".toList
    | .torAether => "TOR_AETHER".toList
  mem_entries e := by cases e <;> decide
  name_injective a b := by cases a <;> cases b <;> decide
  name_identifier e := by cases e <;> decide

/-! ### The platform -/

/-- What the platform brings along: its regular expressions and digits, and its letters beyond
ASCII. -/
structure Platform where
  flavour : AiRedaction.Flavour
  isLetterOrDigit : Char → Bool
  uppercase : Text → Text
  lowercase : Text → Text
  uppercase_ascii : ∀ t : Text, (∀ c ∈ t, c.toNat < 128) → uppercase t = t.map Char.toUpper
  lowercase_ascii : ∀ t : Text, (∀ c ∈ t, c.toNat < 128) → lowercase t = t.map Char.toLower

/-- A platform that knows ASCII only. -/
def Platform.ascii : Platform where
  flavour := .ascii
  isLetterOrDigit := Char.isAlphanum
  uppercase t := t.map Char.toUpper
  lowercase t := t.map Char.toLower
  uppercase_ascii _ _ := rfl
  lowercase_ascii _ _ := rfl

/-- `TransportBackend.fromStoredName`. -/
def fromStoredName (P : Platform) (raw : Text) : Option TransportBackend :=
  let name := P.uppercase (LanGuard.trim raw)
  if name = "PSIPHON".toList then some .aetherPsiphon else enumOr name

/-! ### Profiles -/

structure ConnectionProfile where
  backend : TransportBackend := .aether
  exitRegion : Text := []
  protocol : Protocol := .auto
  scanMode : ScanMode := .balanced
  ipVersion : IpVersion := .v4
  quickReconnect : Bool := true
  masqueHttp2 : Bool := false
  lanShare : Bool := false
  noize : Noize := .off
  endpointMode : EndpointMode := .auto
  manualPeer : Text := []
  manualRange : Text := []
  keepalive : Int32 := 0
  fragment : Bool := false
  ech : Bool := false
  mtu : Int32 := 1280
  proxyMode : Bool := false
  splitMode : SplitMode := .off
  splitApps : List Text := []
  dnsServers : Text := []
  team : Text := []
  teamAuth : TeamAuth := .off
  accessClientId : Text := []
  accessClientSecret : Text := []
  accessEmail : Text := []
  accessToken : Text := []
  gateway : Bool := false
  routeBlock : Text := []
  routeDirect : Text := []
  killSwitch : Bool := true
  strictKillSwitch : Bool := false
  ipv6LeakProtection : Bool := true
  smartReconnect : Bool := true
  reconnectRetryLimit : Int32 := 5
  fragmentSize : Text := []
  fragmentDelay : Text := []
  noDataCheck : Bool := false
  tlsGroups : Text := []
  validateSecs : Int32 := 0
  reconnectSecs : Int32 := 0
  noProfileRetry : Bool := false
  coreLogLevel : CoreLogLevel := .warn
  blockedApps : List Text := []
  upstreamProxy : Text := []
  routeSniff : Bool := true
  routeSniffMs : Int32 := 0
  autoReprovision : Bool := true
  fastEndpointOnly : Bool := true
  torBridges : TorBridges := .auto
  torBridgeLines : Text := []
  torCountry : Text := []
  torDirectSecs : Int32 := 0
  torCheck : Text := []
  /-- Set by the service for the first stage of a chained session. -/
  chainedStage : Bool := false
deriving DecidableEq

/-! ### Text fields -/

/-- The fields of a profile that hold a text. -/
inductive TextField
  | exitRegion | manualPeer | manualRange | dnsServers | team | accessClientId
  | accessClientSecret | accessEmail | accessToken | routeBlock | routeDirect
  | fragmentSize | fragmentDelay | tlsGroups | upstreamProxy | torBridgeLines
  | torCountry | torCheck
deriving DecidableEq, Repr

namespace TextField

def get : TextField → ConnectionProfile → Text
  | .exitRegion => (·.exitRegion)
  | .manualPeer => (·.manualPeer)
  | .manualRange => (·.manualRange)
  | .dnsServers => (·.dnsServers)
  | .team => (·.team)
  | .accessClientId => (·.accessClientId)
  | .accessClientSecret => (·.accessClientSecret)
  | .accessEmail => (·.accessEmail)
  | .accessToken => (·.accessToken)
  | .routeBlock => (·.routeBlock)
  | .routeDirect => (·.routeDirect)
  | .fragmentSize => (·.fragmentSize)
  | .fragmentDelay => (·.fragmentDelay)
  | .tlsGroups => (·.tlsGroups)
  | .upstreamProxy => (·.upstreamProxy)
  | .torBridgeLines => (·.torBridgeLines)
  | .torCountry => (·.torCountry)
  | .torCheck => (·.torCheck)

def set : TextField → Text → ConnectionProfile → ConnectionProfile
  | .exitRegion => fun t p => { p with exitRegion := t }
  | .manualPeer => fun t p => { p with manualPeer := t }
  | .manualRange => fun t p => { p with manualRange := t }
  | .dnsServers => fun t p => { p with dnsServers := t }
  | .team => fun t p => { p with team := t }
  | .accessClientId => fun t p => { p with accessClientId := t }
  | .accessClientSecret => fun t p => { p with accessClientSecret := t }
  | .accessEmail => fun t p => { p with accessEmail := t }
  | .accessToken => fun t p => { p with accessToken := t }
  | .routeBlock => fun t p => { p with routeBlock := t }
  | .routeDirect => fun t p => { p with routeDirect := t }
  | .fragmentSize => fun t p => { p with fragmentSize := t }
  | .fragmentDelay => fun t p => { p with fragmentDelay := t }
  | .tlsGroups => fun t p => { p with tlsGroups := t }
  | .upstreamProxy => fun t p => { p with upstreamProxy := t }
  | .torBridgeLines => fun t p => { p with torBridgeLines := t }
  | .torCountry => fun t p => { p with torCountry := t }
  | .torCheck => fun t p => { p with torCheck := t }

end TextField

end Aether.Profile
