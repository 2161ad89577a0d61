/-
`AiPatch`: what becomes of the changes that a language model asks for.

A change names a setting by a word.  Words outside `WRITABLE` are refused, every value is checked
before it is written, and a change that would change nothing is refused too.  How the platform
compares texts without regard to case is the parameter `equalsIgnoreCase`.
-/
import Aether.Profile.Args

namespace Aether.AiPatch

open Profile Regex
open AiRedaction (literal)

/-- One setting change the model asked for. -/
structure AiChange where
  key : Text
  value : Text
  why : Text := []
deriving DecidableEq, Repr

/-- The outcome of applying a set of changes. -/
structure AiPatchResult where
  profile : ConnectionProfile
  applied : List AiChange
  rejected : List (AiChange × Text)
deriving DecidableEq

def AiPatchResult.reject (result : AiPatchResult) (change : AiChange) (reason : Text) :
    AiPatchResult :=
  { result with rejected := result.rejected ++ [(change, reason)] }

/-! ### Settings -/

/-- The settings that `write` knows. -/
inductive Key
  | protocol | scanMode | ipVersion | noize | mtu | keepalive | fragment | fragmentSize
  | fragmentDelay | ech | masqueHttp2 | quickReconnect | fastEndpointOnly | endpointMode
  | exitRegion | dnsServers | routeSniff | routeSniffMs | tlsGroups | validateSecs
  | reconnectSecs | noDataCheck | noProfileRetry | smartReconnect | reconnectRetryLimit
  | ipv6LeakProtection | killSwitch | autoReprovision | coreLogLevel
deriving DecidableEq, Repr

/-- Their words. -/
def keyWords : List (String × Key) :=
  [("protocol", .protocol), ("scanMode", .scanMode), ("ipVersion", .ipVersion), ("noize", .noize),
    ("mtu", .mtu), ("keepalive", .keepalive), ("fragment", .fragment),
    ("fragmentSize", .fragmentSize), ("fragmentDelay", .fragmentDelay), ("ech", .ech),
    ("masqueHttp2", .masqueHttp2), ("quickReconnect", .quickReconnect),
    ("fastEndpointOnly", .fastEndpointOnly), ("endpointMode", .endpointMode),
    ("exitRegion", .exitRegion), ("dnsServers", .dnsServers), ("routeSniff", .routeSniff),
    ("routeSniffMs", .routeSniffMs), ("tlsGroups", .tlsGroups), ("validateSecs", .validateSecs),
    ("reconnectSecs", .reconnectSecs), ("noDataCheck", .noDataCheck),
    ("noProfileRetry", .noProfileRetry), ("smartReconnect", .smartReconnect),
    ("reconnectRetryLimit", .reconnectRetryLimit), ("ipv6LeakProtection", .ipv6LeakProtection),
    ("killSwitch", .killSwitch), ("autoReprovision", .autoReprovision),
    ("coreLogLevel", .coreLogLevel)]

/-- `WRITABLE`, by its keys. -/
def writable : List String :=
  ["protocol", "scanMode", "ipVersion", "noize", "mtu", "keepalive", "fragment", "fragmentSize",
    "fragmentDelay", "ech", "masqueHttp2", "quickReconnect", "fastEndpointOnly", "endpointMode",
    "exitRegion", "dnsServers", "routeSniff", "routeSniffMs", "tlsGroups", "validateSecs",
    "reconnectSecs", "noDataCheck", "noProfileRetry", "smartReconnect", "reconnectRetryLimit",
    "ipv6LeakProtection", "killSwitch", "autoReprovision", "coreLogLevel"]

/-! ### Values -/

section Values

variable (equalsIgnoreCase : Text → Text → Bool) (P : Platform)

def enumOf {E : Type} [KotlinEnum E] (raw : Text) : Option E :=
  KotlinEnum.entries.find? fun e => equalsIgnoreCase (KotlinEnum.name e) (LanGuard.trim raw)

def boolOf (raw : Text) : Option Bool :=
  let word := P.lowercase (LanGuard.trim raw)
  if ["true".toList, "on".toList, "yes".toList, "1".toList, "enable".toList,
      "enabled".toList].contains word then some true
  else if ["false".toList, "off".toList, "no".toList, "0".toList, "disable".toList,
      "disabled".toList].contains word then some false
  else none

/-- `toIntOrNull`, for the numbers that are allowed. -/
def intOf (allowed : Int32 → Bool) (raw : Text) : Option Int32 := (toIntOrNull P raw).filter allowed

def mtuPresets : List Int32 := [1280, 1380, 1420, 1500, 8500]

def keepalivePresets : List Int32 := [0, 10, 25, 45]

def reconnectLimits : List Int32 := [3, 5, 10, 15, 20]

/-- `it in 0..most`. -/
def upTo (most : Int32) (n : Int32) : Bool := 0 ≤ n && n ≤ most

/-- `RANGE`. -/
def range : Regex Char :=
  Regex.all [portPattern P.flavour, literal ['-'], portPattern P.flavour]

/-- `TLS_GROUPS`. -/
def tlsGroups : Regex Char :=
  many (.one fun c => c.isAlphanum || c == ':' || c == '_' || c == '-')

/-- `DNS_LIST`. -/
def dnsList : Regex Char :=
  plus (.one fun c => AiRedaction.isHex c || ".:,[]".toList.contains c || P.flavour.space c)

/-- `REGION`. -/
def region : Regex Char := times 2 (.one fun c => 'A' ≤ c && c ≤ 'Z')

/-- An empty text, or one that matches. -/
def emptyOr (pattern : Regex Char) (raw : Text) : Option Text :=
  takeIf (fun t => t = [] || accepts pattern t) raw

/-- Writes one key, or nothing when the value is not acceptable. -/
def write (p : ConnectionProfile) (key : Text) (raw : Text) : Option ConnectionProfile :=
  match keyWords.lookup (String.ofList key) with
  | some .protocol => (enumOf equalsIgnoreCase raw).map fun v => { p with protocol := v }
  | some .scanMode => (enumOf equalsIgnoreCase raw).map fun v => { p with scanMode := v }
  | some .ipVersion => (enumOf equalsIgnoreCase raw).map fun v => { p with ipVersion := v }
  | some .noize => (enumOf equalsIgnoreCase raw).map fun v => { p with noize := v }
  | some .coreLogLevel => (enumOf equalsIgnoreCase raw).map fun v => { p with coreLogLevel := v }
  | some .mtu => (intOf P mtuPresets.contains raw).map fun v => { p with mtu := v }
  | some .keepalive =>
    (intOf P keepalivePresets.contains raw).map fun v => { p with keepalive := v }
  | some .reconnectRetryLimit =>
    (intOf P reconnectLimits.contains raw).map fun v => { p with reconnectRetryLimit := v }
  | some .routeSniffMs => (intOf P (upTo 4000) raw).map fun v => { p with routeSniffMs := v }
  | some .validateSecs => (intOf P (upTo 3600) raw).map fun v => { p with validateSecs := v }
  | some .reconnectSecs => (intOf P (upTo 3600) raw).map fun v => { p with reconnectSecs := v }
  | some .fragment => (boolOf P raw).map fun v => { p with fragment := v }
  | some .ech => (boolOf P raw).map fun v => { p with ech := v }
  | some .masqueHttp2 => (boolOf P raw).map fun v => { p with masqueHttp2 := v }
  | some .quickReconnect => (boolOf P raw).map fun v => { p with quickReconnect := v }
  | some .fastEndpointOnly => (boolOf P raw).map fun v => { p with fastEndpointOnly := v }
  | some .routeSniff => (boolOf P raw).map fun v => { p with routeSniff := v }
  | some .noDataCheck => (boolOf P raw).map fun v => { p with noDataCheck := v }
  | some .noProfileRetry => (boolOf P raw).map fun v => { p with noProfileRetry := v }
  | some .smartReconnect => (boolOf P raw).map fun v => { p with smartReconnect := v }
  | some .ipv6LeakProtection => (boolOf P raw).map fun v => { p with ipv6LeakProtection := v }
  | some .killSwitch => (boolOf P raw).map fun v => { p with killSwitch := v }
  | some .autoReprovision => (boolOf P raw).map fun v => { p with autoReprovision := v }
  | some .fragmentSize => (emptyOr (range P) raw).map fun v => { p with fragmentSize := v }
  | some .fragmentDelay => (emptyOr (range P) raw).map fun v => { p with fragmentDelay := v }
  | some .tlsGroups =>
    (takeIf (fun t => utf16Length t ≤ 128 && accepts tlsGroups t) raw).map
      fun v => { p with tlsGroups := v }
  | some .dnsServers => (emptyOr (dnsList P) raw).map fun v => { p with dnsServers := v }
  | some .endpointMode =>
    (takeIf (equalsIgnoreCase · "AUTO".toList) raw).map fun _ => { p with endpointMode := .auto }
  | some .exitRegion => (emptyOr region (P.uppercase raw)).map fun v => { p with exitRegion := v }
  | none => none

/-! ### Changes -/

/-- One round of the loop of `apply`. -/
def applyOne (result : AiPatchResult) (change : AiChange) : AiPatchResult :=
  let key := LanGuard.trim change.key
  let raw := LanGuard.trim change.value
  if !writable.contains (String.ofList key) then
    result.reject change "not an AI-writable setting".toList
  else
    match write equalsIgnoreCase P result.profile key raw with
    | none =>
      result.reject change
        ("value \"".toList ++ raw ++ "\" is not valid for ".toList ++ key)
    | some updated =>
      if updated = result.profile then
        result.reject change "already set to that value".toList
      else { result with profile := updated, applied := result.applied ++ [change] }

/-- `apply`. -/
def apply (profile : ConnectionProfile) (changes : List AiChange) : AiPatchResult :=
  changes.foldl (applyOne equalsIgnoreCase P) ⟨profile, [], []⟩

end Values

end Aether.AiPatch
