/-
`ProfileCodec`: how a profile travels to the service inside an `Intent`.

A profile is written as `key=value` lines and read back from them.  Keys that are not known are
passed over, and a key that is missing leaves the default.
-/
import Aether.Lib.KeyedLines
import Aether.Profile.Model

namespace Aether.Profile

open KeyedLines

/-! ### Values -/

/-- `toString` of a `Boolean`. -/
def boolText (b : Bool) : Text := if b then "true".toList else "false".toList

def toBooleanStrictOrNull (t : Text) : Option Bool :=
  if t = "true".toList then some true
  else if t = "false".toList then some false
  else none

/-- `toBoolean`. -/
def toBoolean (t : Text) : Bool := Text.eqIgnoreAsciiCase t "true".toList

def toIntOrNull (P : Platform) (t : Text) : Option Int32 :=
  (AiRedaction.toIntOrNull P.flavour t).map Int32.ofInt

/-- `joinToString(",")`. -/
def joinApps (apps : List Text) : Text := [','].intercalate apps

/-- `split(",")`, trimmed and without what is empty. -/
def splitApps (t : Text) : List Text := ((t.splitOn ',').map LanGuard.trim).filter (· ≠ [])

/-! ### Writing -/

/-- The lines that `encode` writes, as pairs of a key and a value. -/
def settings (p : ConnectionProfile) : List (Text × Text) :=
    [("backend".toList, KotlinEnum.name p.backend),
    ("exitRegion".toList, p.exitRegion),
    ("protocol".toList, KotlinEnum.name p.protocol),
    ("scan".toList, KotlinEnum.name p.scanMode),
    ("ip".toList, KotlinEnum.name p.ipVersion),
    ("quick".toList, boolText p.quickReconnect),
    ("h2".toList, boolText p.masqueHttp2),
    ("share".toList, boolText p.lanShare),
    ("noize".toList, KotlinEnum.name p.noize),
    ("endpoint".toList, KotlinEnum.name p.endpointMode),
    ("peer".toList, p.manualPeer),
    ("range".toList, p.manualRange),
    ("keepalive".toList, AiRedaction.intText p.keepalive.toInt),
    ("fragment".toList, boolText p.fragment),
    ("ech".toList, boolText p.ech),
    ("mtu".toList, AiRedaction.intText p.mtu.toInt),
    ("proxy".toList, boolText p.proxyMode),
    ("split".toList, KotlinEnum.name p.splitMode),
    ("splitApps".toList, joinApps p.splitApps),
    ("kill".toList, boolText p.killSwitch),
    ("strictKill".toList, boolText p.strictKillSwitch),
    ("v6leak".toList, boolText p.ipv6LeakProtection),
    ("smartRe".toList, boolText p.smartReconnect),
    ("reLimit".toList, AiRedaction.intText p.reconnectRetryLimit.toInt),
    ("fSize".toList, p.fragmentSize),
    ("fDelay".toList, p.fragmentDelay),
    ("noDataCheck".toList, boolText p.noDataCheck),
    ("tlsGroups".toList, p.tlsGroups),
    ("valSecs".toList, AiRedaction.intText p.validateSecs.toInt),
    ("recSecs".toList, AiRedaction.intText p.reconnectSecs.toInt),
    ("noProfRetry".toList, boolText p.noProfileRetry),
    ("coreLog".toList, KotlinEnum.name p.coreLogLevel),
    ("blockedApps".toList, joinApps p.blockedApps),
    ("dns".toList, p.dnsServers),
    ("routeBlock".toList, p.routeBlock),
    ("routeDirect".toList, p.routeDirect),
    ("sniff".toList, boolText p.routeSniff),
    ("sniffMs".toList, AiRedaction.intText p.routeSniffMs.toInt),
    ("upstream".toList, p.upstreamProxy),
    ("reprovision".toList, boolText p.autoReprovision),
    ("fastEndpoint".toList, boolText p.fastEndpointOnly),
    ("teamAuth".toList, KotlinEnum.name p.teamAuth),
    ("team".toList, p.team),
    ("accessId".toList, p.accessClientId),
    ("accessEmail".toList, p.accessEmail),
    ("gateway".toList, boolText p.gateway)]

def encode (p : ConnectionProfile) : Text := joinLines ((settings p).map line)

/-! ### Reading -/

/-- The profile that values for the keys make. -/
def profileOf (P : Platform) (map : String → Option Text) : ConnectionProfile :=
  let d : ConnectionProfile := {}
  {
    backend := ((map "backend").bind (fromStoredName P)).getD d.backend
    exitRegion := (map "exitRegion").getD d.exitRegion
    protocol := ((map "protocol").bind enumOr).getD d.protocol
    scanMode := ((map "scan").bind enumOr).getD d.scanMode
    ipVersion := ((map "ip").bind enumOr).getD d.ipVersion
    quickReconnect := ((map "quick").bind toBooleanStrictOrNull).getD d.quickReconnect
    masqueHttp2 := ((map "h2").bind toBooleanStrictOrNull).getD d.masqueHttp2
    lanShare := ((map "share").bind toBooleanStrictOrNull).getD d.lanShare
    noize := ((map "noize").bind enumOr).getD d.noize
    endpointMode := ((map "endpoint").bind enumOr).getD d.endpointMode
    manualPeer := (map "peer").getD d.manualPeer
    manualRange := (map "range").getD d.manualRange
    keepalive := ((map "keepalive").bind (toIntOrNull P)).getD d.keepalive
    fragment := ((map "fragment").bind toBooleanStrictOrNull).getD d.fragment
    ech := ((map "ech").bind toBooleanStrictOrNull).getD d.ech
    mtu := ((map "mtu").bind (toIntOrNull P)).getD d.mtu
    proxyMode := ((map "proxy").bind toBooleanStrictOrNull).getD d.proxyMode
    splitMode := ((map "split").bind enumOr).getD d.splitMode
    splitApps := ((map "splitApps").map splitApps).getD d.splitApps
    killSwitch := ((map "kill").bind toBooleanStrictOrNull).getD d.killSwitch
    strictKillSwitch := ((map "strictKill").bind toBooleanStrictOrNull).getD d.strictKillSwitch
    ipv6LeakProtection := ((map "v6leak").bind toBooleanStrictOrNull).getD d.ipv6LeakProtection
    smartReconnect := ((map "smartRe").bind toBooleanStrictOrNull).getD d.smartReconnect
    reconnectRetryLimit := ((map "reLimit").bind (toIntOrNull P)).getD d.reconnectRetryLimit
    fragmentSize := (map "fSize").getD d.fragmentSize
    fragmentDelay := (map "fDelay").getD d.fragmentDelay
    noDataCheck := ((map "noDataCheck").bind toBooleanStrictOrNull).getD d.noDataCheck
    tlsGroups := (map "tlsGroups").getD d.tlsGroups
    validateSecs := ((map "valSecs").bind (toIntOrNull P)).getD d.validateSecs
    reconnectSecs := ((map "recSecs").bind (toIntOrNull P)).getD d.reconnectSecs
    noProfileRetry := ((map "noProfRetry").bind toBooleanStrictOrNull).getD d.noProfileRetry
    coreLogLevel := ((map "coreLog").bind enumOr).getD d.coreLogLevel
    blockedApps := ((map "blockedApps").map splitApps).getD d.blockedApps
    dnsServers := (map "dns").getD d.dnsServers
    routeBlock := (map "routeBlock").getD d.routeBlock
    routeDirect := (map "routeDirect").getD d.routeDirect
    routeSniff := ((map "sniff").bind toBooleanStrictOrNull).getD d.routeSniff
    routeSniffMs := ((map "sniffMs").bind (toIntOrNull P)).getD d.routeSniffMs
    upstreamProxy := (map "upstream").getD d.upstreamProxy
    autoReprovision := ((map "reprovision").bind toBooleanStrictOrNull).getD d.autoReprovision
    fastEndpointOnly := ((map "fastEndpoint").bind toBooleanStrictOrNull).getD d.fastEndpointOnly
    teamAuth := ((map "teamAuth").bind enumOr).getD d.teamAuth
    team := (map "team").getD d.team
    accessClientId := (map "accessId").getD d.accessClientId
    accessEmail := (map "accessEmail").getD d.accessEmail
    gateway := ((map "gateway").bind toBooleanStrictOrNull).getD d.gateway
  }

/-- The line of the first versions, without keys. -/
def decodeLegacy (raw : Text) : ConnectionProfile :=
  match raw.splitOn '|' with
  | protocol :: scanMode :: ipVersion :: quickReconnect :: masqueHttp2 :: rest =>
    match enumOr protocol, enumOr scanMode, enumOr ipVersion with
    | some protocol, some scanMode, some ipVersion =>
      { protocol := protocol
        scanMode := scanMode
        ipVersion := ipVersion
        quickReconnect := toBoolean quickReconnect
        masqueHttp2 := toBoolean masqueHttp2
        lanShare := (rest.head?.map toBoolean).getD false }
    -- `valueOf` has thrown
    | _, _, _ => {}
  | _ => {}

def decode (P : Platform) : Option Text → ConnectionProfile
  | none => {}
  | some raw =>
    if Text.isBlank raw then {}
    else if !raw.contains '=' && raw.contains '|' then decodeLegacy raw
    else profileOf P fun key => lookup key.toList (assignments raw)

end Aether.Profile
