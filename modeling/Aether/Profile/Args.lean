/-
What a profile becomes for the engine: `toArgs`, `toEnv`, and the checks that a text passes on its
way there.

A text setting is cut into entries, and an entry reaches the engine if a regular expression takes
all of it.
-/
import Aether.Profile.Codec

namespace Aether

namespace Vpn.TransportBackend

def usesWarp (b : TransportBackend) : Bool := b.torMode ≠ some .only

def usesTor (b : TransportBackend) : Bool := b.torMode.isSome

end Vpn.TransportBackend

namespace Profile

open Regex
open AiRedaction (Flavour literal oneOf isHex octetPattern intText)

/-! ### Patterns -/

section Patterns

variable (F : Flavour)

/-- `\d{1,5}`. -/
def portPattern : Regex Char := between 1 4 (.one F.digit)

/-- `[0-9A-Fa-f:]`. -/
def isBracketed (c : Char) : Bool := isHex c || c == ':'

/-- `DNS_ENTRY`. -/
def dnsEntry : Regex Char :=
  .seq
    (.alt (.seq (octetPattern F) (times 3 (.seq (literal ['.']) (octetPattern F))))
      (Regex.all [literal ['['], plus (.one isBracketed), literal [']']]))
    (opt (.seq (literal [':']) (portPattern F)))

/-- `[A-Za-z0-9_.:/*\-\[\]^$+?()|{}\\]`. -/
def isRuleChar (c : Char) : Bool :=
  c.isAlphanum || "_.:/*-[]^$+?()|\x7b\x7d\\".toList.contains c

/-- `RULE_ENTRY`. -/
def ruleEntry : Regex Char := between 1 199 (.one isRuleChar)

/-- `[^\s:@/]`. -/
def isCredentialChar (c : Char) : Bool := !(F.space c || c == ':' || c == '@' || c == '/')

/-- `[A-Za-z0-9._-]`. -/
def isHostChar (c : Char) : Bool := c.isAlphanum || c == '.' || c == '_' || c == '-'

/-- `(?:(?:socks5|http)://)?`. -/
def schemePattern : Regex Char :=
  opt (.seq (Regex.any [literal "socks5".toList, literal "http".toList]) (literal "://".toList))

/-- `(?:[^\s:@/]{1,64}(?::[^\s:@/]{0,64})?@)?`. -/
def credentialPattern : Regex Char :=
  opt (Regex.all [between 1 63 (.one (isCredentialChar F)),
    opt (.seq (literal [':']) (.upTo 64 (.one (isCredentialChar F)))), literal ['@']])

/-- `(?:\[[0-9A-Fa-f:]{2,45}]|[A-Za-z0-9._-]{1,253})`. -/
def hostPattern : Regex Char :=
  .alt (Regex.all [literal ['['], between 2 43 (.one isBracketed), literal [']']])
    (between 1 252 (.one isHostChar))

/-- `UPSTREAM_ENTRY`. -/
def upstreamEntry : Regex Char :=
  Regex.all [schemePattern, credentialPattern F, hostPattern, literal [':'], portPattern F]

/-- `[A-Za-z0-9_.=/+:,\-]`. -/
def isBridgeChar (c : Char) : Bool := c.isAlphanum || "_.=/+:,-".toList.contains c

/-- The transports that a bridge line may name. -/
def bridgeTransports : List Text :=
  ["obfs4".toList, "meek_lite".toList, "webtunnel".toList, "snowflake".toList,
    "scramblesuit".toList, "obfs3".toList]

/-- `BRIDGE_LINE`. -/
def bridgeLine : Regex Char :=
  Regex.all [Regex.any (bridgeTransports.map literal), plus (.one F.space),
    between 3 117 (.one fun c => !F.space c),
    opt (.seq (plus (.one F.space)) (times 40 (.one isHex))),
    many (.seq (plus (.one F.space)) (between 1 399 (.one isBridgeChar)))]

/-- `^\d{1,5}(-\d{1,5})?$`. -/
def rangePattern : Regex Char := .seq (portPattern F) (opt (.seq (literal ['-']) (portPattern F)))

/-- `^[A-Za-z0-9:_-]{1,64}$`. -/
def tlsGroupsPattern : Regex Char :=
  between 1 63 (.one fun c => c.isAlphanum || c == ':' || c == '_' || c == '-')

end Patterns

/-- The name of a level in the engine. -/
def CoreLogLevel.raw : CoreLogLevel → Text
  | .off => "off".toList
  | .error => "error".toList
  | .warn => "warn".toList
  | .info => "info".toList
  | .debug => "debug".toList

/-! ### Texts -/

/-- `length`, in units of UTF-16. -/
def utf16Length (t : Text) : Nat := (t.map fun c => if c.toNat < 0x10000 then 1 else 2).sum

/-- `split` at any of these characters. -/
def splitAny (separators : Text) (t : Text) : List Text := t.splitOnP separators.contains

/-- `split`, trimmed, checked, without repetitions, and cut to a number of entries. -/
def entries (separators : Text) (check : Text → Bool) (limit : Nat) (t : Text) : List Text :=
  (((splitAny separators t).map LanGuard.trim).filter fun e => e ≠ [] && check e).eraseDups.take
    limit

/-- `takeIf`. -/
def takeIf (check : Text → Bool) (t : Text) : Option Text := if check t then some t else none

def maxDnsServers : Nat := 8

def maxRouteRules : Nat := 256

def maxBridgeLines : Nat := 12

/-- `TOR_SOCKS_PORT`. -/
def torSocksPort : Nat := 1820

variable (P : Platform)

def sanitizedRules (raw : Text) : List Text :=
  entries [',', '\n'] (accepts ruleEntry) maxRouteRules raw

def sanitizedRange (raw : Text) : Option Text :=
  takeIf (accepts (rangePattern P.flavour)) (LanGuard.trim raw)

namespace ConnectionProfile

variable (p : ConnectionProfile)

def sanitizedDns : List Text :=
  entries [',', ' ', ';', '\n'] (accepts (dnsEntry P.flavour)) maxDnsServers p.dnsServers

def sanitizedUpstream : Option Text :=
  takeIf (fun t => 1 ≤ utf16Length t && utf16Length t ≤ 200 && accepts (upstreamEntry P.flavour) t)
    (LanGuard.trim p.upstreamProxy)

def sanitizedBridges : List Text :=
  entries ['\n', ';'] (accepts (bridgeLine P.flavour)) maxBridgeLines p.torBridgeLines

def sanitizedTlsGroups : Option Text :=
  takeIf (accepts tlsGroupsPattern) (LanGuard.trim p.tlsGroups)

def sanitizedTorCountry : Option Text :=
  takeIf (fun t => utf16Length t == 2 && t.all fun c => 'a' ≤ c && c ≤ 'z')
    (P.lowercase (LanGuard.trim p.torCountry))

/-- `rsplitPortOrNull`: a host, with a port if one is written. -/
def rsplitPortOrNull (raw : Text) : Option (Text × Option Int32) :=
  match Text.rsplitOnce ':' raw with
  | none => some (raw, none)
  | some (host, tail) =>
    match toIntOrNull P tail with
    -- the colons of an address
    | none => if 1 < raw.count ':' then some (raw, none) else none
    | some port => if 1 ≤ port && port ≤ 65535 then some (host, some port) else none

def sanitizedTorCheck : Option Text :=
  let raw := LanGuard.trim p.torCheck
  if raw = [] || raw.any Text.isJvmWhitespace then none
  else
    match rsplitPortOrNull P raw with
    | none => none
    | some (host, port) =>
      if host = [] || 253 < utf16Length host then none
      else if !host.all fun c => P.isLetterOrDigit c || c == '.' || c == '-' || c == ':' then none
      else
        match port with
        | none => some host
        | some port => some (host ++ ':' :: intText port.toInt)

def hasTeam : Bool := p.teamAuth ≠ .off && !Text.isBlank p.team

def hasManualPeer : Bool := p.endpointMode = .manualPeer && !Text.isBlank p.manualPeer

def effectiveProtocol : Protocol :=
  if p.backend.torMode = some .reverse then .masque else p.protocol

/-! ### Arguments -/

/-- `joinToString(",")` behind a flag, if there is anything to join. -/
def listArg (flag : String) (entries : List Text) : List Text :=
  if entries = [] then [] else [flag.toList, [','].intercalate entries]

/-- A value behind a flag, if there is one. -/
def optionArg (flag : String) : Option Text → List Text
  | none => []
  | some value => [flag.toList, value]

def flagIf (condition : Bool) (flag : String) : List Text := if condition then [flag.toList] else []

/-- `coerceIn`, as a text. -/
def coerceIn (lo hi n : Int32) : Text := intText (max lo (min n hi)).toInt

/-- `127.0.0.1:${TunnelConfig.TOR_SOCKS_PORT}`. -/
def torBind : List Text :=
  ["--tor-bind".toList, "127.0.0.1:".toList ++ Nat.toDigits 10 torSocksPort]

def torModeArgs : List Text :=
  match p.backend.torMode with
  | none => []
  | some .chain => "--tor".toList :: torBind
  | some .only => ["--tor-only".toList]
  | some .reverse => "--tor-reverse".toList :: torBind

def bridgeArgs : List Text :=
  if p.backend.usesTor && p.backend.torMode ≠ some .chain then
    (match p.torBridges with
      | .auto => []
      | .always => ["--tor-bridges".toList]
      | .off => ["--no-tor-bridges".toList]) ++
    (p.sanitizedBridges P).flatMap fun l => ["--tor-bridge".toList, l]
  else []

def protocolArgs : List Text :=
  match p.effectiveProtocol with
  | .auto => []
  | .masque => ["--masque".toList]
  | .wireguard => ["--wg".toList]
  | .gool => ["--gool".toList]
  | .mim => ["--mim".toList]

def scanArgs : List Text :=
  if p.hasManualPeer then []
  else
    match p.scanMode with
    | .turbo => ["--turbo".toList]
    | .balanced => ["--balanced".toList]
    | .thorough => ["--thorough".toList]
    | .stealth => ["--stealth".toList]
    | .ironclad => ["--ironclad".toList]

def ipArgs : List Text :=
  match p.ipVersion with
  | .v4 => ["-4".toList]
  | .v6 => ["-6".toList]
  | .both => ["--dual".toList]

/-- What only a tunnel needs. -/
def tunnelArgs : List Text :=
  p.protocolArgs ++ p.scanArgs ++ p.ipArgs ++
  [(if p.quickReconnect then "--quick-reconnect" else "--no-quick-reconnect").toList] ++
  (if p.noize ≠ .off then ["--noize".toList, P.lowercase (KotlinEnum.name p.noize)] else []) ++
  (if p.hasManualPeer then ["--peer".toList, LanGuard.trim p.manualPeer] else []) ++
  flagIf p.fragment "--fragment" ++
  (if p.ech then ["--ech".toList, "auto".toList] else []) ++
  (if 0 < p.keepalive then ["--keepalive".toList, intText p.keepalive.toInt] else []) ++
  listArg "--dns" (p.sanitizedDns P) ++
  (if p.hasTeam then "--team".toList :: LanGuard.trim p.team :: flagIf p.gateway "--gateway"
    else []) ++
  listArg "--route-block" (sanitizedRules p.routeBlock) ++
  listArg "--route-direct" (sanitizedRules p.routeDirect) ++
  (if p.fragment then
    optionArg "--fragment-size" (sanitizedRange P p.fragmentSize) ++
      optionArg "--fragment-delay" (sanitizedRange P p.fragmentDelay)
    else []) ++
  optionArg "--tls-groups" p.sanitizedTlsGroups ++
  (if 0 < p.validateSecs then ["--validate-secs".toList, coerceIn 1 3600 p.validateSecs]
    else []) ++
  (if 0 < p.reconnectSecs then ["--reconnect-secs".toList, coerceIn 1 600 p.reconnectSecs]
    else []) ++
  flagIf p.noProfileRetry "--no-profile-retry"

/-- The command line of the engine. -/
def toArgs : List Text :=
  p.torModeArgs ++ p.bridgeArgs P ++
    if p.backend.usesWarp then p.tunnelArgs P else listArg "--dns" (p.sanitizedDns P)

/-! ### Environment -/

/-- A variable, if there is a value for it. -/
def optionEnv (key : String) : Option Text → List (String × Text)
  | none => []
  | some value => [(key, value)]

/-- `takeIf { it.isNotEmpty() }` of the trimmed text. -/
def nonEmpty (t : Text) : Option Text := takeIf (· ≠ []) (LanGuard.trim t)

def cidrEnv : List (String × Text) :=
  let userRange := LanGuard.trim p.manualRange
  if p.endpointMode = .manualRange && !Text.isBlank userRange then
    [("AETHER_SCAN_CIDRS", userRange), ("AETHER_MASQUE_CIDRS", userRange),
      ("AETHER_WG_CIDRS", userRange)]
  else []

def teamEnv : List (String × Text) :=
  if p.hasTeam then
    match p.teamAuth with
    | .serviceToken =>
      optionEnv "AETHER_ACCESS_CLIENT_ID" (nonEmpty p.accessClientId) ++
        optionEnv "AETHER_ACCESS_CLIENT_SECRET" (nonEmpty p.accessClientSecret)
    | .email => optionEnv "AETHER_ACCESS_EMAIL" (nonEmpty p.accessEmail)
    | .token => optionEnv "AETHER_ACCESS_TOKEN" (nonEmpty p.accessToken)
    | .off => []
  else []

def torEnv : List (String × Text) :=
  if p.backend.usesTor then
    optionEnv "AETHER_TOR_CHECK" (p.sanitizedTorCheck P) ++
    (if p.backend.torMode ≠ some .chain then
      optionEnv "AETHER_TOR_COUNTRY" (p.sanitizedTorCountry P) ++
      (if 0 < p.torDirectSecs then [("AETHER_TOR_DIRECT_SECS", coerceIn 5 600 p.torDirectSecs)]
        else [])
      else []) ++
    (if p.coreLogLevel = .debug then [("AETHER_TOR_LOG", "debug".toList)] else [])
  else []

def tuningEnv : List (String × Text) :=
  (if p.noDataCheck then
    [("AETHER_MASQUE_NO_DATA_CHECK", ['1']), ("AETHER_WG_NO_DATA_CHECK", ['1'])] else []) ++
  (if 0 < p.validateSecs then [("AETHER_MASQUE_VALIDATE_SECS", coerceIn 1 3600 p.validateSecs)]
    else []) ++
  (if 0 < p.reconnectSecs then
    [("AETHER_MASQUE_RECONNECT_SECS", coerceIn 1 600 p.reconnectSecs),
      ("AETHER_WG_RECONNECT_SECS", coerceIn 1 600 p.reconnectSecs)] else []) ++
  (if p.noProfileRetry then [("AETHER_WG_NO_PROFILE_RETRY", ['1'])] else []) ++
  optionEnv "AETHER_TLS_GROUPS" p.sanitizedTlsGroups ++
  (if p.coreLogLevel ≠ .warn then [("AETHER_LOG_LEVEL", p.coreLogLevel.raw)] else [])

def endpointEnv : List (String × Text) :=
  let rtt := if p.chainedStage then "180".toList else "320".toList
  let handshake := if p.chainedStage then "900".toList else "1400".toList
  if p.fastEndpointOnly then
    [("AETHER_QUICK_RECONNECT_MAX_RTT_MS", rtt),
      ("AETHER_QUICK_RECONNECT_MAX_HANDSHAKE_MS", handshake), ("AETHER_SCAN_GOOD_RTT_MS", rtt)]
  else []

/-- The variables of the engine, in the order in which they are put. -/
def toEnv : List (String × Text) :=
  let httpUpstream := (p.sanitizedUpstream P).any ("http://".toList.isPrefixOf ·)
  [("AETHER_MASQUE_HTTP2",
    if p.masqueHttp2 || httpUpstream || p.backend.torMode = some .reverse then ['1'] else ['0'])] ++
  p.cidrEnv ++ p.teamEnv ++ p.tuningEnv ++ p.torEnv P ++
  (if p.routeSniff then [] else [("AETHER_ROUTE_SNIFF", ['0'])]) ++
  (if p.routeSniff && 0 < p.routeSniffMs then
    [("AETHER_ROUTE_SNIFF_MS", coerceIn 50 5000 p.routeSniffMs)] else []) ++
  (if p.autoReprovision then [] else [("AETHER_REPROVISION", ['0'])]) ++
  p.endpointEnv ++ optionEnv "AETHER_UPSTREAM" (p.sanitizedUpstream P)

end ConnectionProfile

end Profile

end Aether
