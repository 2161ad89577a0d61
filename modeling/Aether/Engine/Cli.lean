/-
The command line of the engine, from `cli.rs`.

Every option ends up in the environment of the process, and the rest of the engine reads its
settings there.  An option sets variables to fixed values, or to the argument behind it, or appends
that argument to what a variable holds.
-/
import Aether.Lib.Text
import Aether.Net.Addr
import Mathlib.Logic.Function.Basic

namespace Aether.Engine

/-! ### The environment -/

/-- `std::env`. -/
def Environment := String → Option Text

namespace Environment

variable (env : Environment)

/-- `set_var`. -/
def set (key : String) (value : Text) : Environment := Function.update env key (some value)

/-- What `append` makes of a variable: the value behind a semicolon, if there is anything to put it
behind. -/
def appended (existing : Option Text) (value : Text) : Text :=
  match existing with
  | none => value
  | some existing => if Text.trim existing ≠ [] then existing ++ ';' :: value else value

def append (key : String) (value : Text) : Environment := env.set key (appended (env key) value)

end Environment

/-! ### Options -/

/-- What an option does. -/
inductive Operation
  /-- A text is printed, and that is all. -/
  | done
  | set (values : List (String × String))
  /-- These variables become the next argument. -/
  | setNext (keys : List String)
  | appendNext (key : String)
deriving DecidableEq, Repr

/-- The arms of `parse_args`. -/
def options : List (List String × Operation) :=
  [(["-v", "--version"], .done),
    (["-h", "--help", "help"], .done),
    (["--bind"], .setNext ["AETHER_SOCKS"]),
    (["--http-proxy"], .setNext ["AETHER_HTTP_PROXY"]),
    (["--upstream"], .setNext ["AETHER_UPSTREAM"]),
    (["--tor"], .set [("AETHER_TOR", "chain")]),
    (["--tor-reverse"], .set [("AETHER_TOR", "reverse")]),
    (["--tor-only"], .set [("AETHER_TOR", "only")]),
    (["--tor-bridge"], .appendNext "AETHER_TOR_BRIDGES"),
    (["--tor-bridges"], .set [("AETHER_TOR_BRIDGES", "auto")]),
    (["--tor-bridge-file"], .setNext ["AETHER_TOR_BRIDGE_FILE"]),
    (["--tor-relays"], .setNext ["AETHER_TOR_RELAYS"]),
    (["--tor-relay-ports"], .setNext ["AETHER_TOR_RELAY_PORTS"]),
    (["--no-tor-bridges"], .set [("AETHER_TOR_BRIDGES", "off")]),
    (["--tor-pt"], .appendNext "AETHER_TOR_PT"),
    (["--tor-pt-dir"], .appendNext "AETHER_TOR_PT_DIR"),
    (["--tor-bind"], .setNext ["AETHER_TOR_BIND"]),
    (["--tor-http"], .setNext ["AETHER_TOR_HTTP"]),
    (["--tor-dir"], .setNext ["AETHER_TOR_DIR"]),
    (["--psiphon"], .set [("AETHER_PSIPHON", "chain")]),
    (["--psiphon-reverse"], .set [("AETHER_PSIPHON", "reverse")]),
    (["--psiphon-only"], .set [("AETHER_PSIPHON", "only")]),
    (["--psiphon-config"], .setNext ["AETHER_PSIPHON_CONFIG"]),
    (["--psiphon-bind"], .setNext ["AETHER_PSIPHON_BIND"]),
    (["--psiphon-http"], .setNext ["AETHER_PSIPHON_HTTP"]),
    (["--psiphon-region"], .setNext ["AETHER_PSIPHON_REGION"]),
    (["--psiphon-mode"], .setNext ["AETHER_PSIPHON_MODE"]),
    (["--psiphon-cdn-ips"], .setNext ["AETHER_PSIPHON_CDN_IPS"]),
    (["--psiphon-cdn-sni"], .setNext ["AETHER_PSIPHON_CDN_SNI"]),
    (["--psiphon-dir"], .setNext ["AETHER_PSIPHON_DIR"]),
    (["--psiphon-bin"], .setNext ["AETHER_PSIPHON_BIN"]),
    (["--mark"], .setNext ["AETHER_MARK"]),
    (["--exit-loc"], .setNext ["AETHER_EXIT_LOC"]),
    (["--exit-loc-secs"], .setNext ["AETHER_EXIT_LOC_SECS"]),
    (["--stats"], .set [("AETHER_STATS", "1")]),
    (["--stats-secs"], .setNext ["AETHER_STATS_SECS"]),
    (["--quick-reconnect"], .set [("AETHER_QUICK_RECONNECT", "1")]),
    (["--no-quick-reconnect"], .set [("AETHER_QUICK_RECONNECT", "0")]),
    (["-4"], .set [("AETHER_IP", "v4")]),
    (["-6"], .set [("AETHER_IP", "v6")]),
    (["--dual"], .set [("AETHER_IP", "both")]),
    (["--ip"], .setNext ["AETHER_IP"]),
    (["--peer"], .setNext ["AETHER_PEER"]),
    (["--wg-peer"], .setNext ["AETHER_WG_PEER"]),
    (["--wiw-outer", "--gool-outer", "--outer-peer"], .setNext ["AETHER_WIW_OUTER_PEER"]),
    (["--wiw-inner", "--gool-inner", "--inner-peer"], .setNext ["AETHER_WIW_INNER_PEER"]),
    (["--wiw-peers", "--gool-peers"], .setNext ["AETHER_WIW_PEERS"]),
    (["--wiw-scan", "--gool-scan"], .set [("AETHER_WIW_PEERS", "auto")]),
    (["--masque"], .set [("AETHER_PROTOCOL", "masque")]),
    (["--wg", "--wireguard", "--warp"], .set [("AETHER_PROTOCOL", "wg")]),
    (["--gool", "--wiw"], .set [("AETHER_PROTOCOL", "gool")]),
    (["--mim", "--masque-in-masque"], .set [("AETHER_PROTOCOL", "mim")]),
    (["--mim-outer"], .setNext ["AETHER_MIM_OUTER_PEER"]),
    (["--mim-inner"], .setNext ["AETHER_MIM_INNER_PEER"]),
    (["--mim-peers"], .setNext ["AETHER_MIM_PEERS"]),
    (["--mim-scan"], .set [("AETHER_MIM_PEERS", "auto")]),
    (["--protocol"], .setNext ["AETHER_PROTOCOL"]),
    (["--scan"], .setNext ["AETHER_SCAN"]),
    (["--turbo"], .set [("AETHER_SCAN", "turbo")]),
    (["--balanced"], .set [("AETHER_SCAN", "balanced")]),
    (["--thorough"], .set [("AETHER_SCAN", "thorough")]),
    (["--verified", "--stealth"], .set [("AETHER_SCAN", "verified")]),
    (["--ironclad"], .set [("AETHER_SCAN", "ironclad")]),
    (["--noize"], .setNext ["AETHER_NOIZE"]),
    (["--h2", "--http2"], .set [("AETHER_MASQUE_HTTP2", "1")]),
    (["--h3", "--quic"], .set [("AETHER_MASQUE_HTTP2", "0")]),
    (["--no-quic-v2"], .set [("AETHER_QUIC_V2", "0")]),
    (["--h2-peer"], .setNext ["AETHER_MASQUE_H2_PEER"]),
    (["--ech"], .setNext ["AETHER_ECH"]),
    (["--no-data-check"],
      .set [("AETHER_MASQUE_NO_DATA_CHECK", "1"), ("AETHER_WG_NO_DATA_CHECK", "1")]),
    (["--validate-secs"], .setNext ["AETHER_MASQUE_VALIDATE_SECS", "AETHER_WG_VALIDATE_SECS"]),
    (["--startup-secs"], .setNext ["AETHER_MASQUE_STARTUP_SECS"]),
    (["--reconnect-secs"], .setNext ["AETHER_MASQUE_RECONNECT_SECS", "AETHER_WG_RECONNECT_SECS"]),
    (["--dns"], .setNext ["AETHER_DNS"]),
    (["--fragment"], .set [("AETHER_MASQUE_H2_FRAGMENT", "1")]),
    (["--fragment-size"], .setNext ["AETHER_MASQUE_H2_FRAGMENT_SIZE"]),
    (["--fragment-delay"], .setNext ["AETHER_MASQUE_H2_FRAGMENT_DELAY"]),
    (["--keepalive"], .setNext ["AETHER_WG_KEEPALIVE"]),
    (["--no-profile-retry"], .set [("AETHER_WG_NO_PROFILE_RETRY", "1")]),
    (["--config"], .setNext ["AETHER_CONFIG"]),
    (["--wg-config"], .setNext ["AETHER_WG_CONFIG"]),
    (["--masque-config"], .setNext ["AETHER_MASQUE_CONFIG"]),
    (["--team", "--organization"], .setNext ["AETHER_TEAM"]),
    (["--access-id"], .setNext ["AETHER_ACCESS_CLIENT_ID"]),
    (["--access-secret"], .setNext ["AETHER_ACCESS_CLIENT_SECRET"]),
    (["--access-token"], .setNext ["AETHER_ACCESS_TOKEN"]),
    (["--access-email"], .setNext ["AETHER_ACCESS_EMAIL"]),
    (["--gateway"], .set [("AETHER_GATEWAY", "1")]),
    (["--route-block"], .setNext ["AETHER_ROUTE_BLOCK"]),
    (["--route-direct"], .setNext ["AETHER_ROUTE_DIRECT"]),
    (["--routes"], .setNext ["AETHER_ROUTES_FILE"]),
    (["--tls-groups"], .setNext ["AETHER_TLS_GROUPS"]),
    (["--perf"], .setNext ["AETHER_PERF_PROFILE"]),
    (["--log-level"], .setNext ["AETHER_LOG_LEVEL"]),
    (["--verbose"], .set [("AETHER_LOG_LEVEL", "debug")])]

def operationOf (arg : String) : Option Operation :=
  (options.find? fun row => row.1.contains arg).map (·.2)

/-! ### Parsing -/

inductive Parsed
  | run | done
deriving DecidableEq, Repr

/-- Why a command line is refused. -/
inductive ArgError
  /-- `{arg} requires a value`. -/
  | requiresValue (arg : Text)
  /-- `unknown option '{other}'`, and the usage. -/
  | unknownOption (other : Text)
deriving DecidableEq, Repr

/-- `parse_args`. -/
def parseArgs (env : Environment) : List Text → Except ArgError (Parsed × Environment)
  | [] => .ok (.run, env)
  | arg :: rest =>
    match operationOf (String.ofList arg) with
    | none => .error (.unknownOption arg)
    | some .done => .ok (.done, env)
    | some (.set values) =>
      parseArgs (values.foldl (fun e (key, value) => e.set key value.toList) env) rest
    | some (.setNext keys) =>
      match rest with
      | [] => .error (.requiresValue arg)
      | value :: rest => parseArgs (keys.foldl (fun e key => e.set key value) env) rest
    | some (.appendNext key) =>
      match rest with
      | [] => .error (.requiresValue arg)
      | value :: rest => parseArgs (env.append key value) rest

end Aether.Engine
