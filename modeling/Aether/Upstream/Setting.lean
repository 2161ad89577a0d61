/-
The upstream proxy as it is configured: `Upstream::from_env` and `Upstream::parse` of
`upstream.rs`.

`parse` first cuts the text (`cut`) and then decodes the credentials.  `to_lowercase` is the
parameter `lower`.
-/
import Aether.Lib.Utf8
import Aether.Lib.Text
import Aether.Net.Addr

namespace Aether.Upstream

inductive Kind
  | socks5 | http
deriving DecidableEq, Repr

/-- `Upstream`. -/
structure Proxy where
  kind : Kind
  host : Text
  port : Nat
  user : Option Text
  password : Option Text
deriving DecidableEq, Repr

inductive SettingError
  | unknownKind (scheme : Text)
  | httpsPassword
  | malformed (endpoint : Text)
deriving DecidableEq, Repr

/-! ### Percent encoding -/

/-- `u8::from_str_radix` with the radix 16: an optional plus, then digits. -/
def fromStrRadix (t : Text) : Option UInt8 :=
  let digits := if t.head? = some '+' then t.tail else t
  if digits = [] then none
  else do
    let values ← digits.mapM (toDigit 16)
    let value := values.foldl (fun n d => n * 16 + d) 0
    if value < 256 then some (UInt8.ofNat value) else none

/-- Two bytes behind a percent sign. -/
def readEscape (x y : UInt8) : Option UInt8 := fromStrRadix ((Utf8.decode [x, y]).getD [])

/-- Bytes with the escapes that `read` takes replaced by what they stand for. -/
def unescapeWith (read : UInt8 → UInt8 → Option UInt8) : Bytes → Bytes
  | b :: x :: y :: rest =>
    match if b = 0x25 then read x y else none with
    | some value => value :: unescapeWith read rest
    | none => b :: unescapeWith read (x :: y :: rest)
  | short => short

def percentDecode (value : Text) : Text :=
  Utf8.decodeLossy (unescapeWith readEscape (Utf8.encode value))

example : percentDecode "p%40ss%".toList = "p@ss%".toList := by decide +kernel

/-! ### Cutting -/

/-- A port that is not zero. -/
def readEndpointPort (t : Text) : Option Nat := (Text.parseUnsigned 65536 t).filter (· ≠ 0)

def splitEndpoint (endpoint : Text) : Option (Text × Nat) :=
  match endpoint with
  | '[' :: rest => do
    let (host, tail) ← Text.splitOnce [']'] rest
    let port ← Text.strip [':'] tail
    let port ← readEndpointPort port
    if host = [] then none else some (host, port)
  | _ => do
    let (host, port) ← Text.rsplitOnce ':' endpoint
    let port ← readEndpointPort port
    if host = [] then none else some (host, port)

variable (lower : Text → Text)

def kindOf (scheme : Text) : Option Kind :=
  if scheme ∈ ["socks5".toList, "socks5h".toList, "socks".toList] then some .socks5
  else if scheme ∈ ["http".toList, "https".toList] then some .http
  else none

/-- What stands before `://`; without it, `socks5`. -/
def splitScheme (raw : Text) : Text × Text :=
  match Text.splitOnce "://".toList raw with
  | some (scheme, rest) => (lower scheme, rest)
  | none => ("socks5".toList, raw)

/-- What stands before the last `@`. -/
def splitCredentials (rest : Text) : Option Text × Text :=
  match Text.rsplitOnce '@' rest with
  | some (credentials, endpoint) => (some credentials, endpoint)
  | none => (none, rest)

def splitPair : Option Text → Option Text × Option Text
  | some pair =>
    match Text.splitOnce [':'] pair with
    | some (user, password) => (some user, some password)
    | none => (some pair, none)
  | none => (none, none)

/-- Everything in `parse` but the decoding of the credentials. -/
def cut (raw : Text) : Except SettingError Proxy :=
  let (scheme, rest) := splitScheme lower (Text.trim raw)
  match kindOf scheme with
  | none => .error (.unknownKind scheme)
  | some kind =>
    let (credentials, endpoint) := splitCredentials rest
    if scheme = "https".toList ∧ credentials.isSome then .error .httpsPassword
    else
      let endpoint := (endpoint.reverse.dropWhile (· == '/')).reverse
      match splitEndpoint endpoint with
      | none => .error (.malformed endpoint)
      | some (host, port) =>
        let (user, password) := splitPair credentials
        .ok { kind, host, port, user, password }

/-- The credentials are decoded. -/
def Proxy.decoded (written : Proxy) : Proxy :=
  { written with
    user := written.user.map percentDecode
    password := written.password.map percentDecode }

/-- `Upstream::parse`. -/
def parse (raw : Text) : Except SettingError Proxy := (cut lower raw).map Proxy.decoded

/-- `Upstream::from_env`, with `AETHER_UPSTREAM`. -/
def fromEnv (setting : Option Text) : Option Proxy := do
  let raw ← setting
  let trimmed := Text.trim raw
  if trimmed = [] then none else (parse lower trimmed).toOption

end Aether.Upstream
