/-
The destination a request names and the one its SOCKS5 request reaches.

A request target is built from its parts by RFC 3986: user information, a host that is a
registered name, an IPv4 address or an IPv6 address in brackets, a port, a path and a query.
This is what the request means; how `serveHttpClient` cuts it is in the model of the proxy.
What a request means to the engine is what `read_request` and `resolve` make of its bytes.
-/
import Aether.Share.Proxy

namespace Aether.Share

/-! ### Texts of a URI -/

/-- unreserved, sub-delims. -/
def isNameChar (c : Char) : Bool := c.isAlphanum || "-._~!$&'()*+,;=".toList.contains c

def isHexDigit (c : Char) : Bool := (toDigit 16 c).isSome

/-- Characters of a component, some further ones, and percent-encoded octets. -/
def isComponent (further : Text) : Text → Bool
  | [] => true
  | '%' :: a :: b :: rest => isHexDigit a && isHexDigit b && isComponent further rest
  | c :: rest => (isNameChar c || further.contains c) && isComponent further rest

/-- The octets of a component. -/
def pctBytes : Text → Bytes
  | [] => []
  | '%' :: a :: b :: rest =>
    UInt8.ofNat ((toDigit 16 a).getD 0 * 16 + (toDigit 16 b).getD 0) :: pctBytes rest
  | c :: rest => UInt8.ofNat c.toNat :: pctBytes rest

/-- The name that a registered name stands for. -/
def pctDecode (t : Text) : Text := Utf8.decodeLossy (pctBytes t)

/-! ### Request targets -/

inductive Host
  /-- A registered name or an IPv4 address. -/
  | name (t : Text)
  /-- An IPv6 address, brackets taken off. -/
  | ipv6 (t : Text)
deriving DecidableEq, Repr

structure Authority where
  userinfo : Option Text
  host : Host
  port : Option Text
deriving DecidableEq, Repr

inductive RequestTarget
  | connect (authority : Authority)
  /-- An absolute `http` URI. -/
  | absolute (authority : Authority) (path : Text) (query : Option Text)
deriving DecidableEq, Repr

def Host.text : Host → Text
  | .name t => t
  | .ipv6 t => '[' :: t ++ [']']

def Authority.text (a : Authority) : Text :=
  (a.userinfo.map (· ++ ['@'])).getD [] ++ a.host.text ++ (a.port.map (':' :: ·)).getD []

/-- What stands behind `http://`. -/
def urlText (a : Authority) (path : Text) (query : Option Text) : Text :=
  a.text ++ path ++ (query.map ('?' :: ·)).getD []

def RequestTarget.text : RequestTarget → Text
  | .connect a => a.text
  | .absolute a path query => "http://".toList ++ urlText a path query

def RequestTarget.authority : RequestTarget → Authority
  | .connect a => a
  | .absolute a _ _ => a

def RequestTarget.defaultPort : RequestTarget → Nat
  | .connect _ => 443
  | .absolute _ _ _ => 80

structure Host.WellFormed (h : Host) : Prop where
  name : ∀ t, h = .name t → t ≠ [] ∧ isComponent [] t = true
  ipv6 : ∀ t, h = .ipv6 t → ∃ ip, parseIpAddr t = some (.v6 ip)

structure Authority.WellFormed (a : Authority) : Prop where
  userinfo : ∀ u ∈ a.userinfo, isComponent [':'] u = true
  host : a.host.WellFormed
  port : ∀ p ∈ a.port, p.all Char.isDigit = true

/-- The target is one by the grammar of RFC 3986. -/
structure RequestTarget.WellFormed (t : RequestTarget) : Prop where
  authority : t.authority.WellFormed
  absolute : ∀ a path query, t = .absolute a path query →
    (path = [] ∨ path.head? = some '/') ∧ isComponent ":@/".toList path = true ∧
      ∀ q ∈ query, isComponent ":@/?".toList q = true

/-! ### Destinations -/

inductive Destination
  | address (ip : IpAddr)
  | domain (name : Text)
deriving DecidableEq, Repr

/-- A name that reads as an address is one. -/
def Destination.ofName (name : Text) (decoded : Text) : Destination :=
  match parseIpAddr name with
  | some ip => .address ip
  | none => .domain decoded

/-- What a host stands for. -/
def Host.denotes : Host → Destination
  | .name t | .ipv6 t => .ofName t (pctDecode t)

/-- The port of an authority. -/
def Authority.portNumber (a : Authority) (default : Nat) : Nat :=
  match a.port with
  | none | some [] => default
  | some digits => decimal digits

/-- The host and the port fit into a SOCKS5 request. -/
def RequestTarget.Fits (t : RequestTarget) : Prop :=
  t.authority.host.text.length ≤ 255 ∧ t.authority.portNumber t.defaultPort ≤ 65535

/-! ### The engine -/

/-- `read_request` behind the handshake: the command, the target, the port, and the rest. -/
def readRequest : Bytes → Option (UInt8 × Socks.Target × UInt16 × Bytes)
  | version :: command :: _ :: atyp :: input =>
    if version ≠ 5 then none
    else (Socks.readTarget atyp input).map fun (target, port, rest) =>
      (command, target, port, rest)
  | _ => none

/-- What `resolve` makes of a target. -/
def targetDenotes : Socks.Target → Destination
  | .ip ip => .address ip
  | .domain name => .ofName name name

/-- The request that is written names this destination and port, and nothing is left of it. -/
def Reaches (host : Text) (port : Int) (destination : Destination) (number : Nat) : Prop :=
  ∃ target wirePort, readRequest (socksRequest host port) = some (1, target, wirePort, []) ∧
    targetDenotes target = destination ∧ wirePort.toNat = number

/-- The destination that is named is opened, and a target that does not fit is refused. -/
def Opens (x : Exchange) (t : RequestTarget) : Prop :=
  (t.Fits → ∃ host port, x.dialled = some (.destination host port) ∧
    Reaches host port t.authority.host.denotes (t.authority.portNumber t.defaultPort)) ∧
  (¬ t.Fits → x.dialled = none)

/-! ### The condition -/

/-- A registered name without percent signs or an IPv4 address. -/
def Host.Plain : Host → Prop
  | .name t => '%' ∉ t
  | .ipv6 _ => False

/-- A text of its own is taken for the host, and stands for the same. -/
def StandsFor (u : Text) (h : Host) : Prop := u.length ≤ 255 ∧ Destination.ofName u u = h.denotes

/-- Where the cuts of `serveHttpClient` give the host and the port that are named. -/
def RequestTarget.CutRight : RequestTarget → Prop
  | .connect a =>
    match a.userinfo, a.port with
    | none, some _ => a.host.Plain
    | none, none =>
      -- the whole target is read as the port
      a.host.Plain ∧ ∀ n ∈ toIntOrNull a.host.text, n % 65536 = 443
    | some u, none =>
      -- the last colon is one of the user information
      ':' ∉ a.host.text ∧ ∃ u₁ u₂, u = u₁ ++ ':' :: u₂ ∧ ':' ∉ u₂ ∧ StandsFor u₁ a.host
    | some _, some _ => False
  | .absolute a path query =>
    match a.userinfo with
    | none =>
      a.host.Plain ∧
        -- a query without a path is taken for a part of the host or of the port
        (path ≠ [] ∨ query = none ∨ (a.port ≠ none ∧ a.portNumber 80 = 80))
    | some u =>
      -- the first colon is one of the user information
      a.portNumber 80 = 80 ∧
        ∃ u₁ u₂, u = u₁ ++ ':' :: u₂ ∧ ':' ∉ u₁ ∧ StandsFor u₁ a.host

end Aether.Share
