/-
IP addresses as the Rust standard library has them: their parts, the ranges the engine asks
about, and their text.

A text is a list of characters.  Reading an address follows the standard parser: a
part that cannot be read leaves the input where it was, and the whole text has to be used.
-/
import Aether.Masque.Octets

namespace Aether

/-- A Rust string. -/
abbrev Text := List Char

/-! ### Parts -/

/-- `octets()[i]`. -/
def Ipv4Addr.octet (ip : Ipv4Addr) (i : Nat) : Nat := ip.toNat / 256 ^ (3 - i) % 256

/-- `segments()[i]`. -/
def Ipv6Addr.segment (ip : Ipv6Addr) (i : Nat) : Nat := ip.toNat / 65536 ^ (7 - i) % 65536

def Ipv6Addr.segments (ip : Ipv6Addr) : List Nat := (List.range 8).map ip.segment

/-- The IPv6 address with these segments. -/
def Ipv6Addr.ofSegments (segments : List Nat) : Ipv6Addr :=
  BitVec.ofNat 128 (segments.foldl (fun n s => n * 65536 + s) 0)

/-- `Ipv4Addr::to_ipv6_mapped`: `::ffff:a.b.c.d`. -/
def Ipv4Addr.toIpv6Mapped (ip : Ipv4Addr) : Ipv6Addr :=
  BitVec.ofNat 128 (0xffff * 2 ^ 32 + ip.toNat)

def Ipv6Addr.toIpv4Mapped (ip : Ipv6Addr) : Option Ipv4Addr :=
  if ip.toNat / 2 ^ 32 = 0xffff then some (BitVec.ofNat 32 ip.toNat) else none

def Ipv4Addr.localhost : Ipv4Addr := 0x7f000001

def Ipv6Addr.localhost : Ipv6Addr := 1

/-- `octets()`, as bytes. -/
def Ipv4Addr.octets (ip : Ipv4Addr) : Bytes := beBytes 4 ip.toNat

def Ipv6Addr.octets (ip : Ipv6Addr) : Bytes := beBytes 16 ip.toNat

/-- `Ipv4Addr::from` for four octets. -/
def Ipv4Addr.ofOctets (octets : Bytes) : Ipv4Addr := BitVec.ofNat 32 (beNat octets)

def Ipv6Addr.ofOctets (octets : Bytes) : Ipv6Addr := BitVec.ofNat 128 (beNat octets)

/-- `u16::to_be_bytes`. -/
def u16ToBe (n : UInt16) : Bytes := beBytes 2 n.toNat

/-- `u16::from_be_bytes`. -/
def u16FromBe (bytes : Bytes) : UInt16 := UInt16.ofNat (beNat bytes)

/-! ### Socket addresses -/

/-- `std::net::SocketAddr` with everything it carries: an IPv6 one has a flow label and a
scope as well. -/
inductive StdSocketAddr
  | v4 (ip : Ipv4Addr) (port : UInt16)
  | v6 (ip : Ipv6Addr) (port : UInt16) (flowinfo scopeId : UInt32)
deriving DecidableEq, Repr

namespace StdSocketAddr

/-- `SocketAddr::new`: no flow label, no scope. -/
def new : IpAddr → UInt16 → StdSocketAddr
  | .v4 ip, port => .v4 ip port
  | .v6 ip, port => .v6 ip port 0 0

def ip : StdSocketAddr → IpAddr
  | .v4 ip _ => .v4 ip
  | .v6 ip _ _ _ => .v6 ip

def port : StdSocketAddr → UInt16
  | .v4 _ port => port
  | .v6 _ port _ _ => port

end StdSocketAddr

/-! ### Ranges -/

/-- `routing::is_private`. -/
def isPrivate : IpAddr → Bool
  | .v4 ip =>
    -- is_private
    ip.octet 0 == 10 || (ip.octet 0 == 172 && 16 ≤ ip.octet 1 && ip.octet 1 ≤ 31) ||
    (ip.octet 0 == 192 && ip.octet 1 == 168) ||
    -- is_loopback, is_link_local, is_broadcast
    ip.octet 0 == 127 || (ip.octet 0 == 169 && ip.octet 1 == 254) ||
    ip.toNat == 0xffffffff ||
    -- is_documentation
    (ip.octet 0 == 192 && ip.octet 1 == 0 && ip.octet 2 == 2) ||
    (ip.octet 0 == 198 && ip.octet 1 == 51 && ip.octet 2 == 100) ||
    (ip.octet 0 == 203 && ip.octet 1 == 0 && ip.octet 2 == 113) ||
    -- is_unspecified
    ip.toNat == 0 ||
    (ip.octet 0 == 100 && 64 ≤ ip.octet 1 && ip.octet 1 < 128)
  | .v6 ip =>
    -- is_loopback, is_unspecified
    ip.toNat == 1 || ip.toNat == 0 ||
    (ip.segment 0 &&& 0xfe00) == 0xfc00 || (ip.segment 0 &&& 0xffc0) == 0xfe80

def IpAddr.isLoopback : IpAddr → Bool
  | .v4 ip => ip.octet 0 == 127
  | .v6 ip => ip.toNat == 1

def IpAddr.isUnspecified : IpAddr → Bool
  | .v4 ip => ip.toNat == 0
  | .v6 ip => ip.toNat == 0

/-- smoltcp's `is_unicast`: not broadcast, not multicast and not unspecified. -/
def IpAddr.isUnicast : IpAddr → Bool
  | .v4 ip => !(ip.toNat == 4294967295 || ip.octet 0 / 16 == 14 || ip.toNat == 0)
  | .v6 ip => !(ip.segment 0 / 256 == 255 || ip.toNat == 0)

/-- A block of addresses: those that begin with the same bits. -/
inductive IpNet
  | v4 (addr : Ipv4Addr) (prefixLen : Nat)
  | v6 (addr : Ipv6Addr) (prefixLen : Nat)
deriving DecidableEq, Repr

/-- The families agree, and the first bits. -/
def IpNet.contains : IpNet → IpAddr → Bool
  | .v4 addr len, .v4 ip => addr.toNat / 2 ^ (32 - len) == ip.toNat / 2 ^ (32 - len)
  | .v6 addr len, .v6 ip => addr.toNat / 2 ^ (128 - len) == ip.toNat / 2 ^ (128 - len)
  | _, _ => false

/-! ### Reading -/

/-- `Parser::read_given_char`. -/
def readGivenChar (c : Char) : Text → Option Text
  | [] => none
  | x :: rest => if x = c then some rest else none

/-- The value of a digit in a radix of at most 16. -/
def toDigit (radix : Nat) (c : Char) : Option Nat :=
  let v :=
    if '0' ≤ c ∧ c ≤ '9' then some (c.toNat - '0'.toNat)
    else if 'a' ≤ c ∧ c ≤ 'f' then some (c.toNat - 'a'.toNat + 10)
    else if 'A' ≤ c ∧ c ≤ 'F' then some (c.toNat - 'A'.toNat + 10)
    else none
  v.filter (· < radix)

/-- `Parser::read_number`: the digits at the front, at most `maxDigits` of them, as a number
below `bound`. -/
def readNumber (radix maxDigits bound : Nat) (allowZeroPrefix : Bool) (t : Text) :
    Option (Nat × Text) :=
  let digits := (t.takeWhile fun c => (toDigit radix c).isSome).filterMap (toDigit radix)
  let value := digits.foldl (fun n d => n * radix + d) 0
  if digits.length = 0 ∨ maxDigits < digits.length ∨ bound ≤ value then none
  else if !allowZeroPrefix && t.head? == some '0' && 1 < digits.length then none
  else some (value, t.drop digits.length)

/-- `Parser::read_separator`: the separator in front of every part but the first. -/
def readSeparator {α : Type} (sep : Char) (index : Nat) (inner : Text → Option (α × Text))
    (t : Text) : Option (α × Text) :=
  if index = 0 then inner t else (readGivenChar sep t).bind inner

/-- `Parser::read_ipv4_addr`. -/
def readIpv4Addr (t : Text) : Option (Ipv4Addr × Text) := do
  let part := fun i => readSeparator '.' i (readNumber 10 3 256 false)
  let (a, t) ← part 0 t
  let (b, t) ← part 1 t
  let (c, t) ← part 2 t
  let (d, t) ← part 3 t
  return (BitVec.ofNat 32 (((a * 256 + b) * 256 + c) * 256 + d), t)

/-- `read_groups`: the groups from `index` on while `limit` allows, whether they end in an
IPv4 address, and what is left. -/
def readGroups (limit : Nat) : (left index : Nat) → Text → List Nat × Bool × Text
  | 0, _, t => ([], false, t)
  | left + 1, index, t =>
    let ipv4 := if index + 1 < limit then readSeparator ':' index readIpv4Addr t else none
    match ipv4 with
    | some (ip, t) => ([ip.toNat / 65536, ip.toNat % 65536], true, t)
    | none =>
      match readSeparator ':' index (readNumber 16 4 65536 true) t with
      | some (group, t) =>
        let r := readGroups limit left (index + 1) t
        (group :: r.1, r.2)
      | none => ([], false, t)

/-- `Parser::read_ipv6_addr`. -/
def readIpv6Addr (t : Text) : Option (Ipv6Addr × Text) :=
  let (head, headIpv4, t) := readGroups 8 8 0 t
  if head.length = 8 then some (Ipv6Addr.ofSegments head, t)
  else if headIpv4 then none
  else do
    let t ← readGivenChar ':' t
    let t ← readGivenChar ':' t
    let limit := 8 - (head.length + 1)
    let (tail, _, t) := readGroups limit limit 0 t
    return (.ofSegments (head ++ List.replicate (8 - head.length - tail.length) 0 ++ tail), t)

/-- `str::parse::<IpAddr>`. -/
def parseIpAddr (t : Text) : Option IpAddr :=
  match readIpv4Addr t with
  | some (ip, rest) => if rest.isEmpty then some (.v4 ip) else none
  | none =>
    match readIpv6Addr t with
    | some (ip, rest) => if rest.isEmpty then some (.v6 ip) else none
    | none => none

/-- `Parser::read_port`: a colon, and a number of any length. -/
def readPort (t : Text) : Option (UInt16 × Text) := do
  let t ← readGivenChar ':' t
  let (port, t) ← readNumber 10 t.length 65536 true t
  return (UInt16.ofNat port, t)

/-- `Parser::read_scope_id`. -/
def readScopeId (t : Text) : Option (UInt32 × Text) := do
  let t ← readGivenChar '%' t
  let (scope, t) ← readNumber 10 t.length (2 ^ 32) true t
  return (UInt32.ofNat scope, t)

/-- `Parser::read_socket_addr_v4`. -/
def readSocketAddrV4 (t : Text) : Option (StdSocketAddr × Text) := do
  let (ip, t) ← readIpv4Addr t
  let (port, t) ← readPort t
  return (.v4 ip port, t)

/-- `Parser::read_socket_addr_v6`. -/
def readSocketAddrV6 (t : Text) : Option (StdSocketAddr × Text) := do
  let t ← readGivenChar '[' t
  let (ip, t) ← readIpv6Addr t
  let (scope, t) := (readScopeId t).getD (0, t)
  let t ← readGivenChar ']' t
  let (port, t) ← readPort t
  return (.v6 ip port 0 scope, t)

/-- `str::parse::<SocketAddr>`. -/
def parseSocketAddr (t : Text) : Option StdSocketAddr :=
  match (readSocketAddrV4 t).orElse fun _ => readSocketAddrV6 t with
  | some (addr, rest) => if rest.isEmpty then some addr else none
  | none => none

/-! ### Writing -/

/-- `Display` of an IPv4 address. -/
def Ipv4Addr.toText (ip : Ipv4Addr) : Text :=
  Nat.toDigits 10 (ip.octet 0) ++ '.' :: Nat.toDigits 10 (ip.octet 1) ++
    '.' :: Nat.toDigits 10 (ip.octet 2) ++ '.' :: Nat.toDigits 10 (ip.octet 3)

/-- The longest run of zeros, the first of several: its start and length. -/
def longestZeros (segments : List Nat) : Nat × Nat :=
  let step := fun (acc : (Nat × Nat) × (Nat × Nat)) (x : Nat × Nat) =>
    if x.1 = 0 then
      let current := if acc.2.2 = 0 then (x.2, 1) else (acc.2.1, acc.2.2 + 1)
      (if acc.1.2 < current.2 then current else acc.1, current)
    else (acc.1, (0, 0))
  (segments.zipIdx.foldl step ((0, 0), (0, 0))).1

/-- `fmt_subslice`: the groups with colons between them. -/
def groupsText : List Nat → Text
  | [] => []
  | [s] => Nat.toDigits 16 s
  | s :: rest => Nat.toDigits 16 s ++ ':' :: groupsText rest

/-- `Display` of an IPv6 address. -/
def Ipv6Addr.toText (ip : Ipv6Addr) : Text :=
  match ip.toIpv4Mapped with
  | some v4 => "::ffff:".toList ++ v4.toText
  | none =>
    let zeros := longestZeros ip.segments
    if 1 < zeros.2 then
      groupsText (ip.segments.take zeros.1) ++ "::".toList ++
        groupsText (ip.segments.drop (zeros.1 + zeros.2))
    else groupsText ip.segments

def IpAddr.toText : IpAddr → Text
  | .v4 ip => ip.toText
  | .v6 ip => ip.toText

example : parseSocketAddr "[2606:4700::1111%7]:853".toList =
    some (.v6 0x26064700000000000000000000001111 853 0 7) := by decide
example : (0x26064700000000000000000000001111 : Ipv6Addr).toText = "2606:4700::1111".toList := by
  decide

end Aether
