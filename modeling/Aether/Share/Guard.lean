/-
`LanGuard`: which addresses are local, and how a credential is read and compared.

The hash is a parameter.  Texts that come from the wire are Latin-1, where ignoring the case of
letters against an ASCII pattern is the same for all the comparisons of the source.
-/
import Aether.Lib.Text
import Aether.Lib.Utf8
import Aether.Net.Addr

namespace Aether.LanGuard

/-! ### Addresses -/

/-- `isLinkLocalAddress`: `169.254/16`, `fe80::/10`. -/
def isLinkLocalAddress : IpAddr → Bool
  | .v4 ip => ip.octet 0 == 169 && ip.octet 1 == 254
  | .v6 ip => (ip.segment 0 &&& 0xffc0) == 0xfe80

/-- `isSiteLocalAddress`: `10/8`, `172.16/12`, `192.168/16`, `fec0::/10`. -/
def isSiteLocalAddress : IpAddr → Bool
  | .v4 ip =>
    ip.octet 0 == 10 || (ip.octet 0 == 172 && (ip.octet 1 &&& 0xf0) == 16) ||
      (ip.octet 0 == 192 && ip.octet 1 == 168)
  | .v6 ip => (ip.segment 0 &&& 0xffc0) == 0xfec0

def unwrapMapped : IpAddr → IpAddr
  | .v4 ip => .v4 ip
  | .v6 ip =>
    match ip.toIpv4Mapped with
    | some v4 => .v4 v4
    | none => .v6 ip

def isLocalNetworkAddress : Option IpAddr → Bool
  | none => false
  | some address =>
    let addr := unwrapMapped address
    if addr.isLoopback || isLinkLocalAddress addr || isSiteLocalAddress addr then true
    else
      match addr with
      | .v6 ip => (ip.segment 0 / 256 &&& 0xfe) == 0xfc
      | .v4 _ => false

def isLoopback : Option IpAddr → Bool
  | none => false
  | some address => (unwrapMapped address).isLoopback

/-! ### Credentials -/

/-- The value of a Base64 digit. -/
def sextet (b : UInt8) : Option Nat :=
  if 0x41 ≤ b ∧ b ≤ 0x5a then some (b.toNat - 0x41)
  else if 0x61 ≤ b ∧ b ≤ 0x7a then some (b.toNat - 0x61 + 26)
  else if 0x30 ≤ b ∧ b ≤ 0x39 then some (b.toNat - 0x30 + 52)
  else if b = 0x2b then some 62
  else if b = 0x2f then some 63
  else none

/-- The first `count` bytes of a group of four digits. -/
def groupBytes (count : Nat) (a b c d : Nat) : Bytes :=
  (beBytes 3 (((a * 64 + b) * 64 + c) * 64 + d)).take count

/-- `Base64.getDecoder().decode`: the padding may be missing, and a group that is padded or
short is the last one. -/
def base64Decode : Bytes → Option Bytes
  | [] => some []
  | [_] => none
  | [a, b] => do
    let a ← sextet a
    let b ← sextet b
    return groupBytes 1 a b 0 0
  | [a, b, c] => do
    let a ← sextet a
    let b ← sextet b
    let c ← sextet c
    return groupBytes 2 a b c 0
  | a :: b :: c :: d :: rest => do
    let a ← sextet a
    let b ← sextet b
    if c = 0x3d then if d = 0x3d ∧ rest = [] then return groupBytes 1 a b 0 0 else none
    else
      let c ← sextet c
      if d = 0x3d then if rest = [] then return groupBytes 2 a b c 0 else none
      else
        let d ← sextet d
        let bytes ← base64Decode rest
        return groupBytes 3 a b c d ++ bytes

/-- The bytes of a Latin-1 text. -/
def latin1Bytes (t : Text) : Bytes :=
  t.map fun c => if c.toNat < 256 then UInt8.ofNat c.toNat else 0x3f

/-- `trim` of the JVM languages. -/
def trim (t : Text) : Text :=
  ((t.dropWhile Text.isJvmWhitespace).reverse.dropWhile Text.isJvmWhitespace).reverse

/-- `regionMatches` at the start of a text, with `ignoreCase`. -/
def startsWithIgnoreCase (pattern t : Text) : Bool :=
  pattern.length ≤ t.length && Text.eqIgnoreAsciiCase (t.take pattern.length) pattern

def parseBasicCredential (headerValue : Text) : Option (Text × Text) :=
  let trimmed := trim headerValue
  if !startsWithIgnoreCase "Basic".toList trimmed then none
  else
    let encoded := trim (trimmed.drop 5)
    if encoded = [] then none
    else do
      let decoded := Utf8.decodeLossy (← base64Decode (latin1Bytes encoded))
      Text.splitOnce [':'] decoded

/-- `secretEquals`, with the hash. -/
def secretEquals (sha256 : Bytes → Bytes) (expected offered : Text) : Bool :=
  if expected = [] then false
  else sha256 (Utf8.encode expected) == sha256 (Utf8.encode offered)

example : parseBasicCredential " basic dXNlcjpwYTpzcw==".toList =
    some ("user".toList, "pa:ss".toList) := by decide

end Aether.LanGuard
