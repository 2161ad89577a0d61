/-
Capsules: `encode_capsule` and `CapsuleParser` of `masque.rs`.

A capsule on the wire is a kind and a length, both varints, and that many bytes.  The
parser keeps the bytes that are not a whole capsule yet.  How wide `usize` is depends on
the target the app is built for, and `next` narrows the length it reads to it.
-/
import Aether.Masque.Octets

namespace Aether

/-- An `h3::Error` that is passed on as it came: the number `to_c` gives it. -/
abbrev H3Error := Int

/-- The errors that the code modelled here makes. -/
inductive AetherError
  | capsule (text : String)
  | masque (text : String)
  | h3 (e : H3Error)
deriving DecidableEq, Repr

def oct (e : BufferTooShort) : AetherError := .capsule e.toString

def capsuleDatagram : Nat := 0x00
def capsuleAddressAssign : Nat := 0x01
def capsuleAddressRequest : Nat := 0x02
def capsuleRouteAdvertisement : Nat := 0x03

structure AssignedAddress where
  requestId : Nat
  ipVersion : Nat
  address : Bytes
  prefixLen : Nat
deriving DecidableEq, Repr

structure RouteAdvertisement where
  ipVersion : Nat
  start : Bytes
  ending : Bytes
  protocol : Nat
deriving DecidableEq, Repr

inductive Capsule
  | addressAssign (addrs : List AssignedAddress)
  | addressRequest
  | datagram (payload : Bytes)
  | routeAdvertisement (routes : List RouteAdvertisement)
  | unknown (kind : Nat) (payload : Bytes)
deriving DecidableEq, Repr

/-! ### Encoding -/

/-- `masque::varint_len`, which has an answer for every number. -/
def varintLen (v : Nat) : Nat :=
  if v < 64 then 1
  else if v < 16384 then 2
  else if v < 1073741824 then 4
  else 8

def capsuleLen (kind : Nat) (value : Bytes) : Nat :=
  varintLen kind + varintLen value.length + value.length

/-- `let _ = b.put(…)`: the writer as it is after the call, whether it failed or not. -/
def OctetsMut.ignoring (b : OctetsMut) (r : Except BufferTooShort OctetsMut) : OctetsMut :=
  r.toOption.getD b

/-- `append_capsule`: nothing when it panics. -/
def appendCapsule (out : Bytes) (kind : Nat) (value : Bytes) : Option Bytes := do
  let b := OctetsMut.withSlice (List.replicate (capsuleLen kind value) 0)
  let b := b.ignoring (← b.putVarint kind)
  let b := b.ignoring (← b.putVarint value.length)
  let b := b.ignoring (b.putBytes value)
  return out ++ b.buf

def encodeCapsule (kind : Nat) (value : Bytes) : Option Bytes := appendCapsule [] kind value

/-! ### The wire format

What an encoding is, whoever wrote it: a varint may be longer than it needs to be. -/

/-- The top two bits of `e` say that it has `2 ^ n` bytes, and the other bits are `v`. -/
def IsVarint (v : Nat) (e : Bytes) : Prop :=
  ∃ n < 4, e.length = 2 ^ n ∧ v < 2 ^ (8 * 2 ^ n - 2) ∧ beNat e = n * 2 ^ (8 * 2 ^ n - 2) + v

structure WireCapsule where
  kind : Nat
  value : Bytes
deriving DecidableEq, Repr

def WireCapsule.IsEncoding (c : WireCapsule) (e : Bytes) : Prop :=
  ∃ k l, IsVarint c.kind k ∧ IsVarint c.value.length l ∧ e = k ++ l ++ c.value

/-! ### The bodies of capsules -/

/-- How many bytes an address takes. -/
def addrLen (ipVersion : Nat) : Except AetherError Nat :=
  match ipVersion with
  | 4 => .ok 4
  | 6 => .ok 16
  | v => .error (.capsule ("bad ip version " ++ toString v))

/-- `while b.cap() > 0`, one item at a time.  An item takes at least one byte, so `fuel` is
enough when it is what is left to read. -/
def parseItems {α : Type} (item : Octets → Except AetherError (α × Octets)) :
    (fuel : Nat) → Octets → Except AetherError (List α)
  | 0, _ => .ok []
  | fuel + 1, b =>
    if b.cap > 0 then do
      let (a, b) ← item b
      let out ← parseItems item fuel b
      return a :: out
    else .ok []

/-- An iteration of the loop of `parse_address_assign`. -/
def assignedAddress (b : Octets) : Except AetherError (AssignedAddress × Octets) := do
  let (requestId, b) ← b.getVarint.mapError oct
  let (ipVersion, b) ← b.getU8.mapError oct
  let len ← addrLen ipVersion
  let (address, b) ← (b.getBytes len).mapError oct
  let (prefixLen, b) ← b.getU8.mapError oct
  return ({ requestId, ipVersion, address := address.toVec, prefixLen }, b)

/-- An iteration of the loop of `parse_route_advertisement`. -/
def routeAdvertisement (b : Octets) : Except AetherError (RouteAdvertisement × Octets) := do
  let (ipVersion, b) ← b.getU8.mapError oct
  let len ← addrLen ipVersion
  let (start, b) ← (b.getBytes len).mapError oct
  let (ending, b) ← (b.getBytes len).mapError oct
  let (protocol, b) ← b.getU8.mapError oct
  return ({ ipVersion, start := start.toVec, ending := ending.toVec, protocol }, b)

def parseAddressAssign (value : Bytes) : Except AetherError (List AssignedAddress) :=
  parseItems assignedAddress value.length (.withSlice value)

def parseRouteAdvertisement (value : Bytes) : Except AetherError (List RouteAdvertisement) :=
  parseItems routeAdvertisement value.length (.withSlice value)

/-- The last part of `next`: the capsule of a kind and its bytes. -/
def decodeCapsule (kind : Nat) (value : Bytes) : Except AetherError Capsule :=
  if kind = capsuleAddressAssign then .addressAssign <$> parseAddressAssign value
  else if kind = capsuleAddressRequest then .ok .addressRequest
  else if kind = capsuleRouteAdvertisement then
    .routeAdvertisement <$> parseRouteAdvertisement value
  else if kind = capsuleDatagram then .ok (.datagram value)
  else .ok (.unknown kind value)

/-- What a capsule on the wire stands for. -/
def WireCapsule.meaning (c : WireCapsule) : Except AetherError Capsule :=
  match c.kind with
  | 0 => .ok (.datagram c.value)
  | 1 => .addressAssign <$> parseAddressAssign c.value
  | 2 => .ok .addressRequest
  | 3 => .routeAdvertisement <$> parseRouteAdvertisement c.value
  | kind => .ok (.unknown kind c.value)

/-! ### The parser -/

structure CapsuleParser where
  buf : Bytes
deriving DecidableEq, Repr

def maxCapsuleBuf : Nat := 256 * 1024

namespace CapsuleParser

def new : CapsuleParser := { buf := [] }

/-- The test that makes `push` clear the buffer. -/
def overflows (t : Target) (data : Bytes) (p : CapsuleParser) : Bool :=
  t.saturatingAdd p.buf.length data.length > maxCapsuleBuf

def push (t : Target) (data : Bytes) (p : CapsuleParser) : CapsuleParser :=
  if p.overflows t data then { buf := [] } else { buf := p.buf ++ data }

def next (t : Target) (p : CapsuleParser) :
    Except AetherError (Option Capsule) × CapsuleParser :=
  match (Octets.withSlice p.buf).getVarint with
  | .error _ => (.ok none, p)
  | .ok (kind, b) =>
  match b.getVarint with
  | .error _ => (.ok none, p)
  | .ok (len, b) =>
  -- as usize
  let len := len % 2 ^ t.usizeBits
  if b.cap < len then (.ok none, p)
  else
  match b.getBytes len with
  | .error e => (.error (oct e), p)
  | .ok (value, b) => (some <$> decodeCapsule kind value.toVec, { buf := p.buf.drop b.off })

end CapsuleParser

/-! ### Datagrams -/

def connectIpContextId : Nat := 0

def quarterStreamId (streamId : Nat) : Nat := streamId / 4

/-- `encode_ip_datagram`: nothing when it panics. -/
def encodeIpDatagram (streamId : Nat) (ipPacket : Bytes) : Option (Except AetherError Bytes) := do
  let qsid := quarterStreamId streamId
  let ctx := connectIpContextId
  let cap := varintLen qsid + varintLen ctx + ipPacket.length
  match ← (OctetsMut.withSlice (List.replicate cap 0)).putVarint qsid with
  | .error e => return .error (oct e)
  | .ok b =>
  match ← b.putVarint ctx with
  | .error e => return .error (oct e)
  | .ok b => return ((b.putBytes ipPacket).mapError oct).map OctetsMut.buf

def decodeIpDatagram (datagram : Bytes) (expectStreamId : Nat) :
    Except AetherError (Option Bytes) := do
  let (qsid, b) ← (Octets.withSlice datagram).getVarint.mapError oct
  if qsid ≠ quarterStreamId expectStreamId then return none
  let (ctx, b) ← b.getVarint.mapError oct
  if ctx ≠ connectIpContextId then return none
  let (payload, _) ← (b.getBytes b.cap).mapError oct
  return some payload.toVec

def looksLikeIpPacket (data : Bytes) : Bool :=
  match data with
  | [] => false
  | first :: _ => (first >>> 4 == 4 || first >>> 4 == 6) && data.length ≥ 20

def stripDatagramContext (payload : Bytes) : Option Bytes :=
  let bare := if looksLikeIpPacket payload then some payload else none
  if payload.isEmpty then none
  else
  match (Octets.withSlice payload).getVarint with
  | .ok (ctx, b) =>
    if ctx = connectIpContextId ∧ looksLikeIpPacket b.toVec then some b.toVec else bare
  | .error _ => bare

end Aether
