/-
Reading and writing bytes: the part of the `octets` crate that `masque.rs` uses.

A reader or writer is a buffer and an offset into it.  A call on `&mut self` returns the
new reader or writer with its result; one that fails leaves it as it was.  Numbers are
natural numbers, those read as bytes in network byte order.
-/
import Aether.Netstack.Smoltcp

namespace Aether

/-- `BufferTooShortError`. -/
inductive BufferTooShort
  | bufferTooShort
deriving DecidableEq, Repr

/-- What `to_string` gives for it. -/
def BufferTooShort.toString : BufferTooShort → String
  | bufferTooShort => "BufferTooShortError"

/-- The bytes as a number, the first one the most significant. -/
def beNat : Bytes → Nat
  | [] => 0
  | x :: rest => x.toNat * 256 ^ rest.length + beNat rest

/-- The low `n` bytes of a number, the most significant one first. -/
def beBytes : (n v : Nat) → Bytes
  | 0, _ => []
  | n + 1, v => UInt8.ofNat (v / 256 ^ n) :: beBytes n v

/-! ### Reading -/

structure Octets where
  buf : Bytes
  off : Nat
deriving DecidableEq, Repr

namespace Octets

def maxVarInt : Nat := 4611686018427387903

/-- `octets::varint_len`: nothing when the number has no encoding, which panics. -/
def varintLen (v : Nat) : Option Nat :=
  if v ≤ 63 then some 1
  else if v ≤ 16383 then some 2
  else if v ≤ 1073741823 then some 4
  else if v ≤ maxVarInt then some 8
  else none

/-- How long a varint is, by its first byte. -/
def varintParseLen (first : Nat) : Nat :=
  match first >>> 6 with
  | 0 => 1
  | 1 => 2
  | 2 => 4
  | _ => 8

def withSlice (buf : Bytes) : Octets := { buf, off := 0 }

def cap (b : Octets) : Nat := b.buf.length - b.off

/-- `to_vec`: what is left to read. -/
def toVec (b : Octets) : Bytes := b.buf.drop b.off

def peekU (len : Nat) (b : Octets) : Except BufferTooShort Nat :=
  if b.toVec.length < len then .error .bufferTooShort else .ok (beNat (b.toVec.take len))

def getU (len : Nat) (b : Octets) : Except BufferTooShort (Nat × Octets) := do
  let v ← b.peekU len
  return (v, { b with off := b.off + len })

def getU8 (b : Octets) : Except BufferTooShort (Nat × Octets) := b.getU 1

def getVarint (b : Octets) : Except BufferTooShort (Nat × Octets) := do
  let first ← b.peekU 1
  let len := varintParseLen first
  if len > b.cap then .error .bufferTooShort
  else
    let (v, b) ← b.getU len
    match len with
    | 1 => return (v, b)
    | 2 => return (v &&& 0x3fff, b)
    | 4 => return (v &&& 0x3fffffff, b)
    | _ => return (v &&& 0x3fffffffffffffff, b)

def getBytes (len : Nat) (b : Octets) : Except BufferTooShort (Octets × Octets) :=
  if b.cap < len then .error .bufferTooShort
  else .ok (withSlice (b.toVec.take len), { b with off := b.off + len })

end Octets

/-! ### Writing -/

structure OctetsMut where
  buf : Bytes
  off : Nat
deriving DecidableEq, Repr

namespace OctetsMut

def withSlice (buf : Bytes) : OctetsMut := { buf, off := 0 }

def cap (b : OctetsMut) : Nat := b.buf.length - b.off

/-- Writes over what is at the offset. -/
def put (b : OctetsMut) (v : Bytes) : OctetsMut :=
  { buf := b.buf.take b.off ++ v ++ b.buf.drop (b.off + v.length), off := b.off + v.length }

/-- What `put_varint_with_len` writes: the length goes to the top bits of the first byte. -/
def varintBytes (v len : Nat) : Bytes :=
  match len with
  | 1 => beBytes 1 v
  | 2 => (beBytes 2 v).modifyHead (· ||| 0x40)
  | 4 => (beBytes 4 v).modifyHead (· ||| 0x80)
  | _ => (beBytes 8 v).modifyHead (· ||| 0xc0)

def putVarintWithLen (v len : Nat) (b : OctetsMut) : Except BufferTooShort OctetsMut :=
  if b.cap < len then .error .bufferTooShort else .ok (b.put (varintBytes v len))

/-- `put_varint`: nothing when it panics. -/
def putVarint (v : Nat) (b : OctetsMut) : Option (Except BufferTooShort OctetsMut) := do
  let len ← Octets.varintLen v
  return b.putVarintWithLen v len

def putBytes (v : Bytes) (b : OctetsMut) : Except BufferTooShort OctetsMut :=
  if b.cap < v.length then .error .bufferTooShort else .ok (b.put v)

end OctetsMut

end Aether
