/-
The SOCKS5 UDP headers: the pair `socks.rs` uses toward its clients and the pair
`upstream.rs` uses toward the proxy in front of the tunnel.

A buffer is read by position, as the source does it; every position is checked against the
length first.
-/
import Aether.Lib.Utf8
import Aether.Routing.Rules

namespace Aether

namespace Socks

def ver : UInt8 := 0x05
def atypV4 : UInt8 := 0x01
def atypDomain : UInt8 := 0x03
def atypV6 : UInt8 := 0x04

/-- The bytes of a buffer from `pos` on, `len` of them. -/
def slice (buf : Bytes) (pos len : Nat) : Bytes := (buf.drop pos).take len

/-- The target in a request, which starts at `pos`, and the position after it. -/
def parseUdpTarget (buf : Bytes) (atyp : UInt8) (pos : Nat) : Option (Target × Nat) :=
  if atyp = atypV4 then
    if buf.length < pos + 4 then none
    else some (.ip (.v4 (.ofOctets (slice buf pos 4))), pos + 4)
  else if atyp = atypV6 then
    if buf.length < pos + 16 then none
    else some (.ip (.v6 (.ofOctets (slice buf pos 16))), pos + 16)
  else if atyp = atypDomain then do
    let len ← buf[pos]?
    let pos := pos + 1
    if buf.length < pos + len.toNat then none
    else some (.domain (Utf8.decodeLossy (slice buf pos len.toNat)), pos + len.toNat)
  else none

def parseUdpRequest (buf : Bytes) : Option (Target × UInt16 × Bytes) :=
  if buf.length < 4 ∨ buf.getD 2 0 ≠ 0 then none
  else do
    let (target, pos) ← parseUdpTarget buf (buf.getD 3 0) 4
    if buf.length < pos + 2 then none
    else some (target, u16FromBe (slice buf pos 2), buf.drop (pos + 2))

def buildUdpReply (src : StdSocketAddr) (data : Bytes) : Bytes :=
  let pkt := [0x00, 0x00, 0x00]
  let pkt :=
    match src.ip with
    | .v4 v4 => pkt ++ [atypV4] ++ v4.octets
    | .v6 v6 => pkt ++ [atypV6] ++ v6.octets
  pkt ++ u16ToBe src.port ++ data

end Socks

namespace Upstream

open Socks (atypV4 atypV6 slice)

def atypName : UInt8 := 0x03

def encodeAddress (target : StdSocketAddr) : Bytes :=
  let out :=
    match target.ip with
    | .v4 v4 => [atypV4] ++ v4.octets
    | .v6 v6 => [atypV6] ++ v6.octets
  out ++ u16ToBe target.port

def encodeUdpHeader (target : StdSocketAddr) : Bytes :=
  [0x00, 0x00, 0x00] ++ encodeAddress target

/-- The address a header names, and where the payload starts. -/
def decodeUdpHeader (buf : Bytes) : Option (StdSocketAddr × Nat) :=
  if buf.length < 4 ∨ buf.getD 2 0 ≠ 0x00 then none
  else if buf.getD 3 0 = atypV4 then
    if buf.length < 10 then none
    else some (.new (.v4 (.ofOctets (slice buf 4 4))) (u16FromBe (slice buf 8 2)), 10)
  else if buf.getD 3 0 = atypV6 then
    if buf.length < 22 then none
    else some (.new (.v6 (.ofOctets (slice buf 4 16))) (u16FromBe (slice buf 20 2)), 22)
  else if buf.getD 3 0 = atypName then do
    let length ← buf[4]?
    let stop := 5 + length.toNat
    if buf.length < stop + 2 then none
    else
      let port := u16FromBe (slice buf stop 2)
      let name ← Utf8.decode (slice buf 5 length.toNat)
      let ip ← parseIpAddr name
      return (.new ip port, stop + 2)
  else none

end Upstream

end Aether
