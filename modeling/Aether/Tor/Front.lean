/-
The UDP side of `TorSocksFront.kt`, with the framing of `TorSocksWire.kt`.

An association is served by `pumpUdp`.  It waits at the relay socket, and every wait gives a
datagram or ends after a second with nothing; what the waits give one after the other is the
schedule.  The clock moves with the waits and with the work on a datagram.
-/
import Aether.Psiphon.Front

namespace Aether.Tor

open Socks (slice)

open Psiphon (atypIpv4 atypDomain atypIpv6 decodeAscii)

def dnsPort : UInt16 := 53

structure UdpRequest where
  host : Text
  port : UInt16
  headerLength : Nat
  payload : Bytes
deriving DecidableEq, Repr

section

/-! What `hostAddress` writes for the bytes of an address. -/

variable (hostAddress : Bytes → Text)

/-- The host of a request, by its address type, and the cursor behind it. -/
def readHost (data : Bytes) (length : Nat) : Option (Text × Nat) :=
  if data.getD 3 0 = atypIpv4 then
    if length < 4 + 4 then none else some (hostAddress (slice data 4 4), 4 + 4)
  else if data.getD 3 0 = atypDomain then
    let len := (data.getD 4 0).toNat
    if len = 0 ∨ length < 5 + len then none
    else some (decodeAscii (slice data 5 len), 5 + len)
  else if data.getD 3 0 = atypIpv6 then
    if length < 4 + 16 then none else some (hostAddress (slice data 4 16), 4 + 16)
  else none

def parseUdpRequest (data : Bytes) (length : Nat) : Option UdpRequest :=
  if length < 10 ∨ data.length < length then none
  else if data.getD 2 0 ≠ 0 then none
  else do
    let (host, cursor) ← readHost hostAddress data length
    if length < cursor + 2 then none
    else
      some { host
             port := u16FromBe (slice data cursor 2)
             headerLength := cursor + 2
             payload := slice data (cursor + 2) (length - (cursor + 2)) }

def isDnsQuery (request : UdpRequest) : Bool := request.port == dnsPort

def buildUdpReply (request : Bytes) (headerLength : Nat) (answer : Bytes) : Bytes :=
  request.take headerLength ++ answer

/-! ### The pump -/

def udpBuffer : Nat := 4096
def udpIdleMs : Nat := 60000

/-- The `soTimeout` of the relay socket. -/
def relayTimeout : Nat := 1000

/-- What a wait at the relay socket gives. -/
inductive Received
  /-- Nothing, so many milliseconds after the `soTimeout` was over. -/
  | timeout (late : Nat)
  /-- A datagram after so many milliseconds, with what `resolveOverTor` answers to it, should it
  be asked, and how long the pump is busy with it. -/
  | datagram (waited : Nat) (data : Bytes) (answer : Option Bytes) (work : Nat)
deriving DecidableEq, Repr

/-- The variables of `pumpUdp` and what it looks at.  The queries that `resolveOverTor` is asked
and the replies that are sent are kept in order. -/
structure Pump where
  running : Bool := true
  relayClosed : Bool := false
  now : Nat
  lastSeen : Nat
  buffer : Bytes := List.replicate udpBuffer 0
  resolved : List Bytes := []
  replies : List Bytes := []
deriving DecidableEq, Repr

/-- The datagram that stands in the first bytes of the buffer. -/
def Pump.handle (p : Pump) (length : Nat) (answer : Option Bytes) : Pump :=
  match parseUdpRequest hostAddress p.buffer length with
  | none => p
  | some request =>
    if isDnsQuery request then
      let p := { p with resolved := p.resolved ++ [request.payload] }
      match answer with
      | none => p
      | some answer =>
        { p with replies := p.replies ++ [buildUdpReply p.buffer request.headerLength answer] }
    else p

/-- A turn of the loop, or nothing when the loop is over. -/
def Pump.turn (p : Pump) (received : Received) : Option Pump :=
  if p.running && !p.relayClosed then
    match received with
    | .timeout late =>
      let p := { p with now := p.now + (relayTimeout + late) }
      if udpIdleMs < p.now - p.lastSeen then none else some p
    | .datagram waited data answer work =>
      -- what does not fit the buffer is cut off
      let data := data.take udpBuffer
      let p := { p with
        now := p.now + waited
        lastSeen := p.now + waited
        buffer := data ++ p.buffer.drop data.length }
      let p := p.handle hostAddress data.length answer
      some { p with now := p.now + work }
  else none

def pumpUdp (p : Pump) (schedule : List Received) : Option Pump :=
  schedule.foldlM (Pump.turn hostAddress) p

end

end Aether.Tor
