/-
The TCP side of `PsiphonSocksFront.kt`: the SOCKS5 handshake with a client, the dial through
Psiphon's own SOCKS listener, and the relay.  Of the UDP side, how a datagram is read.

Both handshakes are read through a `BufferedInputStream`.  A connection is given by what
the reads of its socket return one after the other.  `read` gives a byte or, at the end of
the stream, -1; `readFully` throws there, which closes the client.

The Java library is given by two functions: what `hostAddress` writes for the bytes of an
address, and what `getByName` finds for a text, nothing when it throws.
-/
import Aether.Lib.Buffered
import Aether.Socks.Udp

namespace Aether.Psiphon

abbrev Input := Buffered.Input UInt8

def socksVersion : UInt8 := 5
def cmdConnect : UInt8 := 1
def cmdUdpAssociate : UInt8 := 3
def atypIpv4 : UInt8 := 1
def atypDomain : UInt8 := 3
def atypIpv6 : UInt8 := 4

def repSuccess : UInt8 := 0
def repGeneralFailure : UInt8 := 1
def repHostUnreachable : UInt8 := 4
def repCmdNotSupported : UInt8 := 7

/-! ### Texts -/

/-- `String(raw, US_ASCII)`: a byte that is no ASCII character becomes the replacement
character. -/
def decodeAscii (raw : Bytes) : Text :=
  raw.map fun b => if b.toNat < 128 then Char.ofNat b.toNat else Char.ofNat 65533

/-- `toByteArray(US_ASCII)`: a character that is not ASCII becomes a question mark. -/
def encodeAscii (host : Text) : Bytes :=
  host.map fun c => if c.toNat < 128 then UInt8.ofNat c.toNat else 63

/-- What the expression `^\d{1,3}(\.\d{1,3}){3}$` matches: four groups of one to three
digits with dots between them. -/
def isDottedQuad (host : Text) : Bool :=
  let groups := host.splitOn '.'
  groups.length == 4 && groups.all fun g => g.all Char.isDigit && 1 ≤ g.length && g.length ≤ 3

def isIpv6Literal (host : Text) : Bool := host.contains ':'

def isIpLiteral (host : Text) : Bool := isIpv6Literal host || isDottedQuad host

/-! ### The client's handshake -/

/-- The reply that takes the client's offer. -/
def methodAccepted : Bytes := [socksVersion, 0]

/-- The reply of `replySuccess` and `replyFailure`. -/
def reply (code : UInt8) : Bytes := [socksVersion, code, 0, atypIpv4, 0, 0, 0, 0, 0, 0]

/-- The greeting.  An error is what is written before the client is closed. -/
def readGreeting (input : Input) : Except Bytes Input :=
  match input.read with
  | (version, input) =>
    if version ≠ some socksVersion then .error []
    else
      match input.read with
      | (none, _) => .error []
      | (some methodCount, input) =>
        if methodCount = 0 then .error []
        else
          match input.readFully methodCount.toNat with
          | none => .error []
          | some (methods, input) =>
            if methods.contains 0 then .ok input else .error [socksVersion, 0xff]

section

variable (hostAddress : Bytes → Text)

/-- An address of a fixed length. -/
def readRaw (length : Nat) (input : Input) : Except Bytes (Text × Input) :=
  match input.readFully length with
  | none => .error []
  | some (raw, input) => .ok (hostAddress raw, input)

/-- A name behind its length. -/
def readDomain (input : Input) : Except Bytes (Text × Input) :=
  match input.read with
  | (none, _) => .error []
  | (some length, input) =>
    if length = 0 then .error [] else readRaw decodeAscii length.toNat input

/-- The host, by its address type. -/
def readHost (addressType : Option UInt8) (input : Input) : Except Bytes (Text × Input) :=
  if addressType = some atypIpv4 then readRaw hostAddress 4 input
  else if addressType = some atypIpv6 then readRaw hostAddress 16 input
  else if addressType = some atypDomain then readDomain input
  else .error (reply repGeneralFailure)

/-- `read() and 0xFF`: all bits are set at the end of the stream. -/
def portByte (byte : Option UInt8) : Nat := (byte.getD 255).toNat

structure Request where
  command : Option UInt8
  host : Text
  port : Nat
deriving DecidableEq, Repr

def readRequest (input : Input) : Except Bytes (Request × Input) :=
  match input.read with
  | (version, input) =>
    if version ≠ some socksVersion then .error []
    else
      match input.read with
      | (command, input) =>
        -- the reserved byte is read and not looked at
        match input.read.2.read with
        | (addressType, input) =>
          match readHost hostAddress addressType input with
          | .error written => .error written
          | .ok (host, input) =>
            match input.read with
            | (high, input) =>
              match input.read with
              | (low, input) =>
                .ok (⟨command, host, portByte high * 256 + portByte low⟩, input)

/-- What becomes of a client. -/
inductive Outcome
  /-- It is closed after these bytes are written to it. -/
  | closed (written : Bytes)
  | udpAssociate (input : Input)
  /-- Its stream is handed to `relayThroughPsiphon`. -/
  | connect (host : Text) (port : Nat) (input : Input)
deriving DecidableEq, Repr

/-- `handleClient` up to the call of `serveUdpAssociate` or `relayThroughPsiphon`. -/
def handleClient (ipv6Usable : Bool) (input : Input) : Outcome :=
  match readGreeting input with
  | .error written => .closed written
  | .ok input =>
    match readRequest hostAddress input with
    | .error written => .closed (methodAccepted ++ written)
    | .ok (request, input) =>
      if request.command = some cmdUdpAssociate then .udpAssociate input
      else if request.command ≠ some cmdConnect then
        .closed (methodAccepted ++ reply repCmdNotSupported)
      else if isIpv6Literal request.host && !ipv6Usable then
        .closed (methodAccepted ++ reply repHostUnreachable)
      else .connect request.host request.port input

end

/-! ### The dial -/

section

variable (getByName : Text → Option Bytes)

def portBytes (port : Nat) : Bytes := [UInt8.ofNat (port / 256), UInt8.ofNat port]

/-- The request to Psiphon, nothing when it cannot be made, and the arguments of the calls
of `getByName`. -/
def connectRequest (host : Text) (port : Nat) : List Text × Option Bytes :=
  if isIpLiteral host then
    ([host], (getByName host).map fun addr =>
      [socksVersion, cmdConnect, 0, if addr.length = 16 then atypIpv6 else atypIpv4] ++ addr ++
        portBytes port)
  else
    let name := encodeAscii host
    ([], if name.length > 255 then none
      else some ([socksVersion, cmdConnect, 0, atypDomain, UInt8.ofNat name.length] ++ name ++
        portBytes port))

/-- The address in Psiphon's reply is read and dropped. -/
def skipAddress (upIn : Input) : Option Input :=
  match upIn.read with
  | (addressType, upIn) =>
    if addressType = some atypIpv4 then (upIn.readFully 4).map Prod.snd
    else if addressType = some atypIpv6 then (upIn.readFully 16).map Prod.snd
    else if addressType = some atypDomain then
      match upIn.read with
      | (none, upIn) => some upIn
      | (some length, upIn) => (upIn.readFully length.toNat).map Prod.snd
    else some upIn

/-- Psiphon's reply code, nothing when the reply is no reply or ends too soon. -/
def readReply (upIn : Input) : Option (UInt8 × Input) :=
  match upIn.read with
  | (version, upIn) =>
    if version ≠ some socksVersion then none
    else
      match upIn.read with
      | (none, _) => none
      | (some code, upIn) =>
        (skipAddress upIn.read.2).bind fun upIn =>
          (upIn.readFully 2).map fun bound => (code, bound.2)

/-- A dial: the calls of `getByName`, the bytes written to Psiphon's listener, the reply
code, and the stream when there is one. -/
structure Dial where
  lookups : List Text := []
  written : Bytes := []
  refusal : Option UInt8 := none
  stream : Option Input := none
deriving DecidableEq, Repr

/-- `openPsiphonStream`, given what the listener's socket returns, nothing when it cannot be
connected to. -/
def openPsiphonStream (listener : Option Input) (host : Text) (port : Nat) : Dial :=
  match listener with
  | none => {}
  | some upIn =>
    let greeting := [socksVersion, 1, 0]
    match upIn.read with
    | (version, upIn) =>
      match upIn.read with
      | (method, upIn) =>
        if version ≠ some socksVersion ∨ method ≠ some 0 then { written := greeting }
        else
          match connectRequest getByName host port with
          | (lookups, none) => { lookups, written := greeting }
          | (lookups, some request) =>
            match readReply upIn with
            | none => { lookups, written := greeting ++ request }
            | some (code, upIn) =>
              { lookups, written := greeting ++ request, refusal := some code,
                stream := if code = repSuccess then some upIn else none }

/-! ### The relay -/

/-- `pipe`: everything the reads of the source return. -/
def pipe (reads : List Bytes) : Bytes := reads.flatten

/-- What serving one client does: the bytes of the handshake written to it, the calls of
`getByName`, the bytes written to Psiphon's listener for it, and those that go up the Psiphon
stream when it is relayed. -/
structure Served where
  replies : Bytes
  lookups : List Text := []
  written : Bytes := []
  upload : Option Bytes := none
deriving DecidableEq, Repr

/-- `relayThroughPsiphon`, as far as the client's bytes go.  The pump up reads
`client.getInputStream()`, not the buffered stream of the handshake. -/
def relayThroughPsiphon (listener : Option Input) (host : Text) (port : Nat) (input : Input) :
    Served :=
  let dial := openPsiphonStream getByName listener host port
  match dial.stream with
  | none =>
    let code := match dial.refusal with
      | some code => if code = 0 then repGeneralFailure else code
      | none => repGeneralFailure
    { replies := methodAccepted ++ reply code, lookups := dial.lookups, written := dial.written }
  | some _ =>
    { replies := methodAccepted ++ reply repSuccess, lookups := dial.lookups,
      written := dial.written, upload := some (pipe input.chunks) }

/-- The reply of `serveUdpAssociate`, given the local port of its relay socket, nothing when it
cannot be opened. -/
def serveUdpAssociate (relay : Option Nat) : Served :=
  match relay with
  | none => { replies := methodAccepted ++ reply repGeneralFailure }
  | some bound =>
    { replies := methodAccepted ++ [socksVersion, repSuccess, 0, atypIpv4, 127, 0, 0, 1] ++
        portBytes bound }

/-- A client whose socket returns these pieces is served. -/
def serve (hostAddress : Bytes → Text) (ipv6Usable : Bool) (listener : Option Input)
    (relay : Option Nat) (chunks : List Bytes) : Served :=
  match handleClient hostAddress ipv6Usable ⟨[], chunks⟩ with
  | .closed written => { replies := written }
  | .udpAssociate _ => serveUdpAssociate relay
  | .connect host port input => relayThroughPsiphon getByName listener host port input

end

/-! ### Datagrams -/

structure UdpRequest where
  header : Bytes
  /-- The address and the port as they stand in the header; nothing for a name. -/
  address : Option Bytes
  isIpv6 : Bool
  port : UInt16
  payload : Bytes
deriving DecidableEq, Repr

/-- How many bytes the address takes, by its type. -/
def addressLength (datagram : Bytes) : Option Nat :=
  if datagram.getD 3 0 = atypIpv4 then some 4
  else if datagram.getD 3 0 = atypIpv6 then some 16
  else if datagram.getD 3 0 = atypDomain then some ((datagram.getD 4 0).toNat + 1)
  else none

def parseUdpRequest (datagram : Bytes) : Option UdpRequest :=
  if datagram.length < 10 then none
  else if datagram.getD 2 0 ≠ 0 then none
  else do
    let length ← addressLength datagram
    let portOffset := 4 + length
    if datagram.length < portOffset + 2 then none
    else
      let headerLength := portOffset + 2
      some { header := datagram.take headerLength
             address :=
               if datagram.getD 3 0 = atypDomain then none
               else some (Socks.slice datagram 4 (headerLength - 4))
             isIpv6 := datagram.getD 3 0 == atypIpv6
             port := u16FromBe (Socks.slice datagram portOffset 2)
             payload := datagram.drop headerLength }

end Aether.Psiphon
