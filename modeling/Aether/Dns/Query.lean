/-
DNS queries and the check of what comes back, as `socks.rs` and `dns.rs` have them.

Both build a query from the pieces of a name between its dots; only `dns.rs` leaves empty
pieces out.  Both check a response with the same code.  A length octet is the low byte of a
label's length.
-/
import Aether.Socks.Udp

namespace Aether

/-- A label as it is written: its length and its bytes. -/
def writeLabel (label : Text) : Bytes :=
  let bytes := Utf8.encode label
  UInt8.ofNat bytes.length :: bytes

/-- A query with these labels: header, question, class IN. -/
def writeQuery (id : UInt16) (labels : List Text) (qtype : UInt16) : Bytes :=
  u16ToBe id ++ [0x01, 0x00] ++ [0x00, 0x01] ++ [0x00, 0x00, 0x00, 0x00, 0x00, 0x00] ++
    labels.flatMap writeLabel ++ [0x00] ++ u16ToBe qtype ++ [0x00, 0x01]

/-- `eq_ignore_ascii_case` of byte strings. -/
def bytesEqIgnoreCase (a b : Bytes) : Bool :=
  let lower := fun x : UInt8 => if 65 ≤ x ∧ x ≤ 90 then x + 32 else x
  a.map lower == b.map lower

/-- The loop over the labels of the expected name: the position after them. -/
def matchLabels (resp : Bytes) : List Text → Nat → Option Nat
  | [], pos => some pos
  | label :: rest, pos =>
    if label = [] then matchLabels resp rest pos
    else
      match resp[pos]? with
      | none => none
      | some len =>
        if len.toNat ≠ (Utf8.encode label).length then none
        else
          let pos := pos + 1
          let stop := pos + len.toNat
          if resp.length < stop then none
          else if bytesEqIgnoreCase (Socks.slice resp pos len.toNat) (Utf8.encode label) then
            matchLabels resp rest stop
          else none

/-- Whether a message answers a query for this name. -/
def answersQuery (resp : Bytes) (expectedId : UInt16) (expectedName : Text)
    (expectedQtype : UInt16) : Bool :=
  if resp.length < 12 then false
  else if u16FromBe (Socks.slice resp 0 2) ≠ expectedId then false
  else if resp.getD 2 0 &&& 0x80 = 0 then false
  else if u16FromBe (Socks.slice resp 4 2) ≠ 1 then false
  else
    match matchLabels resp (expectedName.splitOn '.') 12 with
    | none => false
    | some pos =>
      if resp[pos]? ≠ some 0 then false
      else if resp.length < pos + 1 + 4 then false
      else u16FromBe (Socks.slice resp (pos + 1) 2) = expectedQtype

namespace Dns

/-- `dns::build_query`, with the id it draws. -/
def buildQuery (name : Text) (qtype id : UInt16) : Bytes :=
  writeQuery id ((name.splitOn '.').filter fun label => label ≠ []) qtype

def responseMatches (msg : Bytes) (expectedId : UInt16) (expectedName : Text)
    (expectedQtype : UInt16) : Bool :=
  answersQuery msg expectedId expectedName expectedQtype

end Dns

namespace Socks

def qtypeA : UInt16 := 1

/-- `build_dns_query`, with the id it draws. -/
def buildDnsQuery (name : Text) (qtype id : UInt16) : Bytes :=
  writeQuery id (name.splitOn '.') qtype

def dnsResponseMatches (resp : Bytes) (expectedId : UInt16) (expectedName : Text)
    (expectedQtype : UInt16) : Bool :=
  answersQuery resp expectedId expectedName expectedQtype

/-- The position after a name; a pointer ends it. -/
def skipName (buf : Bytes) : (fuel pos : Nat) → Option Nat
  | 0, _ => none
  | fuel + 1, pos =>
    match buf[pos]? with
    | none => none
    | some len =>
      if len &&& 0xc0 = 0xc0 then some (pos + 2)
      else if len = 0 then some (pos + 1)
      else skipName buf fuel (pos + 1 + len.toNat)

/-- The name at `pos`: each label moves on, so no more steps than bytes are needed. -/
def skipNameAt (buf : Bytes) (pos : Nat) : Option Nat := skipName buf (buf.length + 1) pos

/-- The answers of a message, `count` of them left: the first IPv4 address. -/
def findA (resp : Bytes) : (count pos : Nat) → Option IpAddr
  | 0, _ => none
  | count + 1, pos => do
    let pos ← skipNameAt resp pos
    if resp.length < pos + 10 then none
    else
      let rtype := beNat (slice resp pos 2)
      let rdlen := beNat (slice resp (pos + 8) 2)
      let pos := pos + 10
      if resp.length < pos + rdlen then none
      else if rtype = 1 ∧ rdlen = 4 then some (.v4 (.ofOctets (slice resp pos 4)))
      else findA resp count (pos + rdlen)

def skipQuestions (resp : Bytes) : (count pos : Nat) → Option Nat
  | 0, pos => some pos
  | count + 1, pos => do
    let pos ← skipNameAt resp pos
    skipQuestions resp count (pos + 4)

def parseDnsA (resp : Bytes) : Option IpAddr :=
  if resp.length < 12 then none
  else do
    let pos ← skipQuestions resp (beNat (slice resp 4 2)) 12
    findA resp (beNat (slice resp 6 2)) pos

/-! ### The exchange -/

inductive DnsError
  | noAnswer
  | sendFailed
  | timedOut (server : SocketAddr)
  | channelClosed
  | noRecord
deriving DecidableEq, Repr

/-- What asking one server meets: the id drawn, whether the query could be sent, the messages
that come in time, and whether the channel closes after them. -/
structure DnsEnv where
  id : UInt16
  sends : Bool
  responses : List Bytes
  closes : Bool

/-- The inner loop of `dns_exchange`; nothing when the time is up. -/
def awaitAnswer (name : Text) (id : UInt16) (closes : Bool) :
    List Bytes → Option (Except DnsError IpAddr)
  | [] => if closes then some (.error .channelClosed) else none
  | resp :: rest =>
    if dnsResponseMatches resp id name qtypeA then
      match parseDnsA resp with
      | some ip => some (.ok ip)
      | none => some (.error .noRecord)
    else awaitAnswer name id closes rest

/-- `dns_exchange`: the queries that were sent, and the result. -/
def dnsExchange (name : Text) (last : DnsError) :
    List (SocketAddr × DnsEnv) → List (SocketAddr × Bytes) × Except DnsError IpAddr
  | [] => ([], .error last)
  | (server, env) :: rest =>
    let query := buildDnsQuery name qtypeA env.id
    if env.sends then
      match awaitAnswer name env.id env.closes env.responses with
      | some result => ([(server, query)], result)
      | none =>
        let (sent, result) := dnsExchange name (.timedOut server) rest
        ((server, query) :: sent, result)
    else dnsExchange name .sendFailed rest

example : buildDnsQuery "a.bc".toList qtypeA 0x1234 =
    [0x12, 0x34, 1, 0, 0, 1, 0, 0, 0, 0, 0, 0, 1, 97, 2, 98, 99, 0, 0, 1, 0, 1] := by
  decide

end Socks

end Aether
