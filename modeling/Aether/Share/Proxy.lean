/-
What `ShareBridge` does with one connection: `serveSocksClient` and `serveHttpClient`.

A client's connection is the whole stream of bytes it sends.  The values the credential has
when it is read, what the upstream answers and how far the relay gets are arguments.
-/
import Aether.Share.Guard
import Aether.Socks.Http

namespace Aether.Share

open LanGuard (latin1Bytes startsWithIgnoreCase parseBasicCredential secretEquals)

/-! ### Bytes and lines -/

/-- `ISO_8859_1`. -/
def latin1 (bytes : Bytes) : Text := bytes.map fun b => Char.ofNat b.toNat

/-- `split("\r\n")`. -/
def lines : Text → List Text
  | [] => [[]]
  | '\r' :: '\n' :: rest => [] :: lines rest
  | c :: rest =>
    match lines rest with
    | [] => [[c]]
    | line :: more => (c :: line) :: more

/-- `lowercase`, for Latin-1. -/
def lowercase (t : Text) : Text :=
  t.map fun c =>
    if 0xc0 ≤ c.toNat ∧ c.toNat ≤ 0xde ∧ c.toNat ≠ 0xd7 then Char.ofNat (c.toNat + 32)
    else c.toLower

/-- `readExact`. -/
def readExact (n : Nat) (input : Bytes) : Option (Bytes × Bytes) :=
  if input.length < n then none else some (input.take n, input.drop n)

def maxHeaderBytes : Nat := 64 * 1024

/-- How much of `CRLFCRLF` was seen after another byte. -/
def runAfter (run : Nat) (b : UInt8) : Nat :=
  if b = 13 ∧ (run = 0 ∨ run = 2) then run + 1
  else if b = 10 ∧ (run = 1 ∨ run = 3) then run + 1
  else 0

/-- The loop of `readHeaderBlock` with `room` bytes to go: the bytes read, and the rest. -/
def headerLoop : (room run : Nat) → Bytes → Option (Bytes × Bytes)
  | 0, _, _ => none
  | _ + 1, _, [] => none
  | room + 1, run, b :: rest =>
    if runAfter run b = 4 then some ([b], rest)
    else (headerLoop room (runAfter run b) rest).map fun (head, rest) => (b :: head, rest)

def readHeaderBlock (input : Bytes) : Option (Bytes × Bytes) := headerLoop maxHeaderBytes 0 input

/-! ### Numbers and cuts -/

/-- A sign, and the digits behind it. -/
def splitSign : Text → Bool × Text
  | '-' :: digits => (true, digits)
  | '+' :: digits => (false, digits)
  | digits => (false, digits)

/-- The number that decimal digits stand for. -/
def decimal (digits : Text) : Nat := digits.foldl (fun n c => n * 10 + (c.toNat - '0'.toNat)) 0

/-- `toIntOrNull`: a sign, decimal digits, and 32 bits. -/
def toIntOrNull (t : Text) : Option Int :=
  let (negative, digits) := splitSign t
  if digits = [] ∨ !digits.all Char.isDigit then none
  else
    let v : Int := if negative then -(decimal digits : Int) else decimal digits
    if -2147483648 ≤ v ∧ v ≤ 2147483647 then some v else none

def substringBefore (c : Char) (t : Text) : Text := ((Text.splitOnce [c] t).map (·.1)).getD t

def substringAfter (c : Char) (missing t : Text) : Text :=
  ((Text.splitOnce [c] t).map (·.2)).getD missing

def substringBeforeLast (c : Char) (t : Text) : Text := ((Text.rsplitOnce c t).map (·.1)).getD t

def substringAfterLast (c : Char) (t : Text) : Text := ((Text.rsplitOnce c t).map (·.2)).getD t

/-! ### The upstream -/

def greeting : Bytes := [5, 1, 0]

/-- The request of `socksOpen`; `write(int)` takes the low eight bits. -/
def socksRequest (host : Text) (port : Int) : Bytes :=
  [5, 1, 0, 3] ++ UInt8.ofNat (latin1Bytes host).length :: latin1Bytes host ++
    [UInt8.ofNat ((port / 256) % 256).toNat, UInt8.ofNat (port % 256).toNat]

/-- The answer to the greeting. -/
def greeted (answers : Bytes) : Option Bytes := do
  let (greet, rest) ← readExact 2 answers
  if greet = [5, 0] then return rest else none

/-- The answer to the request was read whole and is a success. -/
def connected (answers : Bytes) : Bool :=
  match readExact 4 answers with
  | some ([_, code, _, atyp], rest) =>
    code == 0 &&
      if atyp = 1 then (readExact 6 rest).isSome
      else if atyp = 3 then
        match rest with
        | len :: rest => (readExact (len.toNat + 2) rest).isSome
        | [] => false
      else if atyp = 4 then (readExact 18 rest).isSome
      else false
  | _ => false

/-- `socksOpen`: what it wrote, and whether it succeeded; no answers is a failed dial. -/
def socksOpen (host : Text) (port : Int) : (answers : Option Bytes) → Bytes × Bool
  | none => ([], false)
  | some answers =>
    match greeted answers with
    | none => (greeting, false)
    | some answers => (greeting ++ socksRequest host port, connected answers)

/-! ### Connections -/

/-- What the environment gives to a connection. -/
structure Env where
  sha256 : Bytes → Bytes
  /-- The credential, as it was read. -/
  user : Text
  password : Text
  /-- What the upstream sends, if it can be reached. -/
  answers : Option Bytes
  /-- The bytes the relay gets through to the upstream. -/
  relayed : Nat

/-- What is dialled for a client; the SOCKS share names no destination of its own. -/
inductive Dial
  | raw
  | destination (host : Text) (port : Int)
deriving DecidableEq, Repr

structure Exchange where
  /-- What the bridge itself writes to the client. -/
  replies : Bytes
  dialled : Option Dial
  /-- What is written to the upstream socket. -/
  upstream : Bytes
deriving DecidableEq, Repr

def Exchange.refused (replies : Bytes) : Exchange := ⟨replies, none, []⟩

/-! ### `serveHttpClient` -/

def proxyAuthHeader : Text := "proxy-authorization:".toList

def httpAuthorized (env : Env) (headerLines : List Text) : Bool :=
  if Text.isBlank env.password then false
  else
    match headerLines.find? (fun line =>
      proxyAuthHeader.length < line.length && startsWithIgnoreCase proxyAuthHeader line) with
    | none => false
    | some header =>
      match parseBasicCredential (header.drop proxyAuthHeader.length) with
      | none => false
      | some (user, password) =>
        secretEquals env.sha256 env.user user && secretEquals env.sha256 env.password password

def authRequired : Text :=
  "HTTP/1.1 407 Proxy Authentication Required\r\n".toList ++
    "Proxy-Authenticate: Basic realm=\"Aether\", charset=\"UTF-8\"\r\n".toList ++
    "Content-Length: 0\r\nConnection: close\r\n\r\n".toList

def badGateway : Text := "HTTP/1.1 502 Bad Gateway\r\nConnection: close\r\n\r\n".toList

def badRequest : Text := "HTTP/1.1 400 Bad Request\r\nConnection: close\r\n\r\n".toList

def established : Text := "HTTP/1.1 200 Connection Established\r\n\r\n".toList

/-- A header line that is not passed on. -/
def isDropped (line : Text) : Bool :=
  "proxy-connection:".toList.isPrefixOf (lowercase line) ||
    proxyAuthHeader.isPrefixOf (lowercase line) || "connection:".toList.isPrefixOf (lowercase line)

/-- The head that is passed on. -/
def rebuilt (method path version : Text) (headerLines : List Text) : Text :=
  method ++ ' ' :: path ++ ' ' :: version ++ Socks.crlf ++
    (headerLines.filter fun line => line ≠ [] && !isDropped line).flatMap (· ++ Socks.crlf) ++
    "Connection: close".toList ++ Socks.crlf ++ Socks.crlf

def connectHost (target : Text) : Text := substringBeforeLast ':' target

def connectPort (target : Text) : Int := (toIntOrNull (substringAfterLast ':' target)).getD 443

/-- The `hostPort` of the rest of an `http` URI. -/
def urlHostPort (url : Text) : Text := substringBefore '/' url

def urlPath (url : Text) : Text := '/' :: substringAfter '/' [] url

def urlHost (url : Text) : Text := substringBefore ':' (urlHostPort url)

def urlPort (url : Text) : Int :=
  (toIntOrNull (substringAfter ':' "80".toList (urlHostPort url))).getD 80

/-- A CONNECT, and what the client sent after its head. -/
def serveConnect (env : Env) (target : Text) (rest : Bytes) : Exchange :=
  let dial := Dial.destination (connectHost target) (connectPort target)
  match socksOpen (connectHost target) (connectPort target) env.answers with
  | (written, false) => ⟨latin1Bytes badGateway, some dial, written⟩
  | (written, true) =>
    ⟨latin1Bytes established, some dial, written ++ rest.take env.relayed⟩

/-- A request with an absolute URI. -/
def serveAbsolute (env : Env) (method target version : Text) (headerLines : List Text)
    (rest : Bytes) : Exchange :=
  match Text.strip "http://".toList target with
  | none => .refused (latin1Bytes badRequest)
  | some url =>
    let dial := Dial.destination (urlHost url) (urlPort url)
    match socksOpen (urlHost url) (urlPort url) env.answers with
    | (written, false) => ⟨latin1Bytes badGateway, some dial, written⟩
    | (written, true) =>
      ⟨[], some dial, written ++
        latin1Bytes (rebuilt method (urlPath url) version headerLines) ++
        rest.take env.relayed⟩

/-- A head that was read, and what the client sent after it. -/
def serveHead (env : Env) (client : Option IpAddr) (headerLines : List Text) (rest : Bytes) :
    Exchange :=
  match (headerLines.headD []).splitOn ' ' with
  | method :: target :: version :: _ =>
    if !LanGuard.isLoopback client && !httpAuthorized env headerLines then
      .refused (latin1Bytes authRequired)
    else if Text.eqIgnoreAsciiCase method "CONNECT".toList then serveConnect env target rest
    else serveAbsolute env method target version headerLines.tail rest
  | _ => .refused []

def serveHttpClient (env : Env) (client : Option IpAddr) (input : Bytes) : Exchange :=
  match readHeaderBlock input with
  | none => .refused []
  | some (header, rest) => serveHead env client (lines (latin1 header)) rest

/-! ### `serveSocksClient` -/

/-- The user and the password a client offers by RFC 1929, and what comes after them; what the
bridge replied on the way is the first part. -/
def offeredSocks (input : Bytes) : Bytes × Option (Text × Text × Bytes) :=
  match readExact 2 input with
  | some ([version, methodCount], input) =>
    if version ≠ 5 ∨ methodCount = 0 then ([], none)
    else
      match readExact methodCount.toNat input with
      | none => ([], none)
      | some (methods, input) =>
        if 2 ∉ methods then ([5, 0xff], none)
        else
          ([5, 2], do
            let (header, input) ← readExact 2 input
            if header.head? ≠ some 1 then none
            else
              let (user, input) ← readExact (header.getD 1 0).toNat input
              let (passLen, input) ← readExact 1 input
              let (password, input) ← readExact (passLen.getD 0 0).toNat input
              return (Utf8.decodeLossy user, Utf8.decodeLossy password, input))
  | _ => ([], none)

/-- `authenticateSocks`: the replies, and the rest of the input if the client may go on. -/
def authenticateSocks (env : Env) (input : Bytes) : Bytes × Option Bytes :=
  if Text.isBlank env.password then ([], none)
  else
    match offeredSocks input with
    | (replies, none) => (replies, none)
    | (replies, some (user, password, rest)) =>
      if secretEquals env.sha256 env.user user && secretEquals env.sha256 env.password password
      then (replies ++ [1, 0], some rest)
      else (replies ++ [1, 1], none)

/-- `relayToLocalSocks`. -/
def relayToLocalSocks (env : Env) (replies : Bytes) (greetUpstream : Bool) (rest : Bytes) :
    Exchange :=
  match env.answers with
  | none => ⟨replies, some .raw, []⟩
  | some answers =>
    if greetUpstream then
      match greeted answers with
      | none => ⟨replies, some .raw, greeting⟩
      | some _ => ⟨replies, some .raw, greeting ++ rest.take env.relayed⟩
    else ⟨replies, some .raw, rest.take env.relayed⟩

def serveSocksClient (env : Env) (client : Option IpAddr) (input : Bytes) : Exchange :=
  if LanGuard.isLoopback client then relayToLocalSocks env [] false input
  else
    match authenticateSocks env input with
    | (replies, none) => .refused replies
    | (replies, some rest) => relayToLocalSocks env replies true rest

/-! ### What clients send -/

/-- A Proxy-Authorization header line, in any case. -/
def isAuthLine (line : Text) : Bool := proxyAuthHeader.isPrefixOf (lowercase line)

/-- Such a line is among the lines of these bytes. -/
def hasAuthLine (bytes : Bytes) : Bool := (lines (latin1 bytes)).any isAuthLine

/-- A request with an absolute URI, `http://` taken off. -/
structure Request where
  method : Text
  url : Text
  version : Text
  headers : List Text
  body : Bytes

def Request.line (r : Request) : Text :=
  r.method ++ ' ' :: ("http://".toList ++ r.url) ++ ' ' :: r.version

def Request.head (r : Request) : Text :=
  r.line ++ Socks.crlf ++ r.headers.flatMap (· ++ Socks.crlf) ++ Socks.crlf

def Request.bytes (r : Request) : Bytes := latin1Bytes r.head ++ r.body

/-- The request is one by the grammar, as far as it matters where it is cut, and carries a
Proxy-Authorization header line. -/
structure Request.WellFormed (r : Request) : Prop where
  latin : ∀ c ∈ r.head, c.toNat < 256
  method : ∀ c ∈ r.method, c ≠ ' ' ∧ c ≠ ':'
  notConnect : Text.eqIgnoreAsciiCase r.method "CONNECT".toList = false
  url : ' ' ∉ r.url
  version : ' ' ∉ r.version
  line : '\r' ∉ r.line ∧ '\n' ∉ r.line
  headers : ∀ h ∈ r.headers, h ≠ [] ∧ '\r' ∉ h ∧ '\n' ∉ h
  carries : ∃ h ∈ r.headers, isAuthLine h = true

end Aether.Share
