/-
The HTTP side of `socks.rs`: request heads, request lines, and the CONNECT head sent to the
gateway proxy.

Bytes and texts are kept apart, as the source does: a head is bytes, it is decoded lossily,
and lines and words are looked for in the text.
-/
import Aether.Socks.Udp

namespace Aether.Socks

def cr : UInt8 := 13
def lf : UInt8 := 10

/-- What ends a head. -/
def crlfcrlf : Bytes := [cr, lf, cr, lf]

def crlf : Text := ['\r', '\n']

/-- `UA_REGISTER`. -/
def uaRegister : Text := "WARP for Android".toList

/-! ### Targets -/

/-- `read_target`: from the bytes after the address type; nothing when they run out. -/
def readTarget (atyp : UInt8) (input : Bytes) : Option (Target × UInt16 × Bytes) := do
  let (target, input) ←
    if atyp = atypV4 then
      if input.length < 4 then none
      else some (.ip (.v4 (.ofOctets (input.take 4))), input.drop 4)
    else if atyp = atypV6 then
      if input.length < 16 then none
      else some (.ip (.v6 (.ofOctets (input.take 16))), input.drop 16)
    else if atyp = atypDomain then do
      let len ← input.head?
      let input := input.drop 1
      if input.length < len.toNat then none
      else some (.domain (Utf8.decodeLossy (input.take len.toNat)), input.drop len.toNat)
    else none
  if input.length < 2 then none
  else some (target, u16FromBe (input.take 2), input.drop 2)

/-! ### Request lines -/

structure HttpRequestLine where
  method : Text
  authority : Text
  port : Nat
  rewritten : Option Text
deriving DecidableEq, Repr

/-- `parse::<u16>`. -/
def parseU16 (t : Text) : Option Nat := Text.parseUnsigned 65536 t

def parseAuthority (raw : Text) (defaultPort : Nat) : Option (Text × Nat) :=
  let raw := Text.trim raw
  if raw = [] then none
  else
    match Text.strip ['['] raw with
    | some rest => do
      let (host, tail) ← Text.splitOnce [']'] rest
      if host = [] then none
      else
        match Text.strip [':'] tail with
        | some value => do
          let port ← parseU16 value
          return (host, port)
        | none => return (host, defaultPort)
    | none =>
      match Text.rsplitOnce ':' raw with
      | some (host, port) =>
        if ':' ∈ host then some (raw, defaultPort)
        else if host = [] then none
        else do
          let port ← parseU16 port
          return (host, port)
      | none => some (raw, defaultPort)

/-- A target in absolute form, without its scheme. -/
def withoutScheme (target : Text) : Option Text :=
  (Text.strip "http://".toList target).or (Text.strip "HTTP://".toList target)

def parseRequestLine (line : Text) : Option HttpRequestLine :=
  match Text.splitWhitespace line with
  | method :: target :: parts =>
    let version := parts.headD "HTTP/1.1".toList
    if Text.eqIgnoreAsciiCase method "CONNECT".toList then do
      let (authority, port) ← parseAuthority target 443
      return { method, authority, port, rewritten := none }
    else do
      let rest ← withoutScheme target
      let (authorityPart, path) :=
        match Text.splitOnce ['/'] rest with
        | some (before, after) => (before, '/' :: after)
        | none => (rest, ['/'])
      let (authority, port) ← parseAuthority authorityPart 80
      return { method, authority, port,
               rewritten := some (method ++ [' '] ++ path ++ [' '] ++ version ++ crlf) }
  | _ => none

/-! ### The gateway's CONNECT -/

/-- The target and port as one word, a bare IPv6 address in brackets. -/
def proxyAuthority (target : Text) (port : Nat) : Text :=
  if ':' ∈ target ∧ target.head? ≠ some '[' then
    ['['] ++ target ++ [']', ':'] ++ Nat.toDigits 10 port
  else target ++ [':'] ++ Nat.toDigits 10 port

def buildProxyConnect (target : Text) (port : Nat) : Bytes :=
  let authority := proxyAuthority target port
  Utf8.encode ("CONNECT ".toList ++ authority ++ " HTTP/1.1".toList ++ crlf ++
    ("Host: ".toList ++ authority ++ crlf) ++
    ("User-Agent: ".toList ++ uaRegister ++ crlf) ++ crlf)

/-- Whether the answer is a success; nothing when it is malformed. -/
def proxyConnectSucceeded (head : Bytes) : Option Bool := do
  let (line, _) ← Text.splitOnce crlf (Utf8.decodeLossy head)
  let word ← (Text.splitWhitespace line)[1]?
  let status ← parseU16 word
  return 200 ≤ status && status < 300

/-- Where the head ends. -/
def findHeadEnd (buffer : Bytes) : Option Nat :=
  (Text.splitOnce crlfcrlf buffer).map fun (before, _) => before.length + 4

/-! ### Reading a head -/

def httpHeadLimit : Nat := 16 * 1024

inductive HeadError
  | closed | io | tooLarge | timedOut
deriving DecidableEq, Repr

/-- `read_head` under its timeout.  `reads` is what the client's socket gives, a failed read
being nothing; when it gives no more, the time is up.  Returns the head, what came behind it,
and the reads that are left. -/
def readHead (buf : Bytes) : List (Option Bytes) →
    Except HeadError (Bytes × Bytes × List (Option Bytes))
  | [] => .error .timedOut
  | none :: _ => .error .io
  | some chunk :: reads =>
    if chunk = [] then .error .closed
    else
      -- an end that began in the bytes before is found as well
      let searchFrom := buf.length - 3
      let buf := buf ++ chunk
      match Text.splitOnce crlfcrlf (buf.drop searchFrom) with
      | some (before, early) => .ok (buf.take searchFrom ++ before ++ crlfcrlf, early, reads)
      | none => if httpHeadLimit < buf.length then .error .tooLarge else readHead buf reads

example : parseRequestLine "GET http://a.b:81/x?y HTTP/1.0".toList =
    some { method := "GET".toList, authority := "a.b".toList, port := 81,
           rewritten := some ("GET /x?y HTTP/1.0\r\n".toList) } := by
  decide

end Aether.Socks
