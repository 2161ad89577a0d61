/-
The three HTTP forwarders of `socks.rs`.

A handler gets what its environment answers: the reads of the client's socket, how the
connections it opens turn out, and the chunks the remote side sends.  It returns the two
streams it writes to.  A write that fails ends the handler.  The relay at the end runs until
both sides have ended; a flush counts as part of the write before it.
-/
import Aether.Lib.Sink
import Aether.Socks.Http

namespace Aether.Socks

open Routing

/-- Where bytes come from: made by the handler, or passed on from the other side. -/
inductive Origin
  | own | relayed
deriving DecidableEq, Repr

/-- The two sides of a connection, as the handler writes to them. -/
structure Ends where
  client : Sink Origin UInt8
  remote : Sink Origin UInt8

namespace Ends

def fresh : Ends := { client := .fresh, remote := .fresh }

/-- A write to the client; what follows happens if it succeeds. -/
def toClient (e : Ends) (origin : Origin) (data : Bytes) (next : Ends → Ends) : Ends :=
  match e.client.write origin data with
  | (true, client) => next { e with client }
  | (false, client) => { e with client }

def toRemote (e : Ends) (origin : Origin) (data : Bytes) (next : Ends → Ends) : Ends :=
  match e.remote.write origin data with
  | (true, remote) => next { e with remote }
  | (false, remote) => { e with remote }

end Ends

/-- The chunks a pump gets from a socket: until it is closed or a read fails. -/
def chunks : List (Option Bytes) → List Bytes
  | [] => []
  | none :: _ => []
  | some chunk :: reads => if chunk = [] then [] else chunk :: chunks reads

/-- `relay_generic`, `relay_tunneled`, `relay_direct`: each side's bytes go to the other. -/
def relay (later : List (Option Bytes)) (down : List Bytes) (e : Ends) : Ends :=
  { client := (e.client.writeEach .relayed down).2
    remote := (e.remote.writeEach .relayed (chunks later)).2 }

/-- How a direct connection turns out. -/
inductive Dial
  | noPeer | denied | failed | connected
deriving DecidableEq, Repr

/-- What the environment of a request answers: the client's reads, the bytes a tunnel opened
with or its failure, the direct connection, and what the remote side sends. -/
structure HttpEnv where
  reads : List (Option Bytes)
  opened : Option Bytes
  dial : Dial
  down : List Bytes

def badRequest : Bytes := Utf8.encode "HTTP/1.1 400 Bad Request\r\nConnection: close\r\n\r\n".toList
def forbidden : Bytes := Utf8.encode "HTTP/1.1 403 Forbidden\r\nConnection: close\r\n\r\n".toList
def badGateway : Bytes := Utf8.encode "HTTP/1.1 502 Bad Gateway\r\nConnection: close\r\n\r\n".toList
def established : Bytes := Utf8.encode "HTTP/1.1 200 Connection established\r\n\r\n".toList

/-- What goes out in place of the head: the rewritten line and what follows the first line. -/
def rewrittenHead (line : Text) (head : Bytes) : Bytes :=
  let rest :=
    match Text.splitOnce crlf (Utf8.decodeLossy head) with
    | some (_, tail) => tail
    | none => []
  Utf8.encode (line ++ rest)

/-- The bytes that came with the head, if there are any. -/
def sendEarly (early : Bytes) (next : Ends → Ends) (e : Ends) : Ends :=
  if early = [] then next e else e.toRemote .relayed early next

def relayHttpDirect (env : HttpEnv) (request : HttpRequestLine) (head early : Bytes)
    (later : List (Option Bytes)) (e : Ends) : Ends :=
  let finish := sendEarly early (relay later env.down)
  match env.dial with
  | .noPeer => e
  | .denied => e.toClient .own forbidden id
  | .failed => e.toClient .own badGateway id
  | .connected =>
    match request.rewritten with
    | some line => e.toRemote .own (rewrittenHead line head) finish
    | none => e.toClient .own established finish

/-- The target of a request. -/
def requestTarget (request : HttpRequestLine) : Target :=
  match parseIpAddr request.authority with
  | some ip => .ip ip
  | none => .domain request.authority

variable (lower : Text → Text) (set : RuleSet)

/-- `handle_http_through`: `opened` is the connection that `connect` gives, without bytes. -/
def handleHttpThrough (env : HttpEnv) (e : Ends) : Ends :=
  match readHead [] env.reads with
  | .error _ => e
  | .ok (head, early, later) =>
    let firstLine := Text.firstLine (Utf8.decodeLossy head)
    match parseRequestLine firstLine with
    | none => e.toClient .own badRequest id
    | some request =>
      match set.decide lower (hostOf (requestTarget request)) request.port with
      | .block => e.toClient .own forbidden id
      | .direct => relayHttpDirect env request head early later e
      | .proxy =>
        let finish := sendEarly early (relay later env.down)
        match env.opened with
        | none => e.toClient .own badGateway id
        | some _ =>
          match request.rewritten with
          | some line => e.toRemote .own (rewrittenHead line head) finish
          | none => e.toClient .own established finish

/-- `handle_http_client`: `opened` is what `open_tunneled` gives, with what the gateway sent
behind its answer. -/
def handleHttpClient (env : HttpEnv) (e : Ends) : Ends :=
  match readHead [] env.reads with
  | .error _ => e
  | .ok (head, early, later) =>
    let firstLine := Text.firstLine (Utf8.decodeLossy head)
    match parseRequestLine firstLine with
    | none => e.toClient .own badRequest id
    | some request =>
      match set.decide lower (hostOf (requestTarget request)) request.port with
      | .block => e.toClient .own forbidden id
      | .direct => relayHttpDirect env request head early later e
      | .proxy =>
        match env.opened with
        | none => e.toClient .own badGateway id
        | some leftover =>
          let finish := sendEarly early (relay later env.down)
          let preamble := fun e : Ends =>
            match request.rewritten with
            | some line => e.toRemote .own (rewrittenHead line head) finish
            | none => finish e
          let answer := fun e : Ends =>
            if leftover = [] then preamble e else e.toClient .relayed leftover preamble
          match request.rewritten with
          | none => e.toClient .own established answer
          | some _ => answer e

end Aether.Socks
