/-
How a SOCKS CONNECT is served: the gateway proxy, the straight way through the tunnel, direct
connections, and the replies to the client.

What all requests share is the state of the gateway; a ghost trace records which way each
target was opened.  `sniff::hostname` is the parameter `hostname`.
-/
import Aether.Socks.Forward

namespace Aether.Socks

open Routing

/-! ### The gateway -/

/-- How a target was opened: the gateway was asked for it, or the tunnel led straight there. -/
inductive Opening
  | asked (target : Target) (port : Nat)
  | straight (target : Target) (port : Nat)
deriving DecidableEq, Repr

/-- `GATEWAY_PROXY` and `GATEWAY_HEALTHY`, with the trace. -/
structure Process where
  proxy : Option SocketAddr
  healthy : Bool
  trace : List Opening

namespace Process

def gatewayProxy (p : Process) : Option SocketAddr :=
  if p.healthy then p.proxy else none

def retireGateway (p : Process) : Process := { p with healthy := false }

def note (p : Process) (o : Opening) : Process := { p with trace := p.trace ++ [o] }

end Process

def shouldUseGateway (port : Nat) : Bool := port == 80 || port == 443

def gatewayHeadLimit : Nat := 8192

/-- How opening a connection to the gateway turns out. -/
inductive GatewayOpen
  | timedOut | failed | connected
deriving DecidableEq, Repr

/-- The gateway as one request meets it: the connection, whether the head could be sent, the
chunks that come back, and whether it closes after them or stays silent. -/
structure GatewayEnv where
  opening : GatewayOpen
  sent : Bool
  answers : List Bytes
  closes : Bool

inductive GatewayError
  | notAccepted | openFailed | sendFailed | late | closed | malformed | oversized
  | refused (authority : Text) (port : Nat) (status : Text)
deriving DecidableEq, Repr

/-- The loop of `open_through_gateway`: reads until a head is there and returns what came
behind it. -/
def readAnswer (closes : Bool) (authority : Text) (port : Nat) (head : Bytes) :
    List Bytes → Except GatewayError Bytes
  | [] => .error (if closes then .closed else .late)
  | chunk :: rest =>
    let head := head ++ chunk
    match findHeadEnd head with
    | some stop =>
      match proxyConnectSucceeded head with
      | none => .error .malformed
      | some true => .ok (head.drop stop)
      | some false =>
        let status := Text.trim (Text.firstLine (Utf8.decodeLossy (head.take stop)))
        .error (.refused authority port status)
    | none =>
      if gatewayHeadLimit < head.length then .error .oversized
      else readAnswer closes authority port head rest

/-- `open_through_gateway`.  What is sent is `buildProxyConnect authority port`. -/
def openThroughGateway (env : GatewayEnv) (authority : Text) (port : Nat) :
    Except GatewayError Bytes :=
  match env.opening with
  | .timedOut => .error .notAccepted
  | .failed => .error .openFailed
  | .connected =>
    if env.sent then readAnswer env.closes authority port [] env.answers
    else .error .sendFailed

/-- What opening a target meets: the gateway, the answer of `dns_resolve`, and whether
`open_tcp` succeeds. -/
structure OpenEnv where
  gateway : GatewayEnv
  dns : Option IpAddr
  opens : Bool

def resolve (dns : Option IpAddr) : Target → Option IpAddr
  | .ip addr => some addr
  | .domain name =>
    match parseIpAddr name with
    | some ip => some ip
    | none => dns

/-- `resolve` and `open_tcp`. -/
def openStraight (env : OpenEnv) (target : Target) (port : Nat) (p : Process) :
    Option Bytes × Process :=
  match resolve env.dns target with
  | none => (none, p)
  | some _ => (if env.opens then some [] else none, p.note (.straight target port))

/-- `open_tunneled`: a connection with the bytes that came with it. -/
def openTunneled (env : OpenEnv) (target : Target) (port : Nat) (p : Process) :
    Option Bytes × Process :=
  match if shouldUseGateway port then p.gatewayProxy else none with
  | some _ =>
    let p := p.note (.asked target port)
    match openThroughGateway env.gateway target.toText port with
    | .ok leftover => (some leftover, p)
    | .error _ => openStraight env target port p.retireGateway
  | none => openStraight env target port p

/-! ### Replies -/

def repOk : UInt8 := 0x00
def repGeneral : UInt8 := 0x01
def repNotAllowed : UInt8 := 0x02

def reply (code : UInt8) : Bytes := [ver, code, 0x00, atypV4, 0, 0, 0, 0, 0, 0]

def replyBound (bound : StdSocketAddr) : Bytes :=
  let buf := [ver, repOk, 0x00]
  let buf :=
    match bound.ip with
    | .v4 v4 => buf ++ [atypV4] ++ v4.octets
    | .v6 v6 => buf ++ [atypV6] ++ v6.octets
  buf ++ u16ToBe bound.port

/-- `0.0.0.0:0`, which every success reply names. -/
def unbound : StdSocketAddr := .v4 0 0

/-! ### The handler -/

/-- What the environment of a CONNECT answers. -/
structure ConnectEnv where
  sniffEnabled : Bool
  /-- `read_sniff_head`. -/
  sniffHead : Option Bytes
  opening : OpenEnv
  dial : Dial
  later : List (Option Bytes)
  down : List Bytes

/-- What is known when the route is decided. -/
structure Sniffed where
  replied : Bool
  head : Bytes
  named : Option Text

variable (hostname : Bytes → Option Text) (lower : Text → Text) (set : RuleSet)

/-- Whether a name is looked for in what the client sends first. -/
def wantsSniff (env : ConnectEnv) : Target → Bool
  | .ip _ => env.sniffEnabled && set.hasDomainRules
  | .domain _ => false

/-- The part of `handle_connect` before the route; an error is a handler that has ended. -/
def sniff (env : ConnectEnv) (target : Target) (e : Ends) : Except Ends (Sniffed × Ends) :=
  if wantsSniff set env target then
    match e.client.write .own (replyBound unbound) with
    | (false, client) => .error { e with client }
    | (true, client) =>
      let e := { e with client }
      match env.sniffHead with
      | none => .error e
      | some head =>
        .ok ({ replied := true, head, named := if head = [] then none else hostname head }, e)
  else .ok ({ replied := false, head := [], named := none }, e)

/-- The success reply, unless it was sent already. -/
def replyOnce (replied : Bool) (next : Ends → Ends) (e : Ends) : Ends :=
  if replied then next e else e.toClient .own (replyBound unbound) next

def handleDirect (env : ConnectEnv) (sniffed : Sniffed) (e : Ends) : Ends :=
  let refuse := fun code => if sniffed.replied then e else e.toClient .own (reply code) id
  match env.dial with
  | .noPeer => e
  | .denied => refuse repNotAllowed
  | .failed => refuse repGeneral
  | .connected =>
    let finish := replyOnce sniffed.replied (relay env.later env.down)
    if sniffed.head = [] then finish e else e.toRemote .relayed sniffed.head finish

/-- The end of `handle_connect`, with a connection. -/
def serveTunneled (env : ConnectEnv) (sniffed : Sniffed) (leftover : Bytes) : Ends → Ends :=
  let finish := relay env.later env.down
  let answer := fun e : Ends =>
    if leftover = [] then finish e else e.toClient .relayed leftover finish
  replyOnce sniffed.replied fun e =>
    if sniffed.head = [] then answer e else e.toRemote .relayed sniffed.head answer

/-- `handle_connect`.  It opens its connection the way `open_tunneled` does, and writes the
same reply wherever that fails. -/
def handleConnect (env : ConnectEnv) (target : Target) (port : Nat) (p : Process) (e : Ends) :
    Process × Ends :=
  match sniff hostname set env target e with
  | .error e => (p, e)
  | .ok (sniffed, e) =>
    match decideRoute lower set target sniffed.named port with
    | .block =>
      (p, if sniffed.replied then e else e.toClient .own (reply repNotAllowed) id)
    | .direct => (p, handleDirect env sniffed e)
    | .proxy =>
      match openTunneled env.opening target port p with
      | (none, p) => (p, e.toClient .own (reply repGeneral) id)
      | (some leftover, p) => (p, serveTunneled env sniffed leftover e)

/-! ### Requests, one after the other -/

/-- What may lead to the gateway: a CONNECT, or the opening of a tunnel for an HTTP request
whose route is the tunnel. -/
inductive Request
  | connect (env : ConnectEnv) (target : Target) (port : Nat) (e : Ends)
  | http (env : OpenEnv) (target : Target) (port : Nat)

namespace Request

def target : Request → Target
  | .connect _ target _ _ | .http _ target _ => target

def port : Request → Nat
  | .connect _ _ port _ | .http _ _ port => port

def opening : Request → OpenEnv
  | .connect env _ _ _ => env.opening
  | .http env _ _ => env

end Request

/-- What a request leaves behind. -/
def serve (p : Process) : Request → Process
  | .connect env target port e => (handleConnect hostname lower set env target port p e).1
  | .http env target port => (openTunneled env target port p).2

def serveAll (p : Process) (requests : List Request) : Process :=
  requests.foldl (serve hostname lower set) p

end Aether.Socks
