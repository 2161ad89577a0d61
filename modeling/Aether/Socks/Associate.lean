/-
The direct connections of `socks.rs` and its UDP associations.

Both ask `direct_target_allowed` before anything leaves outside the tunnel.  An association is
an event loop: what `select!` takes next is an event, with the answers the outside gives while
it is handled, and what the loop does is written to a list of acts.
-/
import Aether.Socks.Connect

namespace Aether.Socks

open Routing

def normalizeIp : IpAddr → IpAddr
  | .v6 v6 =>
    match v6.toIpv4Mapped with
    | some v4 => .v4 v4
    | none => .v6 v6
  | other => other

/-! ### Direct connections -/

def directTargetAllowed (client address : IpAddr) : Bool :=
  let address := normalizeIp address
  if address.isLoopback || address.isUnspecified then (normalizeIp client).isLoopback else true

/-- The loop of `connect_direct`: how it ends, and the addresses `tcp_connect` is called with
(the timeout of its callers may stop it before the last of them).  Each address comes with
what a connection to it would give. -/
def connectEach (client : IpAddr) (last : Dial) :
    List (StdSocketAddr × Dial) → Dial × List StdSocketAddr
  | [] => (last, [])
  | (address, outcome) :: rest =>
    if directTargetAllowed client address.ip then
      if outcome = .connected then (.connected, [address])
      else
        let (dial, tried) := connectEach client outcome rest
        (dial, address :: tried)
    else connectEach client .denied rest

/-- What `lookup_host` finds for a name and a port. -/
abbrev Lookup := Text → UInt16 → Option (List (StdSocketAddr × Dial))

def connectDirect (lookup : Lookup) (host : Text) (port : UInt16) (client : IpAddr) :
    Dial × List StdSocketAddr :=
  match lookup host port with
  | none => (.failed, [])
  | some found => connectEach client .failed found

/-! ### Associations -/

def expectedUdpSource (controlPeer : StdSocketAddr) : Target → IpAddr
  | .ip ip => if ip.isUnspecified then normalizeIp controlPeer.ip else normalizeIp ip
  | .domain _ => normalizeIp controlPeer.ip

def udpSourceAllowed (expectedIp : IpAddr) (latched : Option StdSocketAddr)
    (source : StdSocketAddr) : Bool :=
  match latched with
  | some known => known == source
  | none => normalizeIp source.ip == normalizeIp expectedIp

/-- The ways a datagram goes on: `direct_relay`, the stack, or a lookup over the connector. -/
inductive Hop
  | direct | stack | lookup
deriving DecidableEq

/-- What an association does: it accepts a datagram, sends one on, or replies. -/
inductive Act
  | accepted (source : StdSocketAddr)
  | forwarded (source : StdSocketAddr) (hop : Hop) (dst : StdSocketAddr) (payload : Bytes)
  | replied (dst : StdSocketAddr) (packet : Bytes)
deriving DecidableEq

/-- The client an act is for. -/
def Act.peer : Act → StdSocketAddr
  | .accepted source | .forwarded source _ _ _ => source
  | .replied dst _ => dst

/-- The state of a loop is the client it is latched to; nothing when a turn ends it. -/
abbrev Turned := Option (Option StdSocketAddr × List Act)

/-- A datagram at the relay socket, which both loops begin with in the same way. -/
def onDatagram (expectedIp : IpAddr) (client : Option StdSocketAddr) (source : StdSocketAddr)
    (serve : List Act) : Turned :=
  if udpSourceAllowed expectedIp client source then
    some (client.or (some source), .accepted source :: serve)
  else some (client, [])

/-- A reply, if there is a client. -/
def onAnswer (client : Option StdSocketAddr) (src : StdSocketAddr) (data : Bytes) : Turned :=
  match client with
  | some c => some (client, [.replied c (buildUdpReply src data)])
  | none => some (client, [])

/-- What the loops wait for; a failed read and a closed channel are nothing. -/
inductive UdpEvent
  /-- At the relay socket, with what `lookup_host` and `dns_resolve` answer and whether a
  lookup may start. -/
  | datagram (received : Option (StdSocketAddr × Bytes)) (found : Option (List StdSocketAddr))
      (dns : Option IpAddr) (permit : Bool)
  /-- From the stack, or the answer of a lookup. -/
  | answer (received : Option (StdSocketAddr × Bytes))
  /-- At `direct_relay`. -/
  | outside (received : Option (StdSocketAddr × Bytes))
  /-- On the control connection. -/
  | control (read : Option Bytes)

def onControl (client : Option StdSocketAddr) : Option Bytes → Turned
  | none | some [] => none
  | some _ => some (client, [])

/-- What `handle_udp_associate` does with an accepted datagram. -/
def carryDatagram (lower : Text → Text) (set : RuleSet) (controlPeer source : StdSocketAddr)
    (data : Bytes) (found : Option (List StdSocketAddr)) (dns : Option IpAddr) : List Act :=
  match parseUdpRequest data with
  | none => []
  | some (dst, port, payload) =>
    match set.decide lower (hostOf dst) port.toNat with
    | .block => []
    | .direct =>
      let outside :=
        match dst with
        | .ip ip => some (StdSocketAddr.new ip port)
        | .domain _ => found.bind List.head?
      match outside with
      | some addr =>
        if directTargetAllowed controlPeer.ip addr.ip then [.forwarded source .direct addr payload]
        else []
      | none => []
    | .proxy =>
      let resolved :=
        match dst with
        | .ip ip => some ip
        | .domain _ => dns
      match resolved with
      | some ip => [.forwarded source .stack (.new ip port) payload]
      | none => []

def associateTurn (lower : Text → Text) (set : RuleSet) (controlPeer : StdSocketAddr)
    (expectedIp : IpAddr) (client : Option StdSocketAddr) : UdpEvent → Turned
  | .datagram none _ _ _ => none
  | .datagram (some (source, data)) found dns _ =>
    onDatagram expectedIp client source
      (carryDatagram lower set controlPeer source data found dns)
  | .answer none => none
  | .answer (some (src, data)) => onAnswer client src data
  | .outside none => some (client, [])
  | .outside (some (src, data)) => onAnswer client src data
  | .control read => onControl client read

def dnsPort : UInt16 := 53

/-- What `handle_udp_over_connector` does with an accepted datagram. -/
def lookUp (source : StdSocketAddr) (data : Bytes) (permit : Bool) : List Act :=
  match parseUdpRequest data with
  | some (.ip ip, port, payload) =>
    if port = dnsPort ∧ permit = true then [.forwarded source .lookup (.new ip port) payload]
    else []
  | _ => []

def connectorTurn (expectedIp : IpAddr) (client : Option StdSocketAddr) : UdpEvent → Turned
  | .datagram none _ _ _ => none
  | .datagram (some (source, data)) _ _ permit =>
    onDatagram expectedIp client source (lookUp source data permit)
  | .answer none => none
  | .answer (some (src, data)) => onAnswer client src data
  -- this loop has no socket of its own outside
  | .outside _ => some (client, [])
  | .control read => onControl client read

/-- The loop around a turn: what it does until it ends. -/
def udpLoop (turn : Option StdSocketAddr → UdpEvent → Turned) (client : Option StdSocketAddr) :
    List UdpEvent → List Act
  | [] => []
  | event :: events =>
    match turn client event with
    | none => []
    | some (client, acts) => acts ++ udpLoop turn client events

def handleUdpAssociate (lower : Text → Text) (set : RuleSet) (controlPeer : StdSocketAddr)
    (requested : Target) (events : List UdpEvent) : List Act :=
  let expectedIp := expectedUdpSource controlPeer requested
  udpLoop (associateTurn lower set controlPeer expectedIp) none events

def handleUdpOverConnector (controlPeer : StdSocketAddr) (requested : Target)
    (events : List UdpEvent) : List Act :=
  udpLoop (connectorTurn (expectedUdpSource controlPeer requested)) none events

end Aether.Socks
