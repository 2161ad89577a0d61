/-
Detours of `upstream.rs`: UDP sockets whose datagrams go through an upstream proxy.

`attach_detour_via` enters the socket's address into a map and starts a task that pumps
datagrams between a shim on the loopback and the proxy's relay.  `flush` of `quic.rs` looks
every datagram's target up in that map.  The guard removes the entry when it is dropped, and
the task does when its pump stops.  The four run side by side: a step here is what one of
them does between two points at which another can run.  The lock around the map is never
poisoned, since nothing done under it can fail.
-/
import Aether.Lib.Machine
import Aether.Net.Addr

namespace Aether.Upstream

open Function

structure Detour where
  id : Nat
  shim : SocketAddr
  peer : SocketAddr
deriving DecidableEq, Repr

/-- A `DetourGuard` that is held: the socket's address and the detour it stands for. -/
structure Guard where
  client : SocketAddr
  detour : Detour
deriving DecidableEq, Repr

/-! ### The pump -/

/-- The pump's variables. -/
structure Pump where
  client : SocketAddr
  peer : SocketAddr
  replyTo : Option SocketAddr
deriving DecidableEq, Repr

def fromDetouredSocket (client origin : SocketAddr) : Bool :=
  origin.port == client.port &&
    (origin.ip == client.ip || (client.ip.isUnspecified && origin.ip.isLoopback))

/-- What happens at the `select!` of the pump, with the answer to the send that follows. -/
inductive PumpEvent
  | fromClient (payload : Bytes) (origin : SocketAddr) (sent : Bool)
  | clientFailed
  | fromRelay (payload : Bytes) (sent : Bool)
  /-- The relay sent something that has no header. -/
  | malformed
  | relayFailed

/-- A datagram the pump sends: through the relay to a target, or from the shim. -/
inductive Pumped
  | toRelay (target : SocketAddr) (payload : Bytes)
  | toClient (target : SocketAddr) (payload : Bytes)
deriving DecidableEq, Repr

/-- An iteration of `pump`; nothing when it stops with an error. -/
def pump (p : Pump) : PumpEvent → Option (Pump × List Pumped)
  | .fromClient payload origin sent =>
    if !fromDetouredSocket p.client origin then some (p, [])
    else if sent then some ({ p with replyTo := some origin }, [.toRelay p.peer payload])
    else none
  | .clientFailed => none
  | .fromRelay payload sent =>
    match p.replyTo with
    | none => some (p, [])
    | some target => if sent then some (p, [.toClient target payload]) else none
  | .malformed => some (p, [])
  | .relayFailed => none

/-- A detour's task: the pump runs, or it has stopped and `forget_detour` is next. -/
inductive Task
  | running (p : Pump)
  | ended (client : SocketAddr)

/-! ### The map -/

/-- A datagram that `flush` has sent, with the guards that were held then. -/
structure Sent where
  socket : SocketAddr
  target : SocketAddr
  payload : Bytes
  held : List Guard

structure World where
  detours : SocketAddr → Option Detour
  nextId : Nat
  tasks : Nat → Option Task
  held : List Guard
  pumped : List Pumped
  sent : List Sent

def World.start : World :=
  { detours := fun _ => none, nextId := 1, tasks := fun _ => none, held := [], pumped := [],
    sent := [] }

def World.forgetDetour (w : World) (client : SocketAddr) (id : Nat) : World :=
  match w.detours client with
  | some detour =>
    if detour.id = id then { w with detours := update w.detours client none } else w
  | none => w

def World.relayTarget (w : World) (socket intended : SocketAddr) : SocketAddr :=
  match w.detours socket with
  | some detour => detour.shim
  | none => intended

def loopbackOf : IpAddr → IpAddr
  | .v4 _ => .v4 Ipv4Addr.localhost
  | .v6 _ => .v6 Ipv6Addr.localhost

/-- `attach_detour_via`: `answer` is the port the shim got, or nothing when the association,
the address or the shim could not be had. -/
def World.attachDetourVia (w : World) (client peer : SocketAddr) (answer : Option Nat) : World :=
  if isPrivate peer.ip then w
  else
    match answer with
    | none => w
    | some port =>
      let detour := { id := w.nextId, shim := { ip := loopbackOf client.ip, port }, peer }
      { w with
        detours := update w.detours client (some detour)
        nextId := w.nextId + 1
        tasks := update w.tasks w.nextId
          (some (.running { client, peer, replyTo := none }))
        held := w.held ++ [{ client, detour }] }

/-- The socket `flush` sends from: the one the connection names, or else any. -/
def flushSocket (sockets : List SocketAddr) (src : SocketAddr) : Option SocketAddr :=
  if src ∈ sockets then some src else sockets.head?

/-! ### Steps -/

inductive Step
  | attach (client peer : SocketAddr) (answer : Option Nat)
  | pump (id : Nat) (event : PumpEvent)
  /-- The task removes the entry after its pump has stopped. -/
  | forget (id : Nat)
  /-- The abort that came with the drop of the guard reaches the task. -/
  | abort (id : Nat)
  | drop (guard : Guard)
  /-- One datagram of `flush`, its source and destination as `conn.send` gave them. -/
  | flush (sockets : List SocketAddr) (src dst : SocketAddr) (payload : Bytes) (sent : Bool)

/-- What a step does; an error is a step that is not possible. -/
def step (w : World) : Step → Except Unit World
  | .attach client peer answer => .ok (w.attachDetourVia client peer answer)
  | .pump id event =>
    match w.tasks id with
    | some (.running p) =>
      match Upstream.pump p event with
      | some (p', out) =>
        .ok { w with
          tasks := update w.tasks id (some (.running p'))
          pumped := w.pumped ++ out }
      | none => .ok { w with tasks := update w.tasks id (some (.ended p.client)) }
    | _ => .error ()
  | .forget id =>
    match w.tasks id with
    | some (.ended client) =>
      .ok ({ w with tasks := update w.tasks id none }.forgetDetour client id)
    | _ => .error ()
  | .abort id =>
    match w.tasks id with
    | some (.running _) =>
      if w.held.any fun g => g.detour.id == id then .error ()
      else .ok { w with tasks := update w.tasks id none }
    | _ => .error ()
  | .drop guard =>
    if guard ∈ w.held then
      .ok ({ w with held := w.held.filter (· ≠ guard) }.forgetDetour guard.client guard.detour.id)
    else .error ()
  | .flush sockets src dst payload sent =>
    match flushSocket sockets src with
    | some socket =>
      if sent then
        .ok { w with
          sent := w.sent ++ [{
            socket, target := w.relayTarget socket dst, payload, held := w.held }] }
      else .ok w
    | none => .ok w

/-! ### What a detour is for -/

/-- Nothing that was sent from a socket while its guard was held went anywhere but to the
shim, and so not to the peer. -/
def World.NoLeak (w : World) : Prop :=
  ∀ s ∈ w.sent, ∀ g ∈ s.held, g.client = s.socket →
    s.target = g.detour.shim ∧ s.target ≠ g.detour.peer

/-- The pump of a detour whose guard is held does not stop, and its socket is not attached
again. -/
def World.Steady (w : World) : Step → Prop
  | .attach client _ _ => ∀ g ∈ w.held, g.client ≠ client
  | .pump id event =>
    ∀ p, w.tasks id = some (.running p) → Upstream.pump p event = none →
      ∀ g ∈ w.held, g.detour.id ≠ id
  | _ => True

end Aether.Upstream
