/-
The netstack task as a machine.

`World` is what the loop of `run` owns, and `Step` one call it makes, together with
everything the environment contributes to that call.  The loop makes the calls in a
fixed order (`LoopPass`); most of what is proved does not depend on the order and is
stated for any sequence of steps.
-/
import Aether.Netstack.Data
import Aether.Netstack.Cmd

namespace Aether

variable {σ υ : Type}

/-! ### The outbound queue -/

/-- What `outbound_tx.try_send` answers. -/
inductive TrySend
  | ok | full | closed
deriving DecidableEq, Repr

/-- The loop of `flush_tx`: the packets sent, those left, and whether the channel was
found full. -/
def flushLoop (answers : Nat → TrySend) : (sent : Nat) → List Bytes → List Bytes × List Bytes × Bool
  | _, [] => ([], [], false)
  | sent, pkt :: rest =>
    match answers sent with
    | .ok =>
      let r := flushLoop answers (sent + 1) rest
      (pkt :: r.1, r.2.1, r.2.2)
    | .full => ([], pkt :: rest, true)
    | .closed => ([], rest, false)

/-- `flush_tx`: the device after it, the packets sent, how many were shed, and whether
the rest is held back. -/
def flushTx (t : Target) (answers : Nat → TrySend) (dev : StackDevice) :
    StackDevice × List Bytes × Nat × Bool :=
  let peak := max dev.txPeak dev.tx.length
  let r := flushLoop answers 0 dev.tx
  let excess := if r.2.2 then r.2.1.length - maxDeviceTxHard else 0
  ({ dev with
      tx := r.2.1.drop excess
      txPeak := peak
      txShed := t.saturatingAdd dev.txShed excess },
    r.1, excess, r.2.2)

/-! ### The machine -/

structure World (σ υ : Type) where
  stack : NetStack σ υ
  backlog : Backlog

/-- The stack as `spawn` builds it. -/
def NetStack.spawn (iface : List IpCidr) (mtu : Nat) (limits : TcpLimits) : NetStack σ υ :=
  { iface
    device := StackDevice.new mtu
    sockets := fun _ => none
    tcpConns := fun _ => none
    udpConns := fun _ => none
    nextId := 1
    nextPort := 49152
    tcpLimits := limits
    trace := [] }

def World.spawn (iface : List IpCidr) (mtu : Nat) (limits : TcpLimits) : World σ υ :=
  { stack := .spawn iface mtu limits, backlog := .empty }

inductive Step (σ υ : Type)
  /-- `iface.poll`: what it makes of each socket and of the device. -/
  | poll (tcp : Nat → σ → σ) (udp : Nat → υ → υ) (device : StackDevice) (panicked : Bool)
  | serviceTcp (ids : List Nat) (now : Nat) (env : Nat → FlowEnv)
  | serviceUdp (ids : List Nat) (answers : Nat → Nat → TryReserve)
  | flushTx (answers : Nat → TrySend)
  | drainBacklog
  | reapWedged (ids blockedIds : List Nat) (stallAt wedgeAt : Nat → Nat)
  /-- A packet from the tunnel. -/
  | inbound (pkt : Bytes)
  /-- A message from the app. -/
  | ingest (d : DataIn)
  | cmd (c : Cmd) (env : OpenEnv)

/-- Flow `id`: its entry, with the socket its handle stands for. -/
def NetStack.conn (s : NetStack σ υ) (id : Nat) : Option (TcpState × σ) :=
  match s.tcpConns id with
  | none => none
  | some st =>
    match s.sockets st.handle with
    | some (.tcp _ _ sock) => some (st, sock)
    | _ => none

def NetStack.flowSocket (s : NetStack σ υ) (id : Nat) : Option σ := (s.conn id).map Prod.snd

/-- A poll's effect on one entry of the socket set. -/
def Slot.poll (tcp : σ → σ) (udp : υ → υ) : Slot σ υ → Slot σ υ
  | .tcp remote port sock => .tcp remote port (tcp sock)
  | .udp port sock => .udp port (udp sock)

/-- What a poll did for each flow. -/
def pollEvent (m : Smoltcp σ υ) (before after : NetStack σ υ) : Event :=
  .polled
    (fun id =>
      match before.flowSocket id, after.flowSocket id with
      | some sock, some sock' => (m.rx sock').drop (m.rx sock).length
      | _, _ => [])
    (fun id => (after.flowSocket id).map m.state)

/-- `iface.poll`, and the clean-up after one that panicked. -/
def NetStack.poll (s : NetStack σ υ) (tcp : Nat → σ → σ) (udp : Nat → υ → υ)
    (device : StackDevice) (panicked : Bool) : NetStack σ υ :=
  { s with
    sockets := fun h => (s.sockets h).map (Slot.poll (tcp h) (udp h))
    device := if panicked then { device with rx := [], tx := [] } else device }

def pollStack (m : Smoltcp σ υ) (tcp : Nat → σ → σ) (udp : Nat → υ → υ) (device : StackDevice)
    (panicked : Bool) (s : NetStack σ υ) : NetStack σ υ :=
  (s.poll tcp udp device panicked).log [pollEvent m s (s.poll tcp udp device panicked)]

def step (m : Smoltcp σ υ) (tun : Tuning) (w : World σ υ) : Step σ υ → Except Panic (World σ υ)
  | .poll tcp udp device panicked =>
    .ok { w with stack := pollStack m tcp udp device panicked w.stack }
  | .serviceTcp ids now env => do
    let r ← serviceTcp m tun ids now env w.stack
    return { w with stack := r.1 }
  | .serviceUdp ids answers => do
    let r ← serviceUdp m ids answers w.stack
    return { w with stack := r.1 }
  | .flushTx answers =>
    .ok { w with stack := { w.stack with device := (flushTx tun.target answers w.stack.device).1 } }
  | .drainBacklog => do
    let r ← drainBacklog m tun w.stack w.backlog
    return { stack := r.1, backlog := r.2 }
  | .reapWedged ids blockedIds stallAt wedgeAt => do
    let r ← reapWedged m ids blockedIds stallAt wedgeAt w.stack w.backlog
    return { stack := r.1, backlog := r.2 }
  | .inbound pkt =>
    .ok { w with stack := { w.stack with
      device := { w.stack.device with rx := w.stack.device.rx ++ [pkt] } } }
  | .ingest d => do
    let r ← ingest m tun w.stack w.backlog d
    return { stack := r.1, backlog := r.2 }
  | .cmd c env => do
    let s ← handleCmd m tun env w.stack c
    return { w with stack := s }

/-- `ids` lists the keys of a map, each once. -/
def Keys {α : Type} (map : Nat → Option α) (ids : List Nat) : Prop :=
  ids.Nodup ∧ ∀ id, id ∈ ids ↔ (map id).isSome = true

/-- What the environment of a step is held to: maps are iterated key by key, a poll
treats each socket as smoltcp does, and a new socket gets a free slot. -/
def Step.Valid (m : Smoltcp σ υ) (w : World σ υ) : Step σ υ → Prop
  | .poll tcp _ _ _ =>
    ∀ h remote port sock, w.stack.sockets h = some (.tcp remote port sock) →
      m.polled sock (tcp h sock)
  | .serviceTcp ids _ _ => Keys w.stack.tcpConns ids
  | .serviceUdp ids _ => Keys w.stack.udpConns ids
  | .reapWedged ids blockedIds _ _ =>
    Keys w.stack.tcpConns ids ∧ ∀ id, id ∈ w.backlog.blocked → id ∈ blockedIds
  | .cmd _ env => w.stack.sockets env.handle = none
  | _ => True

/-- The runs of the netstack from its start. -/
def Runs (m : Smoltcp σ υ) (tun : Tuning) (w₀ : World σ υ) (steps : List (Step σ υ))
    (w : World σ υ) : Prop :=
  Machine.Run (step m tun) (Step.Valid m) w₀ steps w

/-- Reachable from a freshly spawned stack. -/
def Reachable (m : Smoltcp σ υ) (tun : Tuning) (w : World σ υ) : Prop :=
  ∃ iface mtu limits steps, Runs m tun (.spawn iface mtu limits) steps w

/-! ### The loop -/

/-- One iteration of `run`'s loop: the six calls it always makes, then whatever the
queues held. -/
structure LoopPass (σ υ : Type) where
  tcp : Nat → σ → σ
  udp : Nat → υ → υ
  device : StackDevice
  panicked : Bool
  ids : List Nat
  now : Nat
  env : Nat → FlowEnv
  udpIds : List Nat
  udpAnswers : Nat → Nat → TryReserve
  flushAnswers : Nat → TrySend
  reapIds : List Nat
  blockedIds : List Nat
  stallAt : Nat → Nat
  wedgeAt : Nat → Nat
  queues : List (Step σ υ)

/-- The queues bring packets, app data and commands. -/
def Step.fromQueue : Step σ υ → Bool
  | .inbound _ | .ingest _ | .cmd _ _ => true
  | _ => false

def LoopPass.steps (p : LoopPass σ υ) : List (Step σ υ) :=
  [.poll p.tcp p.udp p.device p.panicked, .serviceTcp p.ids p.now p.env,
    .serviceUdp p.udpIds p.udpAnswers, .flushTx p.flushAnswers, .drainBacklog,
    .reapWedged p.reapIds p.blockedIds p.stallAt p.wedgeAt] ++ p.queues.filter Step.fromQueue

end Aether
