/-
The receive loops that feed a `CapsuleParser`.

`masque_h2.rs` pushes a chunk of the response body and drains the parser; `quic.rs` pushes
every block of the body that can be read and then drains it.  The two `drain_capsules` are
one loop around `next` that differ in what they do with a result and in which results end
them.

A receiver is the parser with what the loop has sent on.  What was pushed, what `next`
returned and how often `push` cleared the buffer are kept beside it; no step reads them.
-/
import Aether.Masque.Capsule
import Aether.Net.Addr
import Aether.Netstack.World

namespace Aether

structure Receiver (τ : Type) where
  parser : CapsuleParser
  sinks : τ
  /-- Every byte pushed so far. -/
  received : Bytes
  /-- Every result of `next` so far other than `Ok(None)`. -/
  returned : List (Except AetherError Capsule)
  /-- How many pushes cleared the buffer. -/
  cleared : Nat

namespace Receiver

variable {τ : Type}

/-- A fresh parser. -/
def start (sinks : τ) : Receiver τ :=
  { parser := .new, sinks, received := [], returned := [], cleared := 0 }

def push (t : Target) (data : Bytes) (r : Receiver τ) : Receiver τ :=
  { r with
    parser := r.parser.push t data
    received := r.received ++ data
    cleared := if r.parser.overflows t data then r.cleared + 1 else r.cleared }

/-- A result of `next` that is not `Ok(None)`. -/
def outcome : Except AetherError (Option Capsule) → Option (Except AetherError Capsule)
  | .ok none => none
  | .ok (some c) => some (.ok c)
  | .error e => some (.error e)

/-- `loop { match capsules.next() … }`: `handle` is what the loop does with a result, and
whether it goes on. -/
def drainLoop (t : Target) (handle : Except AetherError Capsule → τ → τ × Bool) :
    (fuel : Nat) → Receiver τ → Receiver τ
  | 0, r => r
  | fuel + 1, r =>
    match outcome (r.parser.next t).1 with
    | none => { r with parser := (r.parser.next t).2 }
    | some result =>
      let r' := { r with
        parser := (r.parser.next t).2
        sinks := (handle result r.sinks).1
        returned := r.returned ++ [result] }
      if (handle result r.sinks).2 then drainLoop t handle fuel r' else r'

/-- The loop from its start.  A result takes at least a byte from the buffer. -/
def drain (t : Target) (handle : Except AetherError Capsule → τ → τ × Bool) (r : Receiver τ) :
    Receiver τ :=
  drainLoop t handle (r.parser.buf.length + 1) r

/-- Pushing a chunk and calling `next` until it returns `Ok(None)`. -/
def feed (t : Target) (r : Receiver Unit) (chunk : Bytes) : Receiver Unit :=
  (r.push t chunk).drain t fun _ sinks => (sinks, true)

/-- One chunk after the other, to a fresh parser. -/
def feedAll (t : Target) (chunks : List Bytes) : Receiver Unit :=
  chunks.foldl (feed t) (start ())

end Receiver

/-! ### What the loops do with a capsule -/

structure AssignedAddr where
  ip : IpAddr
  prefixLen : Nat
deriving DecidableEq, Repr

/-- What was sent to `inbound_tx`, with the answers, and to `addr_tx`, whose answers are
not looked at. -/
structure Sinks where
  inbound : List (Bytes × TrySend)
  assigned : List AssignedAddr
  /-- The variable of `drain_capsules` in `masque_h2.rs`. -/
  delivered : Bool

def Sinks.empty : Sinks := { inbound := [], assigned := [], delivered := false }

def bytesToIp (version : Nat) (bytes : Bytes) : Option IpAddr :=
  if version = 4 ∧ bytes.length = 4 then some (.v4 (BitVec.ofNat 32 (beNat bytes)))
  else if version = 6 ∧ bytes.length = 16 then some (.v6 (BitVec.ofNat 128 (beNat bytes)))
  else none

/-- The `AddressAssign` arm of both loops; `addrTx` is whether there is a channel. -/
def Sinks.assign (addrTx : Bool) (addrs : List AssignedAddress) (s : Sinks) : Sinks :=
  if addrTx then
    { s with
      assigned := s.assigned ++ addrs.filterMap fun a =>
        (bytesToIp a.ipVersion a.address).map fun ip => { ip, prefixLen := a.prefixLen } }
  else s

/-! ### HTTP/2 -/

/-- An iteration of `drain_capsules` of `masque_h2.rs`; `answers` is what `try_send` on
`inbound_tx` answers, by the number of packets offered before. -/
def handleH2 (addrTx : Bool) (answers : Nat → TrySend) (result : Except AetherError Capsule)
    (s : Sinks) : Sinks × Bool :=
  match result with
  | .ok (.datagram payload) =>
    match stripDatagramContext payload with
    | none => (s, true)
    | some pkt =>
      let answer := answers s.inbound.length
      let s := { s with inbound := s.inbound ++ [(pkt, answer)], delivered := true }
      match answer with
      | .ok | .full => (s, true)
      | .closed => (s, false)
  | .ok (.addressAssign addrs) => (s.assign addrTx addrs, true)
  | .ok _ => (s, true)
  | .error _ => (s, false)

def drainCapsulesH2 (t : Target) (addrTx : Bool) (answers : Nat → TrySend)
    (r : Receiver Sinks) : Receiver Sinks :=
  Receiver.drain t (handleH2 addrTx answers) { r with sinks := { r.sinks with delivered := false } }

/-- The arm of `run` for a chunk of the body. -/
def recvH2 (t : Target) (addrTx : Bool) (r : Receiver Sinks) (l : Bytes × (Nat → TrySend)) :
    Except AetherError (Receiver Sinks) :=
  .ok (drainCapsulesH2 t addrTx l.2 (r.push t l.1))

/-! ### HTTP/3 -/

/-- An iteration of `drain_capsules` of `quic.rs`, where datagrams do not come in capsules. -/
def handleH3 (addrTx : Bool) (result : Except AetherError Capsule) (s : Sinks) : Sinks × Bool :=
  match result with
  | .ok (.addressAssign addrs) => (s.assign addrTx addrs, true)
  | .ok _ => (s, true)
  | .error _ => (s, false)

def drainCapsulesH3 (t : Target) (addrTx : Bool) (r : Receiver Sinks) : Receiver Sinks :=
  Receiver.drain t (handleH3 addrTx) r

/-- What `h3c.poll` answers. -/
inductive H3Poll
  /-- Header names with their values. -/
  | headers (streamId : Nat) (list : List (String × String))
  /-- The blocks that `recv_body` then gives, until it fails. -/
  | data (streamId : Nat) (blocks : List Bytes)
  | finished (streamId : Nat)
  | reset (streamId code : Nat)
  | other
  /-- `Err(Done)`, which ends the call. -/
  | done
  | err (e : H3Error)

/-- A status that makes `poll_h3` give up. -/
def refusal (list : List (String × String)) : Option String :=
  (list.find? fun h => h.1 = ":status" ∧ h.2.toList.head? ≠ some '2').map (·.2)

/-- `while let Ok(n) = h3c.recv_body(…)`: an empty block ends it too. -/
def pushBlocks (t : Target) (blocks : List Bytes) (r : Receiver Sinks) : Receiver Sinks :=
  (blocks.takeWhile fun block => !block.isEmpty).foldl (fun r block => r.push t block) r

/-- An iteration of the loop of `poll_h3`.  One call starts where the last one stopped. -/
def pollH3 (t : Target) (addrTx : Bool) (reqStream : Nat) (r : Receiver Sinks) :
    H3Poll → Except AetherError (Receiver Sinks)
  | .headers streamId list =>
    match refusal list with
    | some status =>
      if streamId = reqStream then
        .error (.masque ("the edge refused connect-ip with status " ++ status))
      else .ok r
    | none => .ok r
  | .data streamId blocks =>
    if streamId ≠ reqStream then .ok r
    else .ok (drainCapsulesH3 t addrTx (pushBlocks t blocks r))
  | .finished streamId =>
    if streamId = reqStream then
      .error (.masque "the edge closed the connect-ip stream")
    else .ok r
  | .reset streamId code =>
    if streamId = reqStream then
      .error (.masque ("the edge reset the connect-ip stream (code 0x" ++
        String.ofList (Nat.toDigits 16 code) ++ ")"))
    else .ok r
  | .other => .ok r
  | .done => .ok r
  | .err e => .error (.h3 e)

/-! ### The address bridge -/

/-- The call of the bridge task of `lib.rs` for an address from `addr_rx`, as a command. -/
def AssignedAddr.setAddrs (a : AssignedAddr) : Cmd :=
  match a.ip with
  | .v4 v4 => .setAddrs (some (v4, a.prefixLen)) none
  | .v6 v6 => .setAddrs none (some (v6, a.prefixLen))

/-- The addresses that went through `addr_tx`, on their way into the stack. -/
def bridge {σ υ : Type} (m : Smoltcp σ υ) (tun : Tuning) (env : OpenEnv) (s : NetStack σ υ)
    (addrs : List AssignedAddr) : Except Panic (NetStack σ υ) :=
  addrs.foldlM (fun s a => handleCmd m tun env s a.setAddrs) s

/-- `update_ip_addrs` panics on an address that is neither unicast nor unspecified. -/
structure Smoltcp.TakesUnicast {σ υ : Type} (m : Smoltcp σ υ) : Prop where
  takes : ∀ a, m.takesAddr a = (a.isUnicast || a.isUnspecified)

/-! ### Runs -/

/-- The life of an HTTP/2 tunnel, as its parser sees it. -/
abbrev RunH2 (t : Target) (addrTx : Bool) :
    List (Bytes × (Nat → TrySend)) → Receiver Sinks → Prop :=
  Machine.Run (recvH2 t addrTx) (fun _ _ => True) (.start .empty)

/-- The life of an HTTP/3 tunnel, as its parser sees it. -/
abbrev RunH3 (t : Target) (addrTx : Bool) (reqStream : Nat) :
    List H3Poll → Receiver Sinks → Prop :=
  Machine.Run (pollH3 t addrTx reqStream) (fun _ _ => True) (.start .empty)

end Aether
