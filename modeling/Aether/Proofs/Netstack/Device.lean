/-
The device queue: what becomes of the packets the stack produces.

Tokens put packets at the tail of `tx`, and `flush_tx` takes them off its head.  A flush that
finds the channel full puts the refused packet back at the head and sheds from there, so what is
queued is always the end of what was produced, and what was sent or shed is the part in front.
-/
import Aether.Netstack.World

namespace Aether

open List

/-- `StackTxToken::consume`, for a packet that the stack has filled in. -/
def StackDevice.consume (dev : StackDevice) (pkt : Bytes) : StackDevice :=
  { dev with tx := dev.tx ++ [pkt] }

/-- The device, with every packet its tokens took and every packet the channel accepted. -/
structure Outbound where
  device : StackDevice
  produced : List Bytes
  accepted : List Bytes

inductive Outbound.Step
  /-- The packets that a poll produces, through tokens of either kind. -/
  | poll (packets : List Bytes)
  /-- `flush_tx` on a channel that takes `room` packets and is full then. -/
  | flush (room : Nat)

namespace Outbound

/-- What `try_send` answers on a channel with this much room. -/
def answers (room sent : Nat) : TrySend := if sent < room then .ok else .full

def step (t : Target) (o : Outbound) : Step → Outbound
  | .poll packets =>
    { o with device := packets.foldl .consume o.device, produced := o.produced ++ packets }
  | .flush room =>
    let r := flushTx t (answers room) o.device
    { o with device := r.1, accepted := o.accepted ++ r.2.1 }

def run (t : Target) (mtu : Nat) (steps : List Step) : Outbound :=
  steps.foldl (step t) { device := .new mtu, produced := [], accepted := [] }

/-! ### One flush -/

variable {t : Target}

theorem foldl_consume (packets : List Bytes) (dev : StackDevice) :
    packets.foldl .consume dev = { dev with tx := dev.tx ++ packets } := by
  induction packets generalizing dev with
  | nil => simp
  | cons pkt rest ih =>
    rw [foldl_cons, ih]
    simp [StackDevice.consume]

/-- The channel takes what it has room for, and is found full if there is more. -/
theorem flushLoop_answers (room : Nat) (tx : List Bytes) (sent : Nat) :
    flushLoop (answers room) sent tx =
      (tx.take (room - sent), tx.drop (room - sent), decide (room - sent < tx.length)) := by
  induction tx generalizing sent with
  | nil => simp [flushLoop]
  | cons pkt rest ih =>
    by_cases hroom : sent < room
    · obtain ⟨n, hn⟩ : ∃ n, room - sent = n + 1 := ⟨room - sent - 1, by omega⟩
      have hrest : room - (sent + 1) = n := by omega
      simp [flushLoop, answers, hroom, ih, hn, hrest]
    · have hzero : room - sent = 0 := by omega
      simp [flushLoop, answers, hroom, hzero]

/-- How many packets a flush sheds. -/
def excess (room : Nat) (tx : List Bytes) : Nat := tx.length - room - maxDeviceTxHard

theorem flushTx_answers (room : Nat) (dev : StackDevice) :
    flushTx t (answers room) dev =
      ({ dev with
          tx := (dev.tx.drop room).drop (excess room dev.tx)
          txPeak := max dev.txPeak dev.tx.length
          txShed := t.saturatingAdd dev.txShed (excess room dev.tx) },
        dev.tx.take room, excess room dev.tx, decide (room < dev.tx.length)) := by
  have hexcess : (if decide (room < dev.tx.length) = true
      then (dev.tx.drop room).length - maxDeviceTxHard else 0) = excess room dev.tx := by
    rw [excess, length_drop]
    by_cases h : room < dev.tx.length
    · simp [h]
    · rw [if_neg (by simpa using h)]
      omega
  simp only [flushTx, flushLoop_answers, Nat.sub_zero, hexcess]

/-! ### Whole runs -/

/-- What was produced is a front part and the queue, the accepted packets are in the front part
in order, and `shed` of it are missing. -/
structure InOrder (t : Target) (o : Outbound) (front : List Bytes) (shed : Nat) : Prop where
  produced : o.produced = front ++ o.device.tx
  accepted : o.accepted.Sublist front
  missing : front.length = o.accepted.length + shed
  counted : o.device.txShed = min shed t.usizeMax

theorem InOrder.step {o : Outbound} {front : List Bytes} {shed : Nat} (h : InOrder t o front shed)
    (l : Step) : ∃ front' shed', InOrder t (o.step t l) front' shed' := by
  cases l with
  | poll packets =>
    refine ⟨front, shed, ?_, h.accepted, h.missing, ?_⟩
    · simp only [Outbound.step, foldl_consume, h.produced, append_assoc]
    · simp only [Outbound.step, foldl_consume, h.counted]
  | flush room =>
    -- the front part grows by what is sent and then by what is shed
    have hsplit : o.device.tx = o.device.tx.take room ++
        ((o.device.tx.drop room).take (excess room o.device.tx) ++
          (o.device.tx.drop room).drop (excess room o.device.tx)) := by
      rw [take_append_drop, take_append_drop]
    refine ⟨front ++ o.device.tx.take room ++
      (o.device.tx.drop room).take (excess room o.device.tx), shed + excess room o.device.tx,
      ?_, ?_, ?_, ?_⟩
    · simp only [Outbound.step, flushTx_answers, h.produced, append_assoc]
      rw [← hsplit]
    · simp only [Outbound.step, flushTx_answers]
      exact (h.accepted.append (List.Sublist.refl _)).trans (sublist_append_left _ _)
    · simp only [Outbound.step, flushTx_answers, length_append, h.missing, length_take,
        length_drop, excess]
      omega
    · simp only [Outbound.step, flushTx_answers, Target.saturatingAdd, h.counted]
      omega

theorem inOrder_run (t : Target) (mtu : Nat) (steps : List Step) :
    ∃ front shed, InOrder t (run t mtu steps) front shed := by
  induction steps using List.reverseRecOn with
  | nil => exact ⟨[], 0, rfl, .slnil, rfl, rfl⟩
  | append_singleton steps l ih =>
    obtain ⟨front, shed, h⟩ := ih
    rw [run, foldl_concat]
    exact h.step l

/-- What `tx_shed` says: how many of the produced packets are neither accepted nor queued. -/
theorem txShed_run (t : Target) (mtu : Nat) (steps : List Step) :
    (run t mtu steps).device.txShed = min ((run t mtu steps).produced.length -
      ((run t mtu steps).accepted.length + (run t mtu steps).device.tx.length)) t.usizeMax := by
  obtain ⟨front, shed, h⟩ := inOrder_run t mtu steps
  have hlength : (run t mtu steps).produced.length -
      ((run t mtu steps).accepted.length + (run t mtu steps).device.tx.length) = shed := by
    rw [h.produced, length_append, h.missing]
    omega
  rw [hlength, h.counted]

/-- **The device queue keeps the order and counts what it loses**, up to the largest count that
`tx_shed` can hold.  What is missing was produced before everything that is queued, and a flush
that finds the channel full leaves at most `MAX_DEVICE_TX_HARD` packets. -/
theorem queue_in_order (t : Target) (mtu : Nat) (steps : List Step) :
    let o := run t mtu steps
    (o.accepted ++ o.device.tx).Sublist o.produced ∧
    o.device.txShed =
      min (o.produced.length - (o.accepted.length + o.device.tx.length)) t.usizeMax ∧
    (∃ front, o.produced = front ++ o.device.tx ∧ o.accepted.Sublist front) ∧
    ∀ room, (flushTx t (answers room) o.device).2.2.2 = true →
      (o.step t (.flush room)).device.tx.length ≤ maxDeviceTxHard := by
  obtain ⟨front, shed, h⟩ := inOrder_run t mtu steps
  refine ⟨?_, txShed_run t mtu steps, ⟨front, h.produced, h.accepted⟩, fun room _ => ?_⟩
  · rw [h.produced]
    exact h.accepted.append (List.Sublist.refl _)
  · simp only [step, flushTx_answers, length_drop, excess]
    omega

/-- The queue is filled to the ceiling, and then every round adds one packet and finds the channel
full. -/
def rounds (n : Nat) : List Step :=
  .poll (List.replicate maxDeviceTxHard []) :: (List.replicate n [.poll [[]], .flush 0]).flatten

/-- Each round sheds one packet, and the queue never holds more than one above the ceiling. -/
theorem run_rounds (t : Target) (mtu n : Nat) :
    (run t mtu (rounds n)).produced.length = maxDeviceTxHard + n ∧
      (run t mtu (rounds n)).accepted = [] ∧
      (run t mtu (rounds n)).device.tx.length = maxDeviceTxHard := by
  induction n with
  | zero => simp [run, rounds, step, foldl_consume, StackDevice.new]
  | succ n ih =>
    obtain ⟨hproduced, haccepted, hqueued⟩ := ih
    have hsucc : rounds (n + 1) = rounds n ++ [.poll [[]], .flush 0] := by
      simp [rounds, List.replicate_succ']
    have hrun : run t mtu (rounds (n + 1)) =
        ((run t mtu (rounds n)).step t (.poll [[]])).step t (.flush 0) := by
      rw [hsucc, run, foldl_append]
      rfl
    rw [hrun]
    refine ⟨?_, ?_, ?_⟩
    · simp only [step, length_append, hproduced, length_singleton]
      omega
    · simp only [step, flushTx_answers, haccepted, take_zero, append_nil]
    · simp only [step, foldl_consume, flushTx_answers, excess, drop_zero, length_drop,
        length_append, hqueued, length_singleton]
      omega

/-- `2 ^ 32` packets shed one by one on the narrow target: `tx_shed` is one short. -/
theorem shed_saturates :
    (run .armeabiV7a 1500 (rounds (2 ^ 32))).produced.length -
      ((run .armeabiV7a 1500 (rounds (2 ^ 32))).accepted.length +
        (run .armeabiV7a 1500 (rounds (2 ^ 32))).device.tx.length) = 2 ^ 32 ∧
    (run .armeabiV7a 1500 (rounds (2 ^ 32))).device.txShed = 2 ^ 32 - 1 := by
  obtain ⟨hproduced, haccepted, hqueued⟩ := run_rounds .armeabiV7a 1500 (2 ^ 32)
  have hmissing : (run .armeabiV7a 1500 (rounds (2 ^ 32))).produced.length -
      ((run .armeabiV7a 1500 (rounds (2 ^ 32))).accepted.length +
        (run .armeabiV7a 1500 (rounds (2 ^ 32))).device.tx.length) = 2 ^ 32 := by
    rw [hproduced, haccepted, hqueued]
    decide
  refine ⟨hmissing, ?_⟩
  rw [txShed_run, hmissing]
  decide

end Outbound

end Aether
