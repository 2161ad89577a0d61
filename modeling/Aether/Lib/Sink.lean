/-
A stream that is written to until it fails.

How much it takes before it fails is part of its state, so a run over it has no other source
of failure; what it took is kept in pieces, each with a tag that says where it came from.
A write that fails may have put out a part of its data.
-/
import Mathlib.Data.List.Basic

/-- What the stream still takes, nothing when it never fails, and what it took. -/
structure Sink (τ α : Type) where
  room : Option Nat
  log : List (τ × List α)

namespace Sink

open List

variable {τ α : Type}

/-- A new stream that never fails. -/
def fresh : Sink τ α := { room := none, log := [] }

/-- What is noted of some data: nothing if there is none. -/
def piece (tag : τ) (data : List α) : List (τ × List α) :=
  if data.isEmpty then [] else [(tag, data)]

/-- `write_all`, and whether all of it was taken. -/
def write (s : Sink τ α) (tag : τ) (data : List α) : Bool × Sink τ α :=
  match s.room with
  | none => (true, { s with log := s.log ++ piece tag data })
  | some n =>
    if data.length ≤ n then
      (true, { room := some (n - data.length), log := s.log ++ piece tag data })
    else (false, { room := some 0, log := s.log ++ piece tag (data.take n) })

/-- One write after the other, until one fails. -/
def writeEach (s : Sink τ α) (tag : τ) : List (List α) → Bool × Sink τ α
  | [] => (true, s)
  | data :: rest =>
    match s.write tag data with
    | (true, s) => writeEach s tag rest
    | (false, s) => (false, s)

/-- Everything the stream took. -/
def taken (s : Sink τ α) : List α := (s.log.map Prod.snd).flatten

variable {s : Sink τ α} {tag : τ}

/-! ### What a write adds -/

/-- A write adds a part of its data, all of it if it succeeds. -/
theorem log_write (s : Sink τ α) (tag : τ) (data : List α) :
    ∃ part, part <+: data ∧ (s.write tag data).2.log = s.log ++ piece tag part ∧
      ((s.write tag data).1 = true → part = data) := by
  unfold write
  split
  · exact ⟨data, prefix_refl data, rfl, fun _ => rfl⟩
  · next n _ =>
      split
      · exact ⟨data, prefix_refl data, rfl, fun _ => rfl⟩
      · exact ⟨data.take n, take_prefix n data, rfl, fun h => by cases h⟩

/-- Repeated writes add pieces of their tag only. -/
theorem log_writeEach (s : Sink τ α) (tag : τ) (chunks : List (List α)) :
    ∃ more, (s.writeEach tag chunks).2.log = s.log ++ more ∧ ∀ x ∈ more, x.1 = tag := by
  induction chunks generalizing s with
  | nil => exact ⟨[], by simp [writeEach], by simp⟩
  | cons data rest ih =>
    obtain ⟨part, -, hlog, -⟩ := log_write s tag data
    have hpiece : ∀ x ∈ piece tag part, x.1 = tag := by
      unfold piece
      split <;> simp
    unfold writeEach
    split
    · next s' hwrite =>
        rw [hwrite] at hlog
        obtain ⟨more, hmore, htag⟩ := ih s'
        refine ⟨piece tag part ++ more, ?_, forall_mem_append.mpr ⟨hpiece, htag⟩⟩
        rw [hmore, hlog, append_assoc]
    · next s' hwrite =>
        rw [hwrite] at hlog
        exact ⟨piece tag part, hlog, hpiece⟩

/-! ### A stream that does not fail -/

theorem flatten_piece (data : List α) : ((piece tag data).map Prod.snd).flatten = data := by
  unfold piece
  cases data <;> simp

theorem write_of_room (h : s.room = none) (data : List α) :
    s.write tag data = (true, { s with log := s.log ++ piece tag data }) := by
  unfold write
  rw [h]

theorem taken_write (tag : τ) (h : s.room = none) (data : List α) :
    (s.write tag data).2.taken = s.taken ++ data := by
  rw [write_of_room h]
  unfold taken
  rw [map_append, flatten_append, flatten_piece]

theorem taken_writeEach (h : s.room = none) (chunks : List (List α)) :
    (s.writeEach tag chunks).2.taken = s.taken ++ chunks.flatten := by
  induction chunks generalizing s with
  | nil => simp [writeEach]
  | cons data rest ih =>
    have hstep : (s.write tag data).2.room = none := by rw [write_of_room h, h]
    have htaken := taken_write tag h data
    rw [write_of_room h] at hstep htaken
    unfold writeEach
    rw [write_of_room h]
    show (writeEach _ tag rest).2.taken = _
    rw [ih hstep, htaken, flatten_cons, append_assoc]

end Sink
