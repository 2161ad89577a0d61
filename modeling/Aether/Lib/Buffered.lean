/-
Buffered reading of a source that gives its bytes in pieces.

A reader keeps what the last read of the source returned and takes bytes off its front;
it goes back to the source only when it needs a byte and holds none.  Taken through the
reader the bytes are the source's, however it cut them.  Whoever goes on reading the
source itself is behind the reader: what the reader still holds is not seen again, and
the reader holds nothing exactly when its last byte was the last one of a piece.
-/
import Mathlib.Data.List.Basic

namespace Buffered

open List

/-- What a reader holds and what the next reads of the source return. -/
structure Input (β : Type) where
  buffer : List β
  chunks : List (List β)
deriving DecidableEq, Repr

namespace Input

variable {β : Type}

/-- Everything that is still to be read. -/
def stream (input : Input β) : List β := input.buffer ++ input.chunks.flatten

/-- The source is read until it gives something. -/
def fill : List (List β) → Option β × Input β
  | [] => (none, ⟨[], []⟩)
  | [] :: chunks => fill chunks
  | (b :: buffer) :: chunks => (some b, ⟨buffer, chunks⟩)

/-- One byte, or nothing at the end. -/
def read (input : Input β) : Option β × Input β :=
  match input.buffer with
  | b :: buffer => (some b, ⟨buffer, input.chunks⟩)
  | [] => fill input.chunks

/-- So many bytes, or failure when the source ends before. -/
def readFully : Nat → Input β → Option (List β × Input β)
  | 0, input => some ([], input)
  | n + 1, input =>
    match input.read with
    | (none, _) => none
    | (some b, input) => (readFully n input).map fun r => (b :: r.1, r.2)

/-! ### Where a reader is in its source -/

/-- The reader has taken some pieces from the source, and if it holds anything, then the
rest of the last of them, of which it has used something. -/
structure Within (source : List (List β)) (input : Input β) : Prop where
  place : ∃ taken, source = taken ++ input.chunks ∧
    (input.buffer = [] ∨ ∃ front used, used ≠ [] ∧ taken = front ++ [used ++ input.buffer])

theorem Within.start (source : List (List β)) : Within source ⟨[], source⟩ :=
  ⟨[], rfl, .inl rfl⟩

variable {input : Input β}

/-- **A reader holds nothing when its place is between two pieces, and only then.** -/
theorem Within.flatten_eq_iff {source : List (List β)} (h : Within source input) :
    input.chunks.flatten = input.stream ↔ ∃ k, (source.drop k).flatten = input.stream := by
  obtain ⟨taken, rfl, hbuffer⟩ := h.place
  constructor
  · intro heq
    exact ⟨taken.length, by rw [drop_left, heq]⟩
  · rintro ⟨k, hk⟩
    obtain hnil | ⟨front, used, hused, rfl⟩ := hbuffer
    · simp [stream, hnil]
    · have hpos : 0 < used.length := length_pos_iff.mpr hused
      have hlen := congrArg List.length hk
      have hstream : input.stream.length = input.buffer.length + input.chunks.flatten.length := by
        rw [stream, length_append]
      by_cases hle : k ≤ front.length
      · -- the piece in use is still there, with what was used of it
        rw [append_assoc, drop_append_of_le_length hle, flatten_append,
          singleton_append, flatten_cons] at hlen
        simp only [length_append] at hlen
        omega
      · -- nothing of it is there
        have hdrop : (front ++ [used ++ input.buffer] ++ input.chunks).drop k <:+ input.chunks := by
          rw [drop_append, drop_eq_nil_of_le (by simp; omega), nil_append]
          exact drop_suffix _ _
        obtain ⟨gone, hgone⟩ := hdrop
        have hle := congrArg (fun l => l.flatten.length) hgone
        simp only [flatten_append, length_append] at hle hlen
        have hnil : input.buffer = [] := length_eq_zero_iff.mp (by omega)
        simp [stream, hnil]

/-! ### Reading -/

/-- The second reader is the first one after it has read the bytes. -/
structure Reads (input : Input β) (bytes : List β) (input' : Input β) : Prop where
  stream_eq : input.stream = bytes ++ input'.stream
  within : ∀ {source}, Within source input → Within source input'

namespace Reads

variable {input input₁ input₂ : Input β} {bytes bytes' : List β}

theorem refl (input : Input β) : Reads input [] input := ⟨rfl, id⟩

theorem trans (h : Reads input bytes input₁) (h' : Reads input₁ bytes' input₂) :
    Reads input (bytes ++ bytes') input₂ :=
  ⟨by rw [h.stream_eq, h'.stream_eq, append_assoc], fun hw => h'.within (h.within hw)⟩

end Reads

theorem fill_reads (chunks : List (List β)) {b : β} {rest : List β}
    (hchunks : chunks.flatten = b :: rest) :
    ∃ input, fill chunks = (some b, input) ∧ Reads ⟨[], chunks⟩ [b] input := by
  induction chunks with
  | nil => cases hchunks
  | cons chunk chunks ih =>
    cases chunk with
    | nil =>
      obtain ⟨input, hfill, hreads⟩ := ih hchunks
      refine ⟨input, hfill, hreads.stream_eq, fun {source} hw => hreads.within ⟨?_⟩⟩
      obtain ⟨taken, hsource, -⟩ := hw.place
      exact ⟨taken ++ [[]], by simp [hsource], .inl rfl⟩
    | cons c buffer =>
      obtain ⟨rfl, -⟩ := List.cons.inj hchunks
      refine ⟨⟨buffer, chunks⟩, rfl, rfl, fun {source} hw => ⟨?_⟩⟩
      obtain ⟨taken, hsource, -⟩ := hw.place
      exact ⟨taken ++ [c :: buffer], by simp [hsource],
        .inr ⟨taken, [c], cons_ne_nil _ _, rfl⟩⟩

/-- A byte that is there is read. -/
theorem read_reads {b : β} {rest : List β} (hstream : input.stream = b :: rest) :
    ∃ input', input.read = (some b, input') ∧ Reads input [b] input' ∧ input'.stream = rest := by
  suffices hread : ∃ input', input.read = (some b, input') ∧ Reads input [b] input' by
    obtain ⟨input', hread, hreads⟩ := hread
    exact ⟨input', hread, hreads, append_cancel_left (hreads.stream_eq.symm.trans hstream)⟩
  obtain ⟨buffer, chunks⟩ := input
  cases buffer with
  | nil => exact fill_reads chunks hstream
  | cons c buffer =>
    obtain ⟨rfl, -⟩ := List.cons.inj hstream
    refine ⟨⟨buffer, chunks⟩, rfl, rfl, fun {source} hw => ⟨?_⟩⟩
    obtain ⟨taken, hsource, hempty | ⟨front, used, -, htaken⟩⟩ := hw.place
    · cases hempty
    · exact ⟨taken, hsource, .inr ⟨front, used ++ [c], by simp, by simp [htaken]⟩⟩

/-- **Bytes that are there are read, wherever the source cut them.** -/
theorem readFully_reads {bytes rest : List β} (hstream : input.stream = bytes ++ rest) :
    ∃ input', input.readFully bytes.length = some (bytes, input') ∧ Reads input bytes input' ∧
      input'.stream = rest := by
  induction bytes generalizing input with
  | nil => exact ⟨input, rfl, .refl input, hstream⟩
  | cons b bytes ih =>
    obtain ⟨input₁, hread, hreads, hrest⟩ := read_reads hstream
    obtain ⟨input₂, hfully, hreads', hrest'⟩ := ih hrest
    refine ⟨input₂, ?_, hreads.trans hreads', hrest'⟩
    simp only [length_cons, readFully, hread, hfully, Option.map_some]

theorem fill_of_flatten_eq_nil {chunks : List (List β)} (h : chunks.flatten = []) :
    fill chunks = (none, ⟨[], []⟩) := by
  induction chunks with
  | nil => rfl
  | cons chunk chunks ih =>
    rw [flatten_cons, append_eq_nil_iff] at h
    rw [h.1]
    exact ih h.2

/-- What was read was there, and there is nothing behind the end. -/
theorem stream_of_read {b : Option β} {input' : Input β} (h : input.read = (b, input')) :
    input.stream = b.toList ++ input'.stream ∧ (b = none → input'.stream = []) := by
  cases hstream : input.stream with
  | nil =>
    obtain ⟨hbuffer, hchunks⟩ := append_eq_nil_iff.mp hstream
    rw [read, hbuffer] at h
    cases (fill_of_flatten_eq_nil hchunks).symm.trans h
    exact ⟨rfl, fun _ => rfl⟩
  | cons c rest =>
    obtain ⟨input₁, hread, -, hrest⟩ := read_reads hstream
    cases hread.symm.trans h
    exact ⟨by rw [hrest]; rfl, fun hnone => by cases hnone⟩

theorem stream_of_readFully {n : Nat} {bytes : List β} {input' : Input β}
    (h : input.readFully n = some (bytes, input')) :
    bytes.length = n ∧ input.stream = bytes ++ input'.stream := by
  induction n generalizing input bytes with
  | zero =>
    cases h
    exact ⟨rfl, rfl⟩
  | succ n ih =>
    rcases hread : input.read with ⟨_ | b, input₁⟩
    · simp [readFully, hread] at h
    · simp only [readFully, hread, Option.map_eq_some_iff, Prod.mk.injEq] at h
      obtain ⟨⟨bytes, input₂⟩, hfully, rfl, rfl⟩ := h
      obtain ⟨rfl, hstream⟩ := ih hfully
      exact ⟨rfl, by rw [(stream_of_read hread).1, hstream]; rfl⟩

end Input

end Buffered
