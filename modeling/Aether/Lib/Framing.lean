/-
Streams of frames that arrive in pieces.

A stream is the encodings of some frames, one after the other.  A reader keeps a buffer,
appends each piece to it as it arrives, and takes frames off its front.  What matters of
the encoding is that a whole one is taken whatever follows it and that the beginning of
one is not; then, however the stream was cut, the buffer is always what arrived after the
frames taken, and those are the first frames of the stream.
-/
import Mathlib.Data.List.Forall2

namespace Framing

open List

variable {F β : Type}

/-- `take` reads the frames that `enc` writes. -/
structure Decodes (take : List β → Option (F × List β)) (enc : F → List β → Prop) : Prop where
  whole : ∀ {f : F} {e : List β} (rest : List β), enc f e → take (e ++ rest) = some (f, rest)
  cut : ∀ {f : F} {e buf : List β}, enc f e → buf <+: e → buf ≠ e → take buf = none
  empty : take [] = none

/-- The buffer is what arrived after the first `n` encodings. -/
structure Behind (es : List (List β)) (n : Nat) (buf seen : List β) : Prop where
  le : n ≤ es.length
  split : (es.take n).flatten ++ buf = seen

namespace Behind

variable {es : List (List β)} {n : Nat} {buf seen : List β}

theorem start : Behind es 0 [] [] :=
  ⟨Nat.zero_le _, rfl⟩

theorem push (h : Behind es n buf seen) (data : List β) :
    Behind es n (buf ++ data) (seen ++ data) :=
  ⟨h.le, by rw [← append_assoc, h.split]⟩

/-- The buffer is the beginning of what is still to come of the stream. -/
theorem isPrefix (h : Behind es n buf seen) (hseen : seen <+: es.flatten) :
    buf <+: (es.drop n).flatten := by
  have hes : es.flatten = (es.take n).flatten ++ (es.drop n).flatten := by
    rw [← flatten_append, take_append_drop]
  rw [← h.split, hes] at hseen
  exact (prefix_append_right_inj _).mp hseen

theorem length_seen (h : Behind es n buf seen) :
    seen.length = (es.take n).flatten.length + buf.length := by
  rw [← h.split, length_append]

/-- One more frame is taken. -/
theorem advance {e rest : List β} (h : Behind es n (e ++ rest) seen) (he : es[n]? = some e) :
    Behind es (n + 1) rest seen := by
  obtain ⟨hn, -⟩ := List.getElem?_eq_some_iff.mp he
  refine ⟨hn, ?_⟩
  rw [take_add_one, he, flatten_append]
  simpa using h.split

end Behind

/-- **Where the reader is in the stream decides what it takes.**  Either there is no whole
frame after the `n` it took, or it takes the next one of the stream. -/
theorem Decodes.take_cases {take : List β → Option (F × List β)} {enc : F → List β → Prop}
    {fs : List F} {es : List (List β)} {n : Nat} {buf seen : List β} (h : Decodes take enc)
    (henc : List.Forall₂ enc fs es) (hb : Behind es n buf seen) (hseen : seen <+: es.flatten) :
    (take buf = none ∧ (n = es.length ∨ seen.length < (es.take (n + 1)).flatten.length)) ∨
      ∃ f rest, fs[n]? = some f ∧ take buf = some (f, rest) ∧ Behind es (n + 1) rest seen := by
  have hpre := hb.isPrefix hseen
  by_cases hn : n < es.length
  · have hf : n < fs.length := henc.length_eq ▸ hn
    have hfe : enc fs[n] es[n] := henc.get hf hn
    have he : es[n]? = some es[n] := List.getElem?_eq_getElem hn
    rw [drop_eq_getElem_cons hn, flatten_cons] at hpre
    by_cases hwhole : es[n] <+: buf
    · right
      obtain ⟨rest, hrest⟩ := hwhole
      rw [← hrest] at hb ⊢
      exact ⟨fs[n], rest, List.getElem?_eq_getElem hf, h.whole rest hfe, hb.advance he⟩
    · left
      -- the buffer ends inside the next encoding
      have hcut : buf <+: es[n] :=
        ( prefix_or_prefix_of_prefix hpre (prefix_append _ _)).resolve_right hwhole
      have hne : buf ≠ es[n] := fun heq => hwhole (heq ▸ prefix_rfl)
      have hlt : buf.length < es[n].length :=
        Nat.lt_of_le_of_ne hcut.length_le fun heq => hne (hcut.eq_of_length heq)
      refine ⟨h.cut hfe hcut hne, Or.inr ?_⟩
      rw [hb.length_seen, take_add_one, he, flatten_append]
      simpa using hlt
  · left
    have hlast : n = es.length := by have := hb.le; omega
    rw [drop_eq_nil_of_le (by omega)] at hpre
    have hbuf : buf = [] := prefix_nil.mp hpre
    rw [hbuf]
    exact ⟨h.empty, Or.inl hlast⟩

/-! ### Reading a whole stream -/

/-- Frames are taken off the front until there is none, at most `fuel` of them. -/
def readAll (take : List β → Option (F × List β)) : (fuel : Nat) → List β → List F
  | 0, _ => []
  | fuel + 1, buf =>
    match take buf with
    | none => []
    | some (f, rest) => f :: readAll take fuel rest

section

variable {take : List β → Option (F × List β)} {enc : F → List β → Prop} {fs : List F}
  {es : List (List β)}

/-- Every frame takes some room. -/
theorem Decodes.length_le (h : Decodes take enc) (henc : List.Forall₂ enc fs es) :
    fs.length ≤ es.flatten.length := by
  induction henc with
  | nil => simp
  | @cons f e fs es hfe _ ih =>
    have hpos : e ≠ [] := by
      intro hnil
      have hwhole := h.whole [] hfe
      rw [hnil, nil_append, h.empty] at hwhole
      cases hwhole
    have hlen : 0 < e.length := length_pos_iff.mpr hpos
    rw [flatten_cons, length_append, length_cons]
    omega

/-- **A stream with something unreadable behind it reads as its frames.** -/
theorem Decodes.readAll_eq (h : Decodes take enc) (henc : List.Forall₂ enc fs es)
    {tail : List β} (htail : take tail = none) :
    ∀ {fuel : Nat}, fs.length ≤ fuel → readAll take fuel (es.flatten ++ tail) = fs := by
  induction henc with
  | nil =>
    intro fuel _
    cases fuel with
    | zero => rfl
    | succ fuel =>
      unfold readAll
      rw [flatten_nil, nil_append, htail]
  | @cons f e fs es hfe _ ih =>
    intro fuel hfuel
    cases fuel with
    | zero => simp at hfuel
    | succ fuel =>
      unfold readAll
      rw [flatten_cons, append_assoc, h.whole _ hfe]
      show f :: readAll take fuel (es.flatten ++ tail) = f :: fs
      rw [ih (by simpa using hfuel)]

end

end Framing
