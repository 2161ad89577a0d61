/-
Where the share's scanner finds the end of a head.

`readHeaderBlock` keeps how much of CRLFCRLF it has just seen, and starts over at every byte that
does not continue it, also at a carriage return that could begin the next one.  So it takes a row
of carriage returns two by two, and is ready for the terminator behind an even number of them
only.
-/
import Aether.Share.Proxy
import Aether.Proofs.Socks.Heads

namespace Aether.Share

open List

open Socks (cr crlfcrlf readHead IsHead)

variable {w before rest input : Bytes} {room run : Nat}

/-- What the scanner has seen of the terminator after these bytes. -/
def runOf (w : Bytes) : Nat := w.foldl runAfter 0

/-- How many carriage returns the bytes end in. -/
def returnsAtEnd (w : Bytes) : Nat := (w.reverse.takeWhile (· == cr)).length

/-- What has been seen of the terminator is there. -/
theorem runOf_suffix (w : Bytes) : runOf w ≤ 4 ∧ crlfcrlf.take (runOf w) <:+ w := by
  induction w using reverseRecOn with
  | nil => exact ⟨by decide, nil_suffix⟩
  | append_singleton w b ih =>
    obtain ⟨-, u, hu⟩ := ih
    have hnext : runOf (w ++ [b]) = runAfter (runOf w) b := foldl_concat ..
    rw [hnext]
    fun_cases runAfter (runOf w) b with
    | case1 h | case2 _ h =>
      obtain ⟨rfl, hrun | hrun⟩ := h <;> rw [hrun] at hu ⊢ <;>
        exact ⟨by decide, u, by rw [← hu, append_assoc]; rfl⟩
    | case3 => exact ⟨Nat.zero_le _, nil_suffix⟩

/-- Until the scanner stops, it is within the terminator behind an odd number of carriage
returns. -/
theorem runOf_mod_two (h : ∀ p, p <+: w → runOf p ≠ 4) : runOf w % 2 = returnsAtEnd w % 2 := by
  induction w using reverseRecOn with
  | nil => rfl
  | append_singleton w b ih =>
    have hw := ih fun p hp => h p (hp.trans ( prefix_append _ _))
    have hgoing := h w ( prefix_append _ _)
    have hle := (runOf_suffix w).1
    have hnext : runOf (w ++ [b]) = runAfter (runOf w) b := foldl_concat ..
    rw [hnext]
    unfold runAfter
    by_cases hb : b = 13
    · have hrow : returnsAtEnd (w ++ [b]) = returnsAtEnd w + 1 := by
        simp [returnsAtEnd, hb, cr]
      rw [hrow]
      simp only [hb, true_and]
      split
      · omega
      · simp only [show (13 : UInt8) ≠ 10 by decide, false_and, if_false]
        omega
    · have hrow : returnsAtEnd (w ++ [b]) = 0 := by
        simp [returnsAtEnd, hb, cr]
      rw [hrow, if_neg fun hc => hb hc.1]
      split <;> omega

theorem foldl_of_headerLoop (h : headerLoop room run input = some (w, rest)) :
    w.foldl runAfter run = 4 := by
  induction input generalizing room run w with
  | nil => cases room <;> cases h
  | cons b input ih =>
    cases room with
    | zero => cases h
    | succ room =>
      unfold headerLoop at h
      split at h
      · next hrun =>
          cases h
          exact hrun
      · obtain ⟨⟨w', rest'⟩, hloop, heq⟩ := Option.map_eq_some_iff.mp h
        cases heq
        exact (foldl_cons ..).trans (ih hloop)

theorem headerLoop_append (hrun : run ≠ 4) (h : w.foldl runAfter run = 4)
    (hfirst : ∀ p q, w = p ++ q → p.foldl runAfter run = 4 → q = []) (hroom : w.length ≤ room)
    (rest : Bytes) : headerLoop room run (w ++ rest) = some (w, rest) := by
  induction w generalizing room run with
  | nil => exact absurd h hrun
  | cons b w ih =>
    obtain ⟨room, rfl⟩ := Nat.exists_eq_succ_of_ne_zero (Nat.ne_zero_of_lt hroom)
    rw [cons_append, headerLoop]
    by_cases hb : runAfter run b = 4
    · obtain rfl := hfirst [b] w rfl hb
      rw [if_pos hb, nil_append]
    · rw [if_neg hb, ih hb h (fun p q heq hp => hfirst (b :: p) q (by rw [heq, cons_append]) hp)
        (Nat.le_of_succ_le_succ hroom), Option.map_some]

/-- Whatever `read_head` returns as the head of these bytes, however they are cut. -/
def EngineHead (h input : Bytes) : Prop :=
  ∀ (chunks : List Bytes) reads, (∀ c ∈ chunks, c ≠ []) → chunks.flatten = input →
    ∀ head early later, readHead [] (chunks.map some ++ reads) = .ok (head, early, later) → head = h

theorem engineHead_of_isHead {h : Bytes} (hh : IsHead h input) : EngineHead h input := by
  rintro chunks reads hchunks rfl head early later hok
  obtain ⟨before, after, rfl, hcut⟩ := hh.cut
  obtain ⟨done, more, early', -, hok', -⟩ | ⟨-, herror⟩ :=
    Socks.readHead_chunks hchunks reads (rfl : Text.splitOnce crlfcrlf [] = none) hcut
  · cases hok.symm.trans hok'
    rfl
  · cases hok.symm.trans herror

/-- **The scanner returns the head that `read_head` returns only if an even number of carriage
returns stands before its terminator.** -/
theorem readHeaderBlock_iff_even (hh : IsHead (before ++ crlfcrlf) input)
    (hroom : (before ++ crlfcrlf).length ≤ maxHeaderBytes) :
    (readHeaderBlock input = some (before ++ crlfcrlf, input.drop (before ++ crlfcrlf).length) ∧
      EngineHead (before ++ crlfcrlf) input) ↔ returnsAtEnd before % 2 = 0 := by
  have hengine := engineHead_of_isHead hh
  obtain ⟨rest, rfl⟩ := hh.start
  -- the scanner does not stop before the terminator
  have hfirst : ∀ p q, before ++ crlfcrlf ++ rest = p ++ q → runOf p = 4 →
      (before ++ crlfcrlf).length ≤ p.length := by
    intro p q heq hp
    obtain ⟨u, hu⟩ := (runOf_suffix p).2
    rw [hp] at hu
    rw [← hu] at heq ⊢
    exact hh.shortest u q heq
  have hready : runOf before = 0 ↔ returnsAtEnd before % 2 = 0 := by
    have hgoing : ∀ p, p <+: before → runOf p ≠ 4 := by
      rintro p ⟨q, hq⟩ hp
      have hlen := hfirst p (q ++ crlfcrlf ++ rest) (by simp [← hq]) hp
      simp only [← hq, length_append, crlfcrlf, length_cons] at hlen
      omega
    have hodd := runOf_mod_two hgoing
    have hfour := hgoing before ( prefix_refl _)
    obtain ⟨hle, u, hu⟩ := runOf_suffix before
    have htwo : runOf before ≠ 2 := by
      intro h2
      rw [h2] at hu
      have hlen := hh.shortest u ([cr, Socks.lf] ++ rest) (by simp [← hu, crlfcrlf])
      simp [← hu, crlfcrlf] at hlen
    omega
  have hstop : (before ++ crlfcrlf).foldl runAfter 0 = 4 ↔ runOf before = 0 := by
    rw [foldl_append]
    exact (show ∀ r ≤ 4, crlfcrlf.foldl runAfter r = 4 ↔ r = 0 by decide) _ (runOf_suffix before).1
  rw [and_iff_left hengine, drop_left, ← hready, ← hstop]
  constructor
  · exact foldl_of_headerLoop
  · intro hrun
    refine headerLoop_append (by decide) hrun (fun p q heq hp => ?_) hroom rest
    have hlen := hfirst p (q ++ rest) (by rw [heq, append_assoc]) hp
    rw [heq, length_append] at hlen
    exact length_eq_zero_iff.mp (by omega)

/-- Two carriage returns before the terminator. -/
theorem readHeaderBlock_iff_even_two :
    readHeaderBlock [13, 13, 13, 10, 13, 10, 65] = some ([13, 13, 13, 10, 13, 10], [65]) := by
  have hhead : IsHead ([13, 13] ++ crlfcrlf) [13, 13, 13, 10, 13, 10, 65] :=
    Socks.isHead_of_cut (show Text.splitOnce crlfcrlf _ = some ([13, 13], [65]) by decide)
  exact ((readHeaderBlock_iff_even hhead (by decide)).mpr (by decide)).1

/-- A carriage return before the terminator: the engine reads the head, the share none. -/
theorem readHeaderBlock_misses :
    readHead [] [some [13, 13, 10, 13, 10]] = .ok ([13, 13, 10, 13, 10], [], []) ∧
      readHeaderBlock [13, 13, 10, 13, 10] = none := by
  decide

end Aether.Share
