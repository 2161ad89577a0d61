/-
Texts that are trimmed, and texts that are cut into pieces.

`trimBy` takes the characters of a class from both ends of a text, and `List.splitOnP` cuts a text
at the characters of a class.
-/
import Mathlib.Data.List.Basic
import Mathlib.Data.List.TakeWhile

namespace Pieces

open List

variable {α : Type} {p q : α → Bool} {t : List α}

/-! ### Trimming -/

/-- Without the characters of `p` at both ends. -/
def trimBy (p : α → Bool) (t : List α) : List α :=
  ((t.dropWhile p).reverse.dropWhile p).reverse

theorem trimBy_sublist (p : α → Bool) (t : List α) : (trimBy p t).Sublist t := by
  have hback := (dropWhile_sublist p (l := (t.dropWhile p).reverse)).reverse
  rw [reverse_reverse] at hback
  exact hback.trans (dropWhile_sublist p)

theorem dropWhile_of_head (h : t.head?.any p = false) : t.dropWhile p = t := by
  cases t with
  | nil => rfl
  | cons c t => exact dropWhile_cons_of_neg (by simpa using h)

theorem head?_dropWhile (p : α → Bool) (t : List α) : (t.dropWhile p).head?.any p = false := by
  have hhead := List.head?_dropWhile_not p t
  cases hcase : (t.dropWhile p).head? with
  | none => rfl
  | some c =>
    rw [hcase] at hhead
    exact hhead

theorem trimBy_of_ends (hhead : t.head?.any p = false) (hlast : t.getLast?.any p = false) :
    trimBy p t = t := by
  rw [← List.head?_reverse] at hlast
  rw [trimBy, dropWhile_of_head hhead, dropWhile_of_head hlast, reverse_reverse]

theorem getLast?_trimBy (p : α → Bool) (t : List α) : (trimBy p t).getLast?.any p = false := by
  rw [trimBy, List.getLast?_reverse]
  exact head?_dropWhile p _

theorem head?_trimBy (p : α → Bool) (t : List α) : (trimBy p t).head?.any p = false := by
  rw [trimBy, List.head?_reverse]
  have hsuffix := dropWhile_suffix p (l := (t.dropWhile p).reverse)
  obtain ⟨front, hfront⟩ := hsuffix
  by_cases hnil : (t.dropWhile p).reverse.dropWhile p = []
  · rw [hnil]
    rfl
  · have hlast := congrArg List.getLast? hfront
    rw [List.getLast?_append_of_ne_nil _ hnil, List.getLast?_reverse] at hlast
    rw [hlast]
    exact head?_dropWhile p t

theorem trimBy_idem (p : α → Bool) (t : List α) : trimBy p (trimBy p t) = trimBy p t :=
  trimBy_of_ends (head?_trimBy p t) (getLast?_trimBy p t)

theorem trimBy_eq_self_iff :
    trimBy p t = t ↔ t.head?.any p = false ∧ t.getLast?.any p = false := by
  constructor
  · intro h
    rw [← h]
    exact ⟨head?_trimBy p t, getLast?_trimBy p t⟩
  · exact fun h => trimBy_of_ends h.1 h.2

variable {c x : α} {b a : List α} {front : List (List α)}

theorem trimBy_ne_nil (hc : c ∈ t) (h : p c = false) : trimBy p t ≠ [] := by
  intro hnil
  have hback : (t.dropWhile p).reverse.dropWhile p = [] := reverse_eq_nil_iff.mp hnil
  have hall := dropWhile_eq_nil_iff.mp hback
  -- whatever was dropped in front is of the class as well
  rw [← takeWhile_append_dropWhile (p := p) (l := t), mem_append] at hc
  obtain hc | hc := hc
  · rw [mem_takeWhile_imp hc] at h
    exact nomatch h
  · rw [hall c (mem_reverse.mpr hc)] at h
    exact nomatch h

/-- Between two texts that begin outside the class nothing is trimmed. -/
theorem trimBy_append (hane : a ≠ []) (ha : a.head?.any p = false) (hbne : b ≠ [])
    (hb : b.head?.any p = false) : trimBy p (a ++ b) = a ++ trimBy p b := by
  have hfront : (a ++ b).dropWhile p = a ++ b := by
    apply dropWhile_of_head
    rwa [head?_append_of_ne_nil _ hane]
  obtain ⟨c, b', rfl⟩ := exists_cons_of_ne_nil hbne
  have hback : (c :: b').reverse.dropWhile p ≠ [] := by
    intro hnil
    have hc := dropWhile_eq_nil_iff.mp hnil c (by simp)
    rw [List.head?_cons, Option.any_some, hc] at hb
    exact nomatch hb
  rw [trimBy, hfront, reverse_append, dropWhile_append,
    if_neg (by simpa using hback), reverse_append, reverse_reverse, trimBy,
    dropWhile_of_head hb]

/-- A text that begins and ends outside the class stays in front. -/
theorem exists_trimBy_append (hne : a ≠ []) (hhead : a.head?.any p = false)
    (hlast : a.getLast?.any p = false) (b : List α) : ∃ s, trimBy p (a ++ b) = a ++ s := by
  have hfront : (a ++ b).dropWhile p = a ++ b := by
    apply dropWhile_of_head
    rwa [head?_append_of_ne_nil _ hne]
  rw [trimBy, hfront, reverse_append, dropWhile_append]
  split
  · rw [← List.head?_reverse] at hlast
    rw [dropWhile_of_head hlast, reverse_reverse]
    exact ⟨[], (append_nil a).symm⟩
  · rw [reverse_append, reverse_reverse]
    exact ⟨_, rfl⟩

/-- Behind a text that is not all trimmed, what is all trimmed goes. -/
theorem trimBy_append_of_all (h : b.all p = true) (t : List α) :
    trimBy p (t ++ b) = trimBy p t := by
  have hb : b.reverse.all p = true := by rwa [all_reverse]
  have hdrop : ∀ s : List α, (s ++ b).reverse.dropWhile p = s.reverse.dropWhile p := by
    intro s
    rw [reverse_append, dropWhile_append_of_pos (all_eq_true.mp hb)]
  unfold trimBy
  by_cases ht : t.all p = true
  · have hall : (t ++ b).all p = true := by rw [all_append, ht, h]; rfl
    rw [dropWhile_eq_nil_iff.mpr (all_eq_true.mp hall),
      dropWhile_eq_nil_iff.mpr (all_eq_true.mp ht)]
  · have hne : ¬ (t.dropWhile p).isEmpty = true := by
      rw [List.isEmpty_iff, dropWhile_eq_nil_iff]
      exact fun hall => ht (all_eq_true.mpr hall)
    rw [dropWhile_append, if_neg hne, hdrop]

/-- Behind a text that is not all trimmed, what is not all trimmed makes it longer. -/
theorem length_trimBy_append (ht : trimBy p t ≠ []) (hb : ¬ b.all p = true) :
    (trimBy p t).length < (trimBy p (t ++ b)).length := by
  have hne : ¬ (t.dropWhile p).isEmpty = true := by
    intro hempty
    apply ht
    unfold trimBy
    rw [List.isEmpty_iff.mp hempty]
    rfl
  have hrev : ¬ (b.reverse.dropWhile p).isEmpty = true := by
    rw [List.isEmpty_iff, dropWhile_eq_nil_iff]
    intro hall
    apply hb
    rw [← all_reverse]
    exact all_eq_true.mpr hall
  have hpos : 0 < (b.reverse.dropWhile p).length := by
    rw [List.isEmpty_iff] at hrev
    exact length_pos_iff.mpr hrev
  have hle := ((t.dropWhile p).reverse.dropWhile_sublist p).length_le
  unfold trimBy
  rw [dropWhile_append, if_neg hne, reverse_append, dropWhile_append, if_neg hrev]
  simp only [length_reverse, length_append] at hle ⊢
  omega

/-- What trimming takes off is in the class. -/
theorem mem_trimBy_or (hc : c ∈ t) : c ∈ trimBy p t ∨ p c = true := by
  have hdrop : ∀ {l : List α}, c ∈ l → c ∈ l.dropWhile p ∨ p c = true := by
    intro l hl
    rw [← takeWhile_append_dropWhile (p := p) (l := l), mem_append] at hl
    exact hl.elim (fun h => .inr (mem_takeWhile_imp h)) .inl
  unfold trimBy
  rw [mem_reverse]
  obtain hc | hc := hdrop hc
  · exact hdrop (mem_reverse.mpr hc)
  · exact .inr hc

/-- Two classes that agree on a text trim it alike. -/
theorem trimBy_congr (h : ∀ c ∈ t, p c = q c) : trimBy p t = trimBy q t := by
  have hdrop : ∀ {l : List α}, (∀ c ∈ l, p c = q c) → l.dropWhile p = l.dropWhile q := by
    intro l hl
    induction l with
    | nil => rfl
    | cons c l ih =>
      obtain ⟨hc, hl⟩ := forall_mem_cons.mp hl
      rw [dropWhile_cons, dropWhile_cons, hc, ih hl]
  unfold trimBy
  rw [hdrop h, hdrop fun c hc => h c ((dropWhile_sublist q).subset (mem_reverse.mp hc))]

/-! ### Pieces -/

theorem mem_of_mem_splitOnP {piece : List α} (h : piece ∈ t.splitOnP p) (hc : c ∈ piece) :
    c ∈ t ∧ p c = false := by
  induction t generalizing piece with
  | nil =>
    rw [splitOnP_nil, mem_singleton] at h
    rw [h] at hc
    exact absurd hc not_mem_nil
  | cons d t ih =>
    rw [splitOnP_cons_eq_if_modifyHead] at h
    split at h
    · obtain rfl | h := mem_cons.mp h
      · exact absurd hc not_mem_nil
      · exact (ih h hc).imp_left (mem_cons_of_mem d)
    · next hd =>
        obtain ⟨first, more, hsplit⟩ := exists_cons_of_ne_nil (splitOnP_ne_nil p t)
        rw [hsplit, modifyHead_cons] at h
        rw [hsplit] at ih
        obtain rfl | h := mem_cons.mp h
        · obtain rfl | hc := mem_cons.mp hc
          · exact ⟨mem_cons_self, by simpa using hd⟩
          · exact (ih mem_cons_self hc).imp_left (mem_cons_of_mem d)
        · exact (ih (mem_cons_of_mem first h) hc).imp_left (mem_cons_of_mem d)

/-- Pieces that were joined by a separator are found again. -/
theorem splitOnP_intercalate (hx : p x = true) {pieces : List (List α)} (hne : pieces ≠ [])
    (h : ∀ piece ∈ pieces, ∀ c ∈ piece, p c = false) :
    ([x].intercalate pieces).splitOnP p = pieces := by
  induction pieces with
  | nil => exact absurd rfl hne
  | cons piece pieces ih =>
    have hpiece := h piece mem_cons_self
    by_cases hnil : pieces = []
    · subst hnil
      rw [intercalate_singleton]
      exact splitOnP_eq_singleton hpiece
    · rw [intercalate_cons_of_ne_nil hnil, append_assoc, singleton_append,
        splitOnP_append_cons_of_forall_mem hpiece x hx,
        ih hnil fun l hl => h l (mem_cons_of_mem piece hl)]

/-- Cutting at two kinds of separators at once, or at the one and then at the other. -/
theorem splitOnP_or (p q : α → Bool) (t : List α) :
    t.splitOnP (fun c => p c || q c) = (t.splitOnP p).flatMap (List.splitOnP q) := by
  induction t with
  | nil => simp
  | cons d t ih =>
    obtain ⟨first, more, hsplit⟩ := exists_cons_of_ne_nil (splitOnP_ne_nil p t)
    obtain ⟨piece, rest, hpiece⟩ := exists_cons_of_ne_nil (splitOnP_ne_nil q first)
    rw [hsplit, flatMap_cons] at ih
    rw [splitOnP_cons_eq_if_modifyHead, splitOnP_cons_eq_if_modifyHead, ih, hsplit]
    by_cases hp : p d = true
    · simp [hp]
    · by_cases hq : q d = true
      · simp [hp, hq, splitOnP_cons_eq_if_modifyHead]
      · simp [hp, hq, splitOnP_cons_eq_if_modifyHead, hpiece]

theorem length_eraseDups_le [BEq α] (l : List α) : l.eraseDups.length ≤ l.length := by
  induction hn : l.length using Nat.strong_induction_on generalizing l with
  | _ n ih =>
    cases l with
    | nil => simp
    | cons x l =>
      have hfilter := length_filter_le (fun y => !y == x) l
      rw [length_cons] at hn
      have hle := ih (l.filter fun y => !y == x).length (by omega) _ rfl
      rw [eraseDups_cons, length_cons]
      omega

theorem intercalate_concat (x : α) (hne : front ≠ []) (last : List α) :
    [x].intercalate (front ++ [last]) = [x].intercalate front ++ [x] ++ last := by
  induction front with
  | nil => exact absurd rfl hne
  | cons piece front ih =>
    by_cases hnil : front = []
    · subst hnil
      simp [List.intercalate]
    · have hne' : front ++ [last] ≠ [] := by simp
      rw [cons_append, intercalate_cons_of_ne_nil hne', ih hnil,
        intercalate_cons_of_ne_nil hnil]
      simp only [append_assoc]

/-- The text of pieces that begin outside the class is trimmed at the end of its last piece. -/
theorem trimBy_intercalate {last : List α}
    (h : ∀ piece ∈ front ++ [last], piece ≠ [] ∧ piece.head?.any p = false) :
    trimBy p ([x].intercalate (front ++ [last])) = [x].intercalate (front ++ [trimBy p last]) := by
  by_cases hnil : front = []
  · subst hnil
    simp [List.intercalate]
  · obtain ⟨hlastNe, hlast⟩ := h last (by simp)
    obtain ⟨piece, more, rfl⟩ := exists_cons_of_ne_nil hnil
    obtain ⟨hpieceNe, hpiece⟩ := h piece (by simp)
    have hfront : ∃ s, [x].intercalate (piece :: more) ++ [x] = piece ++ s := by
      by_cases hmore : more = []
      · subst hmore
        exact ⟨[x], by simp [List.intercalate]⟩
      · rw [intercalate_cons_of_ne_nil hmore]
        exact ⟨[x] ++ [x].intercalate more ++ [x], by simp only [append_assoc]⟩
    obtain ⟨s, hs⟩ := hfront
    rw [intercalate_concat x hnil, intercalate_concat x hnil]
    refine trimBy_append ?_ ?_ hlastNe hlast
    · simp
    · rw [hs, head?_append_of_ne_nil _ hpieceNe]
      exact hpiece

end Pieces
