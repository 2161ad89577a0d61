/-
Passes of a pattern over a text that goes on.

`scan` is a pass over the first part of a text.  `scan_beside` compares two passes over the same
text with different texts behind it: where each place finds alike on both sides, the passes write
alike, and run into the text behind on both sides or on neither.  `scan_last` says how the text
written ends.
-/
import Mathlib.Data.List.TakeWhile
import Aether.Lib.Regex

namespace Regex

open List

variable {α : Type}

/-! ### The first match -/

/-- The first results are related, or there is none on either side. -/
def HeadRel (R : Cursor α → Cursor α → Prop) (l₁ l₂ : List (Cursor α)) : Prop :=
  Option.Rel R l₁.head? l₂.head?

namespace HeadRel

variable {R S : Cursor α → Cursor α → Prop} {l₁ l₂ m₁ m₂ : List (Cursor α)}

theorem of_forall₂ (h : List.Forall₂ S l₁ l₂) (hSR : ∀ a b, S a b → R a b) :
    HeadRel R l₁ l₂ := by
  cases h with
  | nil => exact .none
  | cons hab _ => exact .some (hSR _ _ hab)

end HeadRel

variable {r : Regex α} {prev : Option α} {text captured : List α}

/-- What a match found is: a first result, the length of what it took, and its capture. -/
theorem exists_of_find {n : Nat} (h : find r prev text = some (n, captured)) :
    ∃ s w, (run r ⟨prev, text, []⟩).head? = some s ∧ Takes w ⟨prev, text, []⟩ s ∧
      w.length = n ∧ s.captured = captured := by
  obtain ⟨s, hs, heq⟩ := Option.map_eq_some_iff.mp h
  obtain ⟨w, hw⟩ := takes_run (mem_of_mem_head? hs)
  obtain ⟨hn, hcaptured⟩ := Prod.mk.inj heq
  refine ⟨s, w, hs, hw, ?_, hcaptured⟩
  have hlen : text.length = w.length + s.rest.length := hw.length
  omega

theorem find_of_head {w : List α} {s : Cursor α} (hs : (run r ⟨prev, text, []⟩).head? = some s)
    (hw : text = w ++ s.rest) : find r prev text = some (w.length, s.captured) := by
  have hlen : text.length - s.rest.length = w.length := by
    rw [hw, length_append, Nat.add_sub_cancel]
  simp only [find, hs, Option.map_some, hlen]

theorem find_eq_none (h : (run r ⟨prev, text, []⟩).head? = none) : find r prev text = none := by
  rw [find, h]
  rfl

/-- No match where the character it has to reach is not within its reach. -/
theorem find_eq_none_of_reaches {p q : α → Bool} (hr : Reaches p q r) (prev : Option α)
    {v z : List α} (hv : ∀ c ∈ v, q c = false)
    (hz : z.head?.any p = false ∧ z.head?.any q = false) : find r prev (v ++ z) = none := by
  refine Option.eq_none_iff_forall_ne_some.mpr ?_
  rintro ⟨n, captured⟩ h
  obtain ⟨s, w, hs, hw, -, -⟩ := exists_of_find h
  obtain ⟨u, c, w', rfl, hu, hc⟩ := hr.takes (mem_of_mem_head? hs) hw
  have hrest : v ++ z = u ++ c :: (w' ++ s.rest) := by simpa using hw.rest
  obtain ⟨x, hu', hz'⟩ | ⟨x, hv', hx⟩ := append_eq_append_iff.mp hrest
  · -- what it reaches stands behind `v`, so the beginning of `z` is on the way or the end of it
    cases x with
    | nil =>
      rw [hz'] at hz
      simp [hc] at hz
    | cons d x =>
      rw [hz'] at hz
      have hd : p d = true := hu d (by rw [hu']; simp)
      simp [hd] at hz
  · cases x with
    | nil =>
      rw [← nil_append z, ← hx] at hz
      simp [hc] at hz
    | cons d x =>
      obtain ⟨rfl, -⟩ := List.cons.inj hx
      have hd : q c = false := hv c (by rw [hv']; simp)
      rw [hd] at hc
      exact absurd hc (by decide)

/-! ### A pass, place by place -/

theorem getLast?_cons_or (c : α) (text : List α) (prev : Option α) :
    (c :: text).getLast?.or prev = text.getLast?.or (some c) := by
  cases text with
  | nil => rfl
  | cons d text => simp [List.getLast?_cons]

/-- Nothing is taken. -/
def Missed (found : Option (Nat × List α)) : Prop := ∀ n captured, found ≠ some (n + 1, captured)

theorem missed_none : Missed (none : Option (Nat × List α)) := fun _ _ h => nomatch h

theorem missed_or (found : Option (Nat × List α)) :
    Missed found ∨ ∃ n captured, found = some (n + 1, captured) := by
  by_cases h : ∃ n captured, found = some (n + 1, captured)
  · exact .inr h
  · exact .inl fun n captured heq => h ⟨n, captured, heq⟩

section Pass

variable {r : Regex α} {f : List α → List α → List α} {prev : Option α} {c : α}
  {text captured : List α} {n : Nat}

theorem replaceFrom_found (h : find r prev (c :: text) = some (n + 1, captured)) :
    replaceFrom r f 0 prev (c :: text) =
      f ((c :: text).take (n + 1)) captured ++ replaceFrom r f n (some c) text := by
  rw [replaceFrom, h]

theorem replaceFrom_missed (h : Missed (find r prev (c :: text))) :
    replaceFrom r f 0 prev (c :: text) = c :: replaceFrom r f 0 (some c) text := by
  rw [replaceFrom]
  split
  · next heq => exact absurd heq (h _ _)
  · rfl

/-- What a match before has taken is passed over. -/
theorem replaceFrom_skip (prev : Option α) (after : List α) (hn : text.length ≤ n) :
    replaceFrom r f n prev (text ++ after) =
      replaceFrom r f (n - text.length) (text.getLast?.or prev) after := by
  induction text generalizing n prev with
  | nil => rfl
  | cons c text ih =>
    obtain ⟨n, rfl⟩ : ∃ m, n = m + 1 := ⟨n - 1, by simp at hn; omega⟩
    rw [getLast?_cons_or, length_cons, Nat.add_sub_add_right]
    exact ih (some c) (by simpa using hn)

/-- A text in which no match begins stays. -/
theorem replaceFrom_pass (prev : Option α) (text after : List α)
    (h : ∀ prev v, v ≠ [] → v <:+ text → Missed (find r prev (v ++ after))) :
    replaceFrom r f 0 prev (text ++ after) =
      text ++ replaceFrom r f 0 (text.getLast?.or prev) after := by
  induction text generalizing prev with
  | nil => rfl
  | cons c text ih =>
    have hmissed : Missed (find r prev (c :: (text ++ after))) :=
      h prev (c :: text) (by simp) suffix_rfl
    rw [getLast?_cons_or, cons_append, replaceFrom_missed hmissed,
      ih (some c) fun prev v hv hsuffix => h prev v hv (hsuffix.trans (suffix_cons c text))]
    rfl

end Pass

/-! ### A pass over a text that goes on -/

/-- What is written for `text` while `after` follows it, and a match begun in `text` that runs
into `after`: what is written for it, and how much of `after` it takes. -/
def scan (r : Regex α) (f : List α → List α → List α) :
    (skip : Nat) → (prev : Option α) → (text after : List α) → List α × Option (List α × Nat)
  | _, _, [], _ => ([], none)
  | skip + 1, _, c :: text, after => scan r f skip (some c) text after
  | 0, prev, c :: text, after =>
    match find r prev (c :: (text ++ after)) with
    | some (n + 1, captured) =>
      let written := f ((c :: (text ++ after)).take (n + 1)) captured
      if text.length < n then ([], some (written, n - text.length))
      else
        let next := scan r f n (some c) text after
        (written ++ next.1, next.2)
    | _ =>
      let next := scan r f 0 (some c) text after
      (c :: next.1, next.2)

/-- What is written for the text behind, after a match that runs into it or none. -/
def replaceAfter (r : Regex α) (f : List α → List α → List α) (prev : Option α)
    (after : List α) : Option (List α × Nat) → List α
  | none => replaceFrom r f 0 prev after
  | some (written, n) => written ++ replaceFrom r f n prev after

section Scan

variable {r : Regex α} {f : List α → List α → List α} {prev : Option α} {c : α}
  {text after captured : List α} {n : Nat}

theorem scan_missed (h : Missed (find r prev (c :: (text ++ after)))) :
    scan r f 0 prev (c :: text) after =
      (c :: (scan r f 0 (some c) text after).1, (scan r f 0 (some c) text after).2) := by
  rw [scan]
  split
  · next heq => exact absurd heq (h _ _)
  · rfl

theorem scan_across (h : find r prev (c :: (text ++ after)) = some (n + 1, captured))
    (hn : text.length < n) :
    scan r f 0 prev (c :: text) after =
      ([], some (f ((c :: (text ++ after)).take (n + 1)) captured, n - text.length)) := by
  rw [scan, h]
  exact if_pos hn

theorem scan_inside (h : find r prev (c :: (text ++ after)) = some (n + 1, captured))
    (hn : n ≤ text.length) :
    scan r f 0 prev (c :: text) after =
      (f ((c :: (text ++ after)).take (n + 1)) captured ++ (scan r f n (some c) text after).1,
        (scan r f n (some c) text after).2) := by
  rw [scan, h]
  exact if_neg (Nat.not_lt.mpr hn)

/-- A pass over two texts, one behind the other. -/
theorem replaceFrom_append {skip : Nat} (prev : Option α) (after : List α)
    (hskip : skip ≤ text.length) :
    replaceFrom r f skip prev (text ++ after) = (scan r f skip prev text after).1 ++
      replaceAfter r f (text.getLast?.or prev) after (scan r f skip prev text after).2 := by
  induction text generalizing skip prev with
  | nil =>
    obtain rfl : skip = 0 := by simpa using hskip
    rfl
  | cons c text ih =>
    rw [getLast?_cons_or]
    cases skip with
    | succ skip => exact ih (some c) (by simpa using hskip)
    | zero =>
      rw [cons_append]
      obtain hmissed | ⟨n, captured, hfound⟩ := missed_or (find r prev (c :: (text ++ after)))
      · rw [scan_missed hmissed, replaceFrom_missed hmissed, ih (some c) (Nat.zero_le _)]
        rfl
      · rw [replaceFrom_found hfound]
        by_cases hn : text.length < n
        · rw [scan_across hfound hn, replaceFrom_skip (some c) after (Nat.le_of_lt hn)]
          rfl
        · have hle := Nat.le_of_not_lt hn
          rw [scan_inside hfound hle, ih (some c) hle, append_assoc]

/-- No match runs into the text behind where none is long enough. -/
theorem scan_snd_eq_none {skip : Nat} (hskip : skip ≤ text.length)
    (h : ∀ prev v, v ≠ [] → v <:+ text → ∀ n captured,
      find r prev (v ++ after) = some (n, captured) → n ≤ v.length) :
    (scan r f skip prev text after).2 = none := by
  induction text generalizing skip prev with
  | nil => rfl
  | cons c text ih =>
    have hrest : ∀ {skip : Nat} {prev}, skip ≤ text.length →
        (scan r f skip prev text after).2 = none := fun hskip =>
      ih hskip fun prev v hv hsuffix => h prev v hv (hsuffix.trans (suffix_cons c text))
    cases skip with
    | succ skip => exact hrest (by simpa using hskip)
    | zero =>
      obtain hmissed | ⟨n, captured, hfound⟩ := missed_or (find r prev (c :: (text ++ after)))
      · rw [scan_missed hmissed]
        exact hrest (Nat.zero_le _)
      · have hle := h prev (c :: text) (by simp) suffix_rfl _ _ hfound
        have hle : n ≤ text.length := by simpa using hle
        rw [scan_inside hfound hle]
        exact hrest hle

/-- How a text written ends: as the text read, or with what was written for the last match and
the text behind it. -/
theorem scan_last {skip : Nat} (hskip : skip ≤ text.length)
    (hnone : (scan r f skip prev text after).2 = none) :
    (scan r f skip prev text after).1 = text.drop skip ∨
      ∃ out m captured v prev', m ≠ [] ∧ m ++ v <:+ text ∧
        find r prev' (m ++ v ++ after) = some (m.length, captured) ∧
        (scan r f skip prev text after).1 = out ++ f m captured ++ v := by
  induction text generalizing skip prev with
  | nil =>
    left
    simp [scan]
  | cons c text ih =>
    cases skip with
    | succ skip =>
      obtain h | ⟨out, m, captured, v, prev', hm, hsuffix, hfind, h⟩ :=
        ih (by simpa using hskip) hnone
      · exact .inl h
      · exact .inr ⟨out, m, captured, v, prev', hm, hsuffix.trans (suffix_cons c text),
          hfind, h⟩
    | zero =>
      obtain hmissed | ⟨n, captured, hfound⟩ := missed_or (find r prev (c :: (text ++ after)))
      · rw [scan_missed hmissed] at hnone ⊢
        obtain h | ⟨out, m, captured, v, prev', hm, hsuffix, hfind, h⟩ :=
          ih (Nat.zero_le _) hnone
        · left
          simp [h]
        · exact .inr ⟨c :: out, m, captured, v, prev', hm,
            hsuffix.trans (suffix_cons c text), hfind, by simp [h]⟩
      · by_cases hn : text.length < n
        · rw [scan_across hfound hn] at hnone
          exact nomatch hnone
        · have hle := Nat.le_of_not_lt hn
          rw [scan_inside hfound hle] at hnone ⊢
          right
          obtain h | ⟨out, m, captured', v, prev', hm, hsuffix, hfind, h⟩ := ih hle hnone
          · -- it was the last match
            have htake : (c :: (text ++ after)).take (n + 1) = c :: text.take n := by
              rw [take_succ_cons, take_append_of_le_length hle]
            refine ⟨[], c :: text.take n, captured, text.drop n, prev, by simp, ?_, ?_, ?_⟩
            · simp
            · simpa [hle] using hfound
            · simp only [h, htake, nil_append]
          · refine ⟨f ((c :: (text ++ after)).take (n + 1)) captured ++ out, m, captured', v,
              prev', hm, hsuffix.trans (suffix_cons c text), hfind, ?_⟩
            simp only [h, append_assoc]

end Scan

/-! ### Two texts behind -/

/-- Two places that stand before the texts behind, at the same distance, or behind `x₁` here and
`x₂` there; the latter only under `C`. -/
inductive Beside (x₁ r₁ x₂ r₂ : List α) (C : Prop) (t₁ t₂ : Cursor α) : Prop
  | inside (w : List α) (h₁ : t₁.rest = w ++ (x₁ ++ r₁)) (h₂ : t₂.rest = w ++ (x₂ ++ r₂))
      (hcaptured : t₁.captured = t₂.captured)
  | across (hC : C) (h₁ : t₁.rest = r₁) (h₂ : t₂.rest = r₂)
      (hcaptured : t₁.captured = t₂.captured)

section Beside

variable {r : Regex α} {f : List α → List α → List α} {x₁ r₁ x₂ r₂ : List α} {p₂ p₁ : Option α}
  {text : List α}

theorem beside_of_agree {C : Prop} {t₁ t₂ : Cursor α}
    (h : Agree p₁ p₂ (x₁ ++ r₁) (x₂ ++ r₂) t₁ t₂) : Beside x₁ r₁ x₂ r₂ C t₁ t₂ := by
  obtain ⟨w, h₁, h₂⟩ := h.rest
  exact .inside w h₁ h₂ h.captured

theorem agree_start (z₁ z₂ : List α) (prev : Option α) (v : List α) :
    Agree p₁ p₂ z₁ z₂ ⟨prev, v ++ z₁, []⟩ ⟨prev, v ++ z₂, []⟩ :=
  ⟨⟨v, rfl, rfl⟩, .inl rfl, rfl⟩

/-- What is found at two such places. -/
theorem find_beside {C : Prop} {prev : Option α} {c : α}
    (h : HeadRel (Beside x₁ r₁ x₂ r₂ C) (run r ⟨prev, c :: text ++ (x₁ ++ r₁), []⟩)
      (run r ⟨prev, c :: text ++ (x₂ ++ r₂), []⟩)) :
    (Missed (find r prev (c :: (text ++ (x₁ ++ r₁)))) ∧
      Missed (find r prev (c :: (text ++ (x₂ ++ r₂))))) ∨
    (∃ n captured, n ≤ text.length ∧
      find r prev (c :: (text ++ (x₁ ++ r₁))) = some (n + 1, captured) ∧
      find r prev (c :: (text ++ (x₂ ++ r₂))) = some (n + 1, captured)) ∨
    (C ∧ ∃ captured,
      find r prev (c :: (text ++ (x₁ ++ r₁))) = some (text.length + x₁.length + 1, captured) ∧
      find r prev (c :: (text ++ (x₂ ++ r₂))) = some (text.length + x₂.length + 1, captured)) := by
  rw [← cons_append, ← cons_append]
  generalize hl₁ : (run r ⟨prev, c :: text ++ (x₁ ++ r₁), []⟩).head? = a at h
  generalize hl₂ : (run r ⟨prev, c :: text ++ (x₂ ++ r₂), []⟩).head? = b at h
  unfold HeadRel at h
  rw [hl₁, hl₂] at h
  cases h with
  | none =>
    rw [find_eq_none hl₁, find_eq_none hl₂]
    exact .inl ⟨missed_none, missed_none⟩
  | @some t₁ t₂ hab =>
    cases hab with
    | inside w h₁ h₂ hcaptured =>
      obtain ⟨u, hu⟩ := takes_run (mem_of_mem_head? hl₁)
      have hv : c :: text = u ++ w := by
        have hrest : c :: text ++ (x₁ ++ r₁) = u ++ t₁.rest := hu.rest
        rw [h₁, ← append_assoc u w] at hrest
        exact append_cancel_right hrest
      have hfind₁ := find_of_head hl₁ (w := u) (by rw [h₁, hv, append_assoc])
      have hfind₂ := find_of_head hl₂ (w := u) (by rw [h₂, hv, append_assoc])
      rw [hfind₁, hfind₂, hcaptured]
      cases u with
      | nil => exact .inl ⟨fun n captured => by simp, fun n captured => by simp⟩
      | cons d u =>
        refine .inr (.inl ⟨u.length, t₂.captured, ?_, rfl, rfl⟩)
        obtain ⟨-, rfl⟩ := List.cons.inj hv
        simp
    | across hC h₁ h₂ hcaptured =>
      refine .inr (.inr ⟨hC, t₂.captured, ?_, ?_⟩)
      · rw [find_of_head hl₁ (w := c :: text ++ x₁) (by rw [h₁, append_assoc]),
          hcaptured]
        simp
      · rw [find_of_head hl₂ (w := c :: text ++ x₂) (by rw [h₂, append_assoc])]
        simp

/-- **Two passes over a text that goes on in two ways.**  Where every place finds alike, they write
the same, and both or neither run into what is behind. -/
theorem scan_beside {C : List α → Prop} (r₁ r₂ : List α) (hx₁ : x₁ ≠ []) (hx₂ : x₂ ≠ [])
    (h : ∀ prev v, v ≠ [] → v <:+ text → HeadRel (Beside x₁ r₁ x₂ r₂ (C v))
      (run r ⟨prev, v ++ (x₁ ++ r₁), []⟩) (run r ⟨prev, v ++ (x₂ ++ r₂), []⟩))
    {skip : Nat} (hskip : skip ≤ text.length) (prev : Option α) :
    (scan r f skip prev text (x₁ ++ r₁)).1 = (scan r f skip prev text (x₂ ++ r₂)).1 ∧
      (((scan r f skip prev text (x₁ ++ r₁)).2 = none ∧
          (scan r f skip prev text (x₂ ++ r₂)).2 = none) ∨
        ∃ v captured, C v ∧
          (scan r f skip prev text (x₁ ++ r₁)).2 = some (f (v ++ x₁) captured, x₁.length) ∧
          (scan r f skip prev text (x₂ ++ r₂)).2 = some (f (v ++ x₂) captured, x₂.length)) := by
  induction text generalizing skip prev with
  | nil => exact ⟨rfl, .inl ⟨rfl, rfl⟩⟩
  | cons c text ih =>
    have hrest : ∀ {skip : Nat}, skip ≤ text.length → ∀ prev, _ := fun hskip prev =>
      ih (fun prev v hv hsuffix => h prev v hv (hsuffix.trans (suffix_cons c text)))
        hskip prev
    cases skip with
    | succ skip => exact hrest (by simpa using hskip) (some c)
    | zero =>
      obtain ⟨h₁, h₂⟩ | ⟨n, captured, hle, h₁, h₂⟩ | ⟨hCv, captured, h₁, h₂⟩ :=
        find_beside (h prev (c :: text) (by simp) suffix_rfl)
      · -- nothing is found on either side
        rw [scan_missed h₁, scan_missed h₂]
        obtain ⟨hout, hinto⟩ := hrest (Nat.zero_le _) (some c)
        exact ⟨by rw [hout], hinto⟩
      · -- the match ends in the text
        have htake : ∀ z, (c :: (text ++ z)).take (n + 1) = c :: text.take n := by
          intro z
          rw [take_succ_cons, take_append_of_le_length hle]
        rw [scan_inside h₁ hle, scan_inside h₂ hle]
        obtain ⟨hout, hinto⟩ := hrest hle (some c)
        exact ⟨by rw [hout, htake, htake], hinto⟩
      · -- the match runs into what is behind
        have hlen : ∀ x : List α, x ≠ [] → text.length < text.length + x.length := by
          intro x hx
          exact Nat.lt_add_of_pos_right (length_pos_iff.mpr hx)
        have htake : ∀ x r : List α,
            (c :: (text ++ (x ++ r))).take (text.length + x.length + 1) = c :: text ++ x := by
          intro x r
          rw [take_succ_cons, ← append_assoc, ← length_append]
          exact congrArg (c :: ·) take_left
        rw [scan_across h₁ (hlen x₁ hx₁), scan_across h₂ (hlen x₂ hx₂), htake, htake]
        refine ⟨rfl, .inr ⟨c :: text, captured, hCv, ?_, ?_⟩⟩
        · rw [Nat.add_sub_cancel_left]
        · rw [Nat.add_sub_cancel_left]

/-- A pattern that is blind to what is behind. -/
theorem scan_blind (hr : Blind none none (x₁ ++ r₁) (x₂ ++ r₂) r) (hx₁ : x₁ ≠ []) (hx₂ : x₂ ≠ [])
    (prev : Option α) (text : List α) :
    (scan r f 0 prev text (x₁ ++ r₁)).2 = none ∧
      scan r f 0 prev text (x₁ ++ r₁) = scan r f 0 prev text (x₂ ++ r₂) := by
  obtain ⟨hout, ⟨h₁, h₂⟩ | ⟨v, captured, hC, -, -⟩⟩ :=
    scan_beside (f := f) (C := fun _ => False) r₁ r₂ hx₁ hx₂
      (fun prev v _ _ => .of_forall₂ (run_agree hr (agree_start _ _ prev v))
        fun _ _ => beside_of_agree)
      (Nat.zero_le text.length) prev
  · exact ⟨h₁, Prod.ext hout (h₁.trans h₂.symm)⟩
  · exact hC.elim

end Beside

end Regex
