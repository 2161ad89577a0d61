/-
Texts as lists of characters: the operations of a string library that look for fixed patterns,
for white space and for decimal numbers.

Cutting at a pattern is the same for characters and for bytes, so it is stated for any list.
-/
import Mathlib.Data.List.Basic

namespace Text

open List

/-! ### ASCII case -/

/-- `eq_ignore_ascii_case`; `Char.toLower` touches ASCII letters only. -/
def eqIgnoreAsciiCase (s t : List Char) : Bool := s.map Char.toLower == t.map Char.toLower

theorem isAlphanum_iff {c : Char} : c.isAlphanum = true ↔
    (65 ≤ c.toNat ∧ c.toNat ≤ 90) ∨ (97 ≤ c.toNat ∧ c.toNat ≤ 122) ∨
      (48 ≤ c.toNat ∧ c.toNat ≤ 57) := by
  change ((decide (65 ≤ c.val ∧ c.val ≤ 90) || (decide (97 ≤ c.val) && decide (c.val ≤ 122))) ||
    (decide (48 ≤ c.val) && decide (c.val ≤ 57))) = true ↔ _
  simp only [Bool.or_eq_true, Bool.and_eq_true, decide_eq_true_eq, UInt32.le_iff_toNat_le]
  exact or_assoc

/-- What `to_lowercase` does to ASCII: every letter becomes small, whatever follows. -/
structure LowersAscii (lower : List Char → List Char) : Prop where
  whole : ∀ t : List Char, (∀ c ∈ t, c.toNat < 128) → lower t = t.map Char.toLower
  front : ∀ a b : List Char, (∀ c ∈ a, c.toNat < 128) →
    ∃ s, lower (a ++ b) = a.map Char.toLower ++ s

variable {t a w : List Char}

/-- The same where the characters are tried one by one. -/
theorem LowersAscii.of_all {lower : List Char → List Char} (h : LowersAscii lower)
    (ht : (t.all fun c => decide (c.toNat < 128)) = true) : lower t = t.map Char.toLower :=
  h.whole t fun c hc => of_decide_eq_true (all_eq_true.mp ht c hc)

/-- `Char.toLower` itself is such a function. -/
theorem lowersAscii_map : LowersAscii (·.map Char.toLower) where
  whole _ _ := rfl
  front _ _ _ := ⟨_, map_append⟩

/-! ### Cutting at a pattern -/

section Cut

variable {α : Type}

/-- `strip_prefix`. -/
def strip [DecidableEq α] (pat t : List α) : Option (List α) :=
  if pat.isPrefixOf t then some (t.drop pat.length) else none

/-- `split_once`: before and after the first place where the pattern stands. -/
def splitOnce [DecidableEq α] (pat : List α) : List α → Option (List α × List α)
  | [] => (strip pat []).map ([], ·)
  | c :: t =>
    match strip pat (c :: t) with
    | some rest => some ([], rest)
    | none => (splitOnce pat t).map fun (before, after) => (c :: before, after)

/-- `rsplit_once` for a single character: the last place. -/
def rsplitOnce [DecidableEq α] (c : α) (t : List α) : Option (List α × List α) :=
  (splitOnce [c] t.reverse).map fun (after, before) => (before.reverse, after.reverse)

/-- Every place where the pattern stands, from the left. -/
def replaceFrom [DecidableEq α] (old new : List α) : (fuel : Nat) → List α → List α
  | 0, t => t
  | fuel + 1, t =>
    match splitOnce old t with
    | none => t
    | some (before, after) => before ++ (new ++ replaceFrom old new fuel after)

/-- `String.replace`.  A place takes at least a character of the text. -/
def replace [DecidableEq α] (old new t : List α) : List α := replaceFrom old new (t.length + 1) t

variable {c x y : α} {before after r₂ r₁ rest l₂ l₁ l r pat mid : List α}

/-- A list cut at two places where `x` stands, the first of them the first one. -/
theorem append_cons_eq (hx : x ∉ l₁) (h : l₁ ++ x :: r₁ = l₂ ++ x :: r₂) :
    (l₂ = l₁ ∧ r₂ = r₁) ∨ ∃ m, l₂ = l₁ ++ x :: m ∧ r₁ = m ++ x :: r₂ := by
  obtain ⟨m, rfl, hr⟩ | ⟨m, rfl, hr⟩ := append_eq_append_iff.mp h
  · cases m with
    | nil =>
      left
      simp at hr
      exact ⟨by simp, hr.symm⟩
    | cons y m =>
      right
      obtain ⟨rfl, rfl⟩ := List.cons.inj hr
      exact ⟨m, rfl, rfl⟩
  · cases m with
    | nil =>
      left
      simp at hr
      exact ⟨by simp, hr⟩
    | cons y m =>
      obtain ⟨rfl, -⟩ := List.cons.inj hr
      exact absurd (by simp) hx

/-- The cut at the first `x` is the only one. -/
theorem cut_unique (h₁ : x ∉ l₁) (h₂ : x ∉ l₂) (h : l₁ ++ x :: r₁ = l₂ ++ x :: r₂) :
    l₁ = l₂ ∧ r₁ = r₂ := by
  obtain ⟨rfl, rfl⟩ | ⟨m, rfl, -⟩ := append_cons_eq h₁ h
  · exact ⟨rfl, rfl⟩
  · exact absurd (by simp) h₂

/-- What does not hold a character stands before it or behind it. -/
theorem infix_of_notMem (hx : x ∉ pat) (h : pat <:+: l ++ x :: r) : pat <:+: l ∨ pat <:+: r := by
  obtain ⟨s, u, hsplit⟩ := h
  rw [append_assoc] at hsplit
  obtain ⟨a, rfl, hrest⟩ | ⟨a, rfl, hrest⟩ := append_eq_append_iff.mp hsplit
  · obtain ⟨b, rfl, -⟩ | ⟨b, hpat, hb⟩ := append_eq_append_iff.mp hrest
    · exact .inl ⟨s, b, by simp⟩
    · cases b with
      | nil => exact .inl ⟨s, [], by simpa using hpat⟩
      | cons z b =>
        obtain ⟨rfl, -⟩ := cons_eq_cons.mp hb
        exact absurd (hpat ▸ mem_append_right a mem_cons_self) hx
  · cases a with
    | nil =>
      cases pat with
      | nil => exact .inl ( nil_infix ..)
      | cons z pat =>
        obtain ⟨rfl, -⟩ := cons_eq_cons.mp hrest
        exact absurd mem_cons_self hx
    | cons z a =>
      obtain ⟨-, rfl⟩ := cons_eq_cons.mp hrest
      exact .inr ⟨a, u, by simp⟩

variable [DecidableEq α] {t : List α}

theorem strip_append (pat t : List α) : strip pat (pat ++ t) = some t := by
  unfold strip
  simp

theorem eq_of_strip (h : strip pat t = some rest) : t = pat ++ rest := by
  unfold strip at h
  split at h
  · next hpre =>
      obtain ⟨rest', rfl⟩ := isPrefixOf_iff_prefix.mp hpre
      simpa using h
  · cases h

theorem strip_eq_none (h : ∀ rest, t ≠ pat ++ rest) : strip pat t = none := by
  rw [Option.eq_none_iff_forall_ne_some]
  intro rest hstrip
  exact h rest (eq_of_strip hstrip)

/-- The two parts of a cut, with the pattern between them, are the text. -/
theorem eq_of_splitOnce (h : splitOnce pat t = some (before, after)) :
    t = before ++ pat ++ after := by
  induction t generalizing before with
  | nil =>
    simp only [splitOnce, Option.map_eq_some_iff, Prod.mk.injEq] at h
    obtain ⟨rest, hrest, rfl, rfl⟩ := h
    exact eq_of_strip hrest
  | cons c t ih =>
    unfold splitOnce at h
    split at h
    · next rest hrest =>
        obtain ⟨rfl, rfl⟩ := h
        exact eq_of_strip hrest
    · simp only [Option.map_eq_some_iff, Prod.mk.injEq] at h
      obtain ⟨⟨before', after'⟩, hrest, rfl, rfl⟩ := h
      rw [ih hrest]
      rfl

/-- A text that starts with the pattern is cut in front. -/
theorem splitOnce_of_strip (h : strip pat t = some rest) : splitOnce pat t = some ([], rest) := by
  cases t with
  | nil => rw [splitOnce, h, Option.map_some]
  | cons c t => rw [splitOnce, h]

/-- A text with the pattern in it is cut. -/
theorem isSome_splitOnce (pat before after : List α) :
    (splitOnce pat (before ++ (pat ++ after))).isSome := by
  induction before with
  | nil => rw [nil_append, splitOnce_of_strip (strip_append pat after), Option.isSome_some]
  | cons c before ih =>
    rw [cons_append, splitOnce]
    split
    · rfl
    · rwa [Option.isSome_map]

/-- The cut is at the first place where the pattern stands. -/
theorem length_le_of_splitOnce (h : splitOnce pat t = some (before, after)) {b a : List α}
    (ht : t = b ++ (pat ++ a)) : before.length ≤ b.length := by
  induction b generalizing t before with
  | nil =>
    rw [ht, nil_append, splitOnce_of_strip (strip_append pat a)] at h
    cases h
    exact Nat.le_refl 0
  | cons c b ih =>
    rw [ht, cons_append, splitOnce] at h
    split at h
    · cases h
      exact Nat.zero_le _
    · obtain ⟨⟨before', after'⟩, hrest, heq⟩ := Option.map_eq_some_iff.mp h
      cases heq
      exact Nat.succ_le_succ (ih hrest rfl)

/-- A text is cut at the first place where the pattern stands. -/
theorem splitOnce_eq (hfirst : ∀ b a, before ++ (pat ++ after) = b ++ (pat ++ a) →
      before.length ≤ b.length) :
    splitOnce pat (before ++ (pat ++ after)) = some (before, after) := by
  obtain ⟨⟨b, a⟩, hcut⟩ := Option.isSome_iff_exists.mp (isSome_splitOnce pat before after)
  have heq := eq_of_splitOnce hcut
  rw [append_assoc] at heq
  have hlen := Nat.le_antisymm (hfirst b a heq) (length_le_of_splitOnce hcut rfl)
  obtain ⟨rfl, hrest⟩ := append_inj heq hlen
  rw [hcut, append_cancel_left hrest]

/-- The text is cut at a pattern whose last character does not come before. -/
theorem splitOnce_of_notMem (hbefore : c ∉ before) (hpat : c ∉ pat) :
    splitOnce (pat ++ [c]) (before ++ (pat ++ c :: after)) = some (before, after) := by
  rw [append_cons pat c after]
  refine splitOnce_eq fun b a heq => ?_
  have hcut : (before ++ pat) ++ c :: after = (b ++ pat) ++ c :: a := by simpa using heq
  obtain ⟨hsame, -⟩ | ⟨m, hlong, -⟩ := append_cons_eq (by simp [hbefore, hpat]) hcut
  · exact Nat.le_of_eq (congrArg List.length (append_cancel_right hsame).symm)
  · have hlen := congrArg List.length hlong
    simp only [length_append, length_cons] at hlen
    omega

/-- What follows a text that is cut only makes the second part longer. -/
theorem splitOnce_append (h : splitOnce pat t = some (before, after)) (u : List α) :
    splitOnce pat (t ++ u) = some (before, after ++ u) := by
  have ht := eq_of_splitOnce h
  have hwhole : t ++ u = before ++ (pat ++ (after ++ u)) := by simp [ht]
  rw [hwhole]
  refine splitOnce_eq fun b a heq => ?_
  by_contra hshort
  -- a pattern that stands before the cut does not reach into `u`
  have hpre : b ++ pat <+: t := by
    have hstart : b ++ pat ++ a = t ++ u := by rw [append_assoc, ← heq, hwhole]
    refine prefix_of_prefix_length_le ⟨a, hstart⟩ ( prefix_append t u) ?_
    simp only [ht, length_append]
    omega
  obtain ⟨a', rfl⟩ := hpre
  exact hshort (length_le_of_splitOnce h (append_assoc b pat a'))

theorem splitOnce_char (h : c ∉ before) (after : List α) :
    splitOnce [c] (before ++ c :: after) = some (before, after) :=
  splitOnce_of_notMem h not_mem_nil

theorem notMem_of_splitOnce (h : splitOnce [c] t = some (before, after)) : c ∉ before := by
  intro hc
  obtain ⟨l, r, rfl⟩ := append_of_mem hc
  have hle := length_le_of_splitOnce h (b := l) (a := r ++ [c] ++ after) (by
    rw [eq_of_splitOnce h]
    simp)
  simp only [length_append, length_cons] at hle
  omega

/-- A text without a character of the pattern is not cut. -/
theorem splitOnce_none (hc : c ∈ pat) (h : c ∉ t) : splitOnce pat t = none := by
  cases hcut : splitOnce pat t with
  | none => rfl
  | some parts =>
    rw [eq_of_splitOnce hcut] at h
    simp [hc] at h

theorem splitOnce_char_none (h : c ∉ t) : splitOnce [c] t = none :=
  splitOnce_none mem_cons_self h

/-- The text is cut at a pattern whose first character does not come before. -/
theorem splitOnce_of_head (h : c ∉ before) (after : List α) :
    splitOnce (c :: pat) (before ++ (c :: pat ++ after)) = some (before, after) := by
  refine splitOnce_eq fun b a heq => ?_
  obtain ⟨rfl, -⟩ | ⟨m, rfl, -⟩ := append_cons_eq h heq
  · exact Nat.le_refl _
  · simp

/-- What has not the character comes before the cut. -/
theorem splitOnce_char_append (h : c ∉ before) (t : List α) :
    splitOnce [c] (before ++ t)
      = (splitOnce [c] t).map fun (first, after) => (before ++ first, after) := by
  cases hcut : splitOnce [c] t with
  | none =>
    apply splitOnce_char_none
    rw [mem_append, not_or]
    refine ⟨h, fun hmem => ?_⟩
    obtain ⟨l, r, rfl⟩ := append_of_mem hmem
    have hsome := isSome_splitOnce [c] l r
    rw [singleton_append, hcut] at hsome
    cases hsome
  | some parts =>
    have hfirst := notMem_of_splitOnce hcut
    rw [eq_of_splitOnce hcut, append_assoc, singleton_append, ← append_assoc,
      splitOnce_char (by simp [h, hfirst])]
    rfl

theorem eq_of_rsplitOnce (h : rsplitOnce c t = some (before, after)) :
    t = before ++ c :: after := by
  simp only [rsplitOnce, Option.map_eq_some_iff, Prod.mk.injEq] at h
  obtain ⟨⟨after', before'⟩, hcut, rfl, rfl⟩ := h
  rw [← reverse_reverse t, eq_of_splitOnce hcut]
  simp

theorem rsplitOnce_none (h : c ∉ t) : rsplitOnce c t = none := by
  unfold rsplitOnce
  rw [splitOnce_char_none (by simpa using h)]
  rfl

/-- The cut is at the last place. -/
theorem notMem_of_rsplitOnce (h : rsplitOnce c t = some (before, after)) : c ∉ after := by
  simp only [rsplitOnce, Option.map_eq_some_iff, Prod.mk.injEq] at h
  obtain ⟨⟨after', before'⟩, hcut, rfl, rfl⟩ := h
  simpa using notMem_of_splitOnce hcut

theorem rsplitOnce_of_notMem (h : c ∉ after) :
    rsplitOnce c (before ++ c :: after) = some (before, after) := by
  have hrev : c ∉ after.reverse := by simpa using h
  unfold rsplitOnce
  rw [reverse_append, reverse_cons, append_assoc, singleton_append,
    splitOnce_char hrev before.reverse]
  simp

/-- **What is replaced by a bracketed text is gone.** -/
theorem not_infix_replace (hne : pat ≠ []) (hx : x ∉ pat) (hy : y ∉ pat) (hmid : ¬ pat <:+: mid) :
    ¬ pat <:+: replace pat (x :: (mid ++ [y])) t := by
  have hall : ∀ fuel (t : List α), t.length < fuel →
      ¬ pat <:+: replaceFrom pat (x :: (mid ++ [y])) fuel t := by
    intro fuel
    induction fuel with
    | zero => exact fun t ht => absurd ht (Nat.not_lt_zero _)
    | succ fuel ih =>
      intro t ht hmem
      unfold replaceFrom at hmem
      split at hmem
      · next hnone =>
          obtain ⟨s, u, rfl⟩ := hmem
          have hsome := isSome_splitOnce pat s u
          rw [← append_assoc, hnone] at hsome
          cases hsome
      · next before after hcut =>
          have htext := eq_of_splitOnce hcut
          rw [cons_append] at hmem
          -- the brackets are not in the pattern, so it stands in one of the pieces
          obtain ⟨s, u, rfl⟩ | hrest := infix_of_notMem hx hmem
          · have hfirst := length_le_of_splitOnce hcut (b := s) (a := u ++ (pat ++ after))
              (by rw [htext]; simp)
            have hpos := length_pos_iff.mpr hne
            simp only [length_append] at hfirst
            omega
          · rw [append_assoc, cons_append, nil_append] at hrest
            obtain hin | hin := infix_of_notMem hy hrest
            · exact hmid hin
            · refine ih after ?_ hin
              have hpos := length_pos_iff.mpr hne
              rw [htext, length_append, length_append] at ht
              omega
  exact hall _ t (Nat.lt_succ_self _)
end Cut

/-! ### White space -/

/-- `char::is_whitespace`: the property White_Space of Unicode. -/
def isWhitespace (c : Char) : Bool :=
  let n := c.toNat
  (0x9 ≤ n && n ≤ 0xd) || n == 0x20 || n == 0x85 || n == 0xa0 || n == 0x1680 ||
    (0x2000 ≤ n && n ≤ 0x200a) || n == 0x2028 || n == 0x2029 || n == 0x202f || n == 0x205f ||
    n == 0x3000

/-- `Char.isWhitespace` of the JVM languages: the separators of Unicode and the controls that
Java counts as white space. -/
def isJvmWhitespace (c : Char) : Bool :=
  let n := c.toNat
  (0x9 ≤ n && n ≤ 0xd) || (0x1c ≤ n && n ≤ 0x20) || n == 0xa0 || n == 0x1680 ||
    (0x2000 ≤ n && n ≤ 0x200a) || n == 0x2028 || n == 0x2029 || n == 0x202f || n == 0x205f ||
    n == 0x3000

/-- `isBlank`. -/
def isBlank (t : List Char) : Bool := t.all isJvmWhitespace

/-- `trim`. -/
def trim (t : List Char) : List Char :=
  ((t.dropWhile isWhitespace).reverse.dropWhile isWhitespace).reverse

/-- The words of a text, the first of which has begun with `word`. -/
def wordsFrom (word : List Char) : List Char → List (List Char)
  | [] => if word = [] then [] else [word]
  | c :: t =>
    if isWhitespace c then if word = [] then wordsFrom [] t else word :: wordsFrom [] t
    else wordsFrom (word ++ [c]) t

/-- `split_whitespace`. -/
def splitWhitespace (t : List Char) : List (List Char) := wordsFrom [] t

/-- No white space in the text. -/
def Solid (t : List Char) : Prop := ∀ c ∈ t, isWhitespace c = false

instance (t : List Char) : Decidable (Solid t) :=
  List.decidableBAll (fun c => isWhitespace c = false) t

@[simp] theorem solid_append {s t : List Char} : Solid (s ++ t) ↔ Solid s ∧ Solid t :=
  forall_mem_append

theorem dropWhile_of_solid (h : Solid t) : t.dropWhile isWhitespace = t := by
  cases t with
  | nil => rfl
  | cons c t => rw [dropWhile_cons_of_neg (by simp [h c (by simp)])]

theorem trim_of_solid (h : Solid t) : trim t = t := by
  have hrev : Solid t.reverse := fun c hc => h c (mem_reverse.mp hc)
  rw [trim, dropWhile_of_solid h, dropWhile_of_solid hrev, reverse_reverse]

theorem wordsFrom_append (word : List Char) (h : Solid a) (t : List Char) :
    wordsFrom word (a ++ t) = wordsFrom (word ++ a) t := by
  induction a generalizing word with
  | nil => simp
  | cons c a ih =>
    have hc : isWhitespace c = false := h c (by simp)
    have ha : Solid a := fun d hd => h d (mem_cons_of_mem c hd)
    rw [cons_append, wordsFrom, hc, if_neg Bool.false_ne_true, ih (word ++ [c]) ha]
    simp

/-- A word with white space behind it. -/
theorem splitWhitespace_append (ha : Solid a) (hne : a ≠ []) {c : Char} (hc : isWhitespace c)
    (t : List Char) : splitWhitespace (a ++ c :: t) = a :: splitWhitespace t := by
  unfold splitWhitespace
  rw [wordsFrom_append [] ha, nil_append, wordsFrom, if_pos hc, if_neg hne]

theorem splitWhitespace_of_solid (ha : Solid a) (hne : a ≠ []) : splitWhitespace a = [a] := by
  have happend := wordsFrom_append [] ha []
  rw [append_nil, nil_append] at happend
  unfold splitWhitespace
  rw [happend, wordsFrom, if_neg hne]

/-- No word has white space in it. -/
theorem solid_of_mem_wordsFrom {word : List Char} (hword : Solid word) (hw : w ∈ wordsFrom word t) :
    Solid w := by
  induction t generalizing word with
  | nil =>
    unfold wordsFrom at hw
    split at hw
    · cases hw
    · rw [mem_singleton] at hw
      rwa [hw]
  | cons c t ih =>
    have hnil : Solid [] := fun _ h => absurd h not_mem_nil
    unfold wordsFrom at hw
    split at hw
    · split at hw
      · exact ih hnil hw
      · obtain rfl | hw := mem_cons.mp hw
        · exact hword
        · exact ih hnil hw
    · next hc =>
        apply ih _ hw
        intro d hd
        obtain hd | hd := mem_append.mp hd
        · exact hword d hd
        · rw [mem_singleton.mp hd]
          simpa using hc

theorem solid_of_mem (hw : w ∈ splitWhitespace t) : Solid w :=
  solid_of_mem_wordsFrom (fun _ h => absurd h not_mem_nil) hw

/-! ### Lines -/

/-- `lines().next()`, or nothing: a line ends at a line feed and loses one carriage return. -/
def firstLine (t : List Char) : List Char :=
  match splitOnce ['\n'] t with
  | none => t
  | some (line, _) => if line.getLast? = some '\r' then line.dropLast else line

theorem firstLine_crlf {line : List Char} (h : '\n' ∉ line) (t : List Char) :
    firstLine (line ++ '\r' :: '\n' :: t) = line := by
  have hline : '\n' ∉ line ++ ['\r'] := by simp [h]
  have hcut := splitOnce_char hline t
  rw [append_assoc, singleton_append] at hcut
  unfold firstLine
  rw [hcut]
  simp

/-! ### Numbers -/

/-- `parse` for an unsigned number below `bound`: an optional plus, then digits. -/
def parseUnsigned (bound : Nat) (t : List Char) : Option Nat :=
  let digits := if t.head? = some '+' then t.tail else t
  if digits = [] ∨ ¬ digits.all Char.isDigit then none
  else
    let value := Nat.ofDigitChars 10 digits 0
    if value < bound then some value else none

theorem parseUnsigned_toDigits {n bound : Nat} (h : n < bound) :
    parseUnsigned bound (Nat.toDigits 10 n) = some n := by
  have hdigit : ∀ c ∈ Nat.toDigits 10 n, c.isDigit := fun c hc =>
    Nat.isDigit_of_mem_toDigits (by decide) (by decide) hc
  have hplus : (Nat.toDigits 10 n).head? ≠ some '+' := by
    intro hhead
    exact absurd (hdigit '+' (mem_of_mem_head? hhead)) (by decide)
  have hall : (Nat.toDigits 10 n).all Char.isDigit := all_eq_true.mpr hdigit
  unfold parseUnsigned
  simp [hplus, hall, Nat.toDigits_ne_nil, Nat.ofDigitChars_toDigits, h]

end Text
