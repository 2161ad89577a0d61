/-
Texts of `key=value` lines.

A line is an assignment if a key stands before its first equals sign, and the last assignment to
a key counts.  Such a text is written by joining lines, one for each key.  A value with a line break
in it is then read as its first line, and whatever follows the break is read as lines of its own:
`assignments_joinLines` says which assignments a text written so holds.
-/
import Aether.Lib.Text

namespace KeyedLines

open List

/-! ### Reading -/

/-- A character that ends a line. -/
def isBreak (c : Char) : Bool := c == '\n' || c == '\r'

/-- A character in front of the first line. -/
def consLine (c : Char) : List (List Char) → List (List Char)
  | [] => [[c]]
  | line :: more => (c :: line) :: more

/-- `lineSequence`: lines end with a line feed, a carriage return, or both in this order. -/
def lines : List Char → List (List Char)
  | [] => [[]]
  | '\r' :: '\n' :: rest => [] :: lines rest
  | '\r' :: rest => [] :: lines rest
  | '\n' :: rest => [] :: lines rest
  | c :: rest => consLine c (lines rest)

/-- What a line assigns: the key before the first equals sign, if there is one, and the rest. -/
def assignment (line : List Char) : Option (List Char × List Char) :=
  match Text.splitOnce ['='] line with
  | some ([], _) => none
  | cut => cut

def assignments (t : List Char) : List (List Char × List Char) := (lines t).filterMap assignment

/-- The last value assigned to a key. -/
def lookup (key : List Char) (as : List (List Char × List Char)) : Option (List Char) :=
  (as.reverse.find? fun a => a.1 == key).map (·.2)

/-! ### Writing -/

def line (a : List Char × List Char) : List Char := a.1 ++ '=' :: a.2

/-- `joinToString("\n")`. -/
def joinLines : List (List Char) → List Char
  | [] => []
  | [l] => l
  | l :: ls => l ++ '\n' :: joinLines ls

/-- The first line of a text. -/
def first (t : List Char) : List Char := (lines t).headD []

/-- What the lines behind the first one assign. -/
def further (t : List Char) : List (List Char × List Char) := (lines t).tail.filterMap assignment

def NoBreak (t : List Char) : Prop := ∀ c ∈ t, isBreak c = false

instance (t : List Char) : Decidable (NoBreak t) :=
  List.decidableBAll (fun c => isBreak c = false) t

/-- A key by which a line can be found again. -/
structure IsKey (key : List Char) : Prop where
  ne_nil : key ≠ []
  noBreak : NoBreak key
  noEquals : '=' ∉ key

/-! ### Lines -/

theorem lines_ne_nil (t : List Char) : lines t ≠ [] := by
  fun_cases lines t with
  | case1 | case2 | case3 | case4 => exact cons_ne_nil _ _
  | case5 c rest =>
    cases lines rest with
    | nil | cons l ls => exact cons_ne_nil _ _

theorem lines_eq (t : List Char) : lines t = first t :: (lines t).tail := by
  obtain ⟨l, ls, h⟩ := exists_cons_of_ne_nil (lines_ne_nil t)
  simp [first, h]

theorem assignments_eq (t : List Char) :
    assignments t = (assignment (first t)).toList ++ further t := by
  unfold assignments further
  rw [lines_eq t, filterMap_cons]
  cases assignment (first t) with
  | none => rfl
  | some a => rfl

variable {c : Char} {key t value a : List Char} {as : List (List Char × List Char)}

theorem lines_cons (hc : isBreak c = false) (t : List Char) :
    lines (c :: t) = (c :: first t) :: (lines t).tail := by
  have hcr : c ≠ '\r' := by
    rintro rfl
    exact absurd hc (by decide)
  have hlf : c ≠ '\n' := by
    rintro rfl
    exact absurd hc (by decide)
  rw [lines]
  · rw [lines_eq t]
    rfl
  · exact fun rest h => absurd h hcr
  · exact hcr
  · exact hlf

/-- Behind a break everything is a further line. -/
theorem first_further_break (hc : isBreak c = true) (t : List Char) :
    first (c :: t) = [] ∧ further (c :: t) = assignments t := by
  simp only [isBreak, Bool.or_eq_true, beq_iff_eq] at hc
  obtain rfl | rfl := hc
  · rw [first, further, lines]
    exact ⟨rfl, rfl⟩
  · cases t with
    | nil => exact ⟨rfl, rfl⟩
    | cons d t =>
      by_cases hd : d = '\n'
      · subst hd
        rw [first, further, lines]
        refine ⟨rfl, ?_⟩
        rw [assignments, lines]
        rfl
      · rw [first, further, lines]
        · exact ⟨rfl, rfl⟩
        · intro rest h
          exact hd (List.cons.inj h).1

theorem first_cons (hc : isBreak c = false) (t : List Char) : first (c :: t) = c :: first t := by
  rw [first, lines_cons hc]
  rfl

theorem further_cons (hc : isBreak c = false) (t : List Char) : further (c :: t) = further t := by
  rw [further, lines_cons hc]
  rfl

theorem first_append (ha : NoBreak a) (t : List Char) : first (a ++ t) = a ++ first t := by
  induction a with
  | nil => rfl
  | cons c a ih =>
    rw [cons_append, first_cons (ha c mem_cons_self),
      ih fun d hd => ha d (mem_cons_of_mem c hd)]
    rfl

theorem further_append (ha : NoBreak a) (t : List Char) : further (a ++ t) = further t := by
  induction a with
  | nil => rfl
  | cons c a ih =>
    rw [cons_append, further_cons (ha c mem_cons_self),
      ih fun d hd => ha d (mem_cons_of_mem c hd)]

/-- A text without a break is its only line. -/
theorem first_of_noBreak (h : NoBreak t) : first t = t := by
  have happend := first_append h []
  rwa [append_nil, show first [] = [] from rfl, append_nil] at happend

theorem further_of_noBreak (h : NoBreak t) : further t = [] := by
  have happend := further_append h []
  rwa [append_nil] at happend

theorem noBreak_first (t : List Char) : NoBreak (first t) := by
  induction t with
  | nil => exact fun c hc => absurd hc not_mem_nil
  | cons c t ih =>
    by_cases hc : isBreak c = true
    · rw [(first_further_break hc t).1]
      exact fun d hd => absurd hd not_mem_nil
    · have hc : isBreak c = false := by simpa using hc
      rw [first_cons hc]
      rintro d hd
      obtain rfl | hd := mem_cons.mp hd
      · exact hc
      · exact ih d hd

/-! ### Assignments -/

/-- What a text assigns that was put together from two, with a break between them. -/
theorem first_further_append_break (a b : List Char) :
    first (a ++ '\n' :: b) = first a ∧ further (a ++ '\n' :: b) = further a ++ assignments b := by
  have hlf : isBreak '\n' = true := by decide
  induction a with
  | nil => exact first_further_break hlf b
  | cons c a ih =>
    rw [cons_append]
    by_cases hc : isBreak c = true
    · -- the rest is read from the beginning of a line on either side
      obtain ⟨hfirst, hfurther⟩ := first_further_break hc (a ++ '\n' :: b)
      obtain ⟨hfirst', hfurther'⟩ := first_further_break hc a
      rw [hfirst, hfurther, hfirst', hfurther', assignments_eq, assignments_eq a, ih.1, ih.2,
        append_assoc]
      exact ⟨rfl, rfl⟩
    · have hc : isBreak c = false := by simpa using hc
      rw [first_cons hc, further_cons hc, first_cons hc, further_cons hc, ih.1, ih.2]
      exact ⟨rfl, rfl⟩

theorem assignments_append_break (a b : List Char) :
    assignments (a ++ '\n' :: b) = assignments a ++ assignments b := by
  obtain ⟨hfirst, hfurther⟩ := first_further_append_break a b
  rw [assignments_eq, assignments_eq a, hfirst, hfurther, append_assoc]

theorem assignments_line (hkey : IsKey key) (value : List Char) :
    assignments (line (key, value)) = (key, first value) :: further value := by
  have hequals : NoBreak ['='] := by decide
  have hfront : NoBreak (key ++ ['=']) := forall_mem_append.mpr ⟨hkey.noBreak, hequals⟩
  have hline : line (key, value) = (key ++ ['=']) ++ value := by simp [line]
  have hcut : assignment (key ++ '=' :: first value) = some (key, first value) := by
    unfold assignment
    rw [Text.splitOnce_char hkey.noEquals]
    split
    · next heq =>
        obtain ⟨rfl, -⟩ := Prod.mk.inj (Option.some.inj heq)
        exact absurd rfl hkey.ne_nil
    · rfl
  rw [assignments_eq, hline, first_append hfront, further_append hfront, append_assoc]
  exact congrArg (fun o => o.toList ++ further value) hcut

/-- **What a text written line by line assigns**: to every key the first line of its value, and
what the further lines of the value say. -/
theorem assignments_joinLines (hkeys : ∀ a ∈ as, IsKey a.1) :
    assignments (joinLines (as.map line)) =
      as.flatMap fun a => (a.1, first a.2) :: further a.2 := by
  induction as with
  | nil => rfl
  | cons a as ih =>
    have ha := assignments_line (hkeys a mem_cons_self) a.2
    have has := ih fun b hb => hkeys b (mem_cons_of_mem a hb)
    cases as with
    | nil => simpa [joinLines] using ha
    | cons b as =>
      rw [flatMap_cons, ← has, ← ha, ← assignments_append_break]
      rfl

/-- Values without breaks are assigned as they are. -/
theorem flatMap_of_noBreak (h : ∀ a ∈ as, NoBreak a.2) :
    (as.flatMap fun a => (a.1, first a.2) :: further a.2) = as := by
  induction as with
  | nil => rfl
  | cons a as ih =>
    have ha := h a mem_cons_self
    rw [flatMap_cons, ih fun b hb => h b (mem_cons_of_mem a hb), first_of_noBreak ha,
      further_of_noBreak ha]
    rfl

theorem noBreak_of_assignment {l : List Char} (hl : NoBreak l) {a : List Char × List Char}
    (ha : assignment l = some a) : NoBreak a.2 := by
  have hcut : Text.splitOnce ['='] l = some (a.1, a.2) := by
    unfold assignment at ha
    split at ha
    · exact nomatch ha
    · exact ha
  rw [Text.eq_of_splitOnce hcut] at hl
  exact fun c hc => hl c (mem_append_right _ hc)

/-- No value that is read has a break. -/
theorem noBreak_of_mem_assignments {a : List Char × List Char} (h : a ∈ assignments t) :
    NoBreak a.2 := by
  induction t with
  | nil => exact absurd h not_mem_nil
  | cons c t ih =>
    rw [assignments_eq, mem_append, Option.mem_toList] at h
    obtain h | h := h
    · exact noBreak_of_assignment (noBreak_first (c :: t)) h
    · by_cases hc : isBreak c = true
      · exact ih ((first_further_break hc t).2 ▸ h)
      · have hc : isBreak c = false := by simpa using hc
        rw [further_cons hc] at h
        exact ih (assignments_eq t ▸ mem_append_right _ h)

/-! ### The last assignment -/

@[simp] theorem lookup_nil (key : List Char) : lookup key [] = none := rfl

theorem lookup_append (key : List Char) (as bs : List (List Char × List Char)) :
    lookup key (as ++ bs) = (lookup key bs).or (lookup key as) := by
  unfold lookup
  rw [reverse_append, List.find?_append]
  cases bs.reverse.find? fun a => a.1 == key with
  | none => rfl
  | some b => rfl

theorem lookup_cons_self (key value : List Char) (as : List (List Char × List Char)) :
    lookup key ((key, value) :: as) = some ((lookup key as).getD value) := by
  rw [← singleton_append, lookup_append]
  cases lookup key as with
  | none => simp [lookup]
  | some v => rfl

theorem lookup_cons_of_ne {other : List Char} (h : other ≠ key) (value : List Char)
    (as : List (List Char × List Char)) : lookup key ((other, value) :: as) = lookup key as := by
  rw [← singleton_append, lookup_append]
  have hnone : lookup key [(other, value)] = none := by simp [lookup, h]
  rw [hnone, Option.or_none]

theorem mem_of_lookup (h : lookup key as = some value) : (key, value) ∈ as := by
  obtain ⟨a, ha, rfl⟩ := Option.map_eq_some_iff.mp h
  have hkey : a.1 = key := by simpa using List.find?_some ha
  rw [← hkey]
  exact mem_reverse.mp (mem_of_find?_eq_some ha)

theorem lookup_ne_none {v : List Char} (h : (key, v) ∈ as) : lookup key as ≠ none := by
  intro hnone
  have hfind := List.find?_eq_none.mp (Option.map_eq_none_iff.mp hnone)
  exact hfind (key, v) (mem_reverse.mpr h) (beq_self_eq_true key)

/-- Among different keys every one has its value. -/
theorem lookup_of_nodup (hkeys : (as.map (·.1)).Nodup) (h : (key, value) ∈ as) :
    lookup key as = some value := by
  induction as with
  | nil => exact absurd h not_mem_nil
  | cons a as ih =>
    obtain ⟨hnotMem, hnodup⟩ := nodup_cons.mp hkeys
    obtain rfl | h := mem_cons.mp h
    · have hnone : lookup key as = none := by
        refine Option.eq_none_iff_forall_ne_some.mpr fun v hv => hnotMem ?_
        exact mem_map.mpr ⟨(key, v), mem_of_lookup hv, rfl⟩
      rw [lookup_cons_self, hnone]
      rfl
    · have hne : a.1 ≠ key := by
        rintro rfl
        exact hnotMem (mem_map.mpr ⟨(a.1, value), h, rfl⟩)
      rw [lookup_cons_of_ne hne]
      exact ih hnodup h

end KeyedLines
