/-
Regular expressions as a backtracking matcher reads them.

`run` lists every way a pattern can match from a place of a text, the preferred one first:
alternatives are tried from left to right, and repetitions take as much as they can.  A match is
the first of the list, and `replace` goes through a text from match to match.

A pattern sees a text only through the classes it is made of.  `run_agree` says so once: two
places whose texts agree on these classes, up to a character that no class reads, match alike.
-/
import Mathlib.Data.List.Forall2

/-- A pattern over an alphabet. -/
inductive Regex (α : Type)
  | empty
  | one (p : α → Bool)
  | seq (r s : Regex α)
  | alt (r s : Regex α)
  /-- At most so many times, as often as it goes. -/
  | upTo (n : Nat) (r : Regex α)
  /-- Any number of times, as often as it goes. -/
  | many (r : Regex α)
  /-- What it takes is captured. -/
  | group (r : Regex α)
  /-- A boundary of words of these characters. -/
  | boundary (w : α → Bool)
  /-- No such character stands in front. -/
  | notBehind (p : α → Bool)

namespace Regex

open List

variable {α : Type}

/-! ### Patterns -/

def opt (r : Regex α) : Regex α := upTo 1 r

def times : Nat → Regex α → Regex α
  | 0, _ => empty
  | n + 1, r => seq r (times n r)

/-- `{m,n}`, with `n = m + more`. -/
def between (m more : Nat) (r : Regex α) : Regex α := seq (times m r) (upTo more r)

/-- `{m,}`. -/
def atLeast (m : Nat) (r : Regex α) : Regex α := seq (times m r) (many r)

def plus (r : Regex α) : Regex α := atLeast 1 r

/-- One after the other. -/
def all : List (Regex α) → Regex α
  | [] => empty
  | [r] => r
  | r :: rs => seq r (all rs)

/-- One of these, the first ones first. -/
def any : List (Regex α) → Regex α
  | [] => one fun _ => false
  | [r] => r
  | r :: rs => alt r (any rs)

/-! ### Matching -/

/-- A place in a text: the character in front, the rest, and what was captured on the way. -/
structure Cursor (α : Type) where
  prev : Option α
  rest : List α
  captured : List α

/-- Repetition.  A round that takes nothing is not one. -/
def iter (f : Cursor α → List (Cursor α)) : Nat → Cursor α → List (Cursor α)
  | 0, s => [s]
  | n + 1, s =>
    ((f s).filter fun t => t.rest.length < s.rest.length).flatMap (iter f n) ++ [s]

/-- Where a match from here can end, the preferred end first. -/
def run : Regex α → Cursor α → List (Cursor α)
  | empty, s => [s]
  | one p, s =>
    match s.rest with
    | [] => []
    | c :: rest => if p c then [{ s with prev := some c, rest := rest }] else []
  | seq r t, s => (run r s).flatMap (run t)
  | alt r t, s => run r s ++ run t s
  | upTo n r, s => iter (run r) n s
  | many r, s => iter (run r) s.rest.length s
  | group r, s =>
    (run r s).map fun t =>
      { t with captured := s.rest.take (s.rest.length - t.rest.length) }
  | boundary w, s => if s.prev.any w = s.rest.head?.any w then [] else [s]
  | notBehind p, s => if s.prev.any p then [] else [s]

/-- How many characters are taken from here, and what is captured. -/
def find (r : Regex α) (prev : Option α) (text : List α) : Option (Nat × List α) :=
  (run r ⟨prev, text, []⟩).head?.map fun s => (text.length - s.rest.length, s.captured)

/-- Every match is replaced, `f` having what was taken and what was captured.  The first `skip`
characters belong to the match before.  A match that takes nothing is none. -/
def replaceFrom (r : Regex α) (f : List α → List α → List α) :
    (skip : Nat) → (prev : Option α) → List α → List α
  | _, _, [] => []
  | skip + 1, _, c :: text => replaceFrom r f skip (some c) text
  | 0, prev, c :: text =>
    match find r prev (c :: text) with
    | some (n + 1, captured) =>
      f ((c :: text).take (n + 1)) captured ++ replaceFrom r f n (some c) text
    | _ => c :: replaceFrom r f 0 (some c) text

def replace (r : Regex α) (f : List α → List α → List α) (text : List α) : List α :=
  replaceFrom r f 0 none text

/-- `matches`: a match can take all of the text. -/
def accepts (r : Regex α) (text : List α) : Bool := (run r ⟨none, text, []⟩).any (·.rest.isEmpty)

/-! ### What a pattern takes -/

section Membership

variable {r t : Regex α} {s s' : Cursor α}

@[simp] theorem mem_run_empty : s' ∈ run empty s ↔ s' = s := mem_singleton

@[simp] theorem mem_run_seq :
    s' ∈ run (seq r t) s ↔ ∃ m, m ∈ run r s ∧ s' ∈ run t m := mem_flatMap

@[simp] theorem mem_run_alt : s' ∈ run (alt r t) s ↔ s' ∈ run r s ∨ s' ∈ run t s :=
  mem_append

theorem mem_run_one {p : α → Bool} :
    s' ∈ run (one p) s ↔ ∃ c rest, s.rest = c :: rest ∧ p c = true ∧
      s' = { s with prev := some c, rest := rest } := by
  unfold run
  cases s.rest with
  | nil => simp
  | cons c rest =>
    by_cases hc : p c = true
    · simp [hc]
    · simp [hc]

theorem run_one_eq_nil {p : α → Bool} (h : s.rest.head?.any p = false) : run (one p) s = [] := by
  refine eq_nil_iff_forall_not_mem.mpr fun t ht => ?_
  obtain ⟨c, rest, hrest, hc, -⟩ := mem_run_one.mp ht
  simp [hrest, hc] at h

theorem run_all_cons (r : Regex α) (rs : List (Regex α)) (s : Cursor α) :
    run (Regex.all (r :: rs)) s = (run r s).flatMap (run (Regex.all rs)) := by
  cases rs with
  | nil => exact (flatMap_singleton' (run r s)).symm
  | cons t rs => rfl

theorem run_all_append (rs ts : List (Regex α)) (s : Cursor α) :
    run (Regex.all (rs ++ ts)) s = (run (Regex.all rs) s).flatMap (run (Regex.all ts)) := by
  induction rs generalizing s with
  | nil => exact (flatMap_singleton (run (Regex.all ts)) s).symm
  | cons r rs ih =>
    rw [cons_append, run_all_cons, run_all_cons, flatMap_assoc]
    exact flatMap_congr fun m _ => ih m

theorem mem_run_boundary {w : α → Bool} :
    s' ∈ run (boundary w) s ↔ s.prev.any w ≠ s.rest.head?.any w ∧ s' = s := by
  unfold run
  split
  · next h => simp [h]
  · next h => simp [h]

theorem mem_run_notBehind {p : α → Bool} :
    s' ∈ run (notBehind p) s ↔ s.prev.any p = false ∧ s' = s := by
  unfold run
  split
  · next h => simp [h]
  · next h => simp [h]

end Membership

/-- `Takes w s s'`: between the two places stands `w`. -/
structure Takes (w : List α) (s s' : Cursor α) : Prop where
  rest : s.rest = w ++ s'.rest
  prev : s'.prev = w.getLast?.or s.prev

namespace Takes

variable {w v : List α} {s s' s'' : Cursor α}

theorem nil (s : Cursor α) : Takes [] s s := ⟨rfl, by simp⟩

theorem append (h : Takes w s s') (h' : Takes v s' s'') : Takes (w ++ v) s s'' := by
  refine ⟨?_, ?_⟩
  · rw [h.rest, h'.rest, append_assoc]
  · rw [h'.prev, h.prev, List.getLast?_append, Option.or_assoc]

theorem length (h : Takes w s s') : s.rest.length = w.length + s'.rest.length := by
  rw [h.rest, length_append]

end Takes

variable {s' s : Cursor α}

theorem Takes.unique {w v : List α} (h : Takes w s s') (h' : Takes v s s') : w = v :=
  append_cancel_right (h.rest.symm.trans h'.rest)

variable {f : Cursor α → List (Cursor α)}

/-- What relates a place to itself, and holds over every round, holds over a repetition. -/
theorem rel_of_mem_iter {R : Cursor α → Cursor α → Prop} (hrefl : ∀ s, R s s)
    (htrans : ∀ s m s', R s m → R m s' → R s s') (hf : ∀ s s', s' ∈ f s → R s s') {n : Nat}
    (h : s' ∈ iter f n s) : R s s' := by
  induction n generalizing s with
  | zero =>
    rw [iter, mem_singleton] at h
    exact h ▸ hrefl s
  | succ n ih =>
    rw [iter, mem_append, mem_singleton, mem_flatMap] at h
    obtain ⟨m, hm, hrest⟩ | rfl := h
    · exact htrans s m s' (hf s m (mem_filter.mp hm).1) (ih hrest)
    · exact hrefl _

/-- A match whose rounds take words of `Φ` takes one. -/
theorem takes_iter {Φ : List α → Prop} (hnil : Φ []) (happ : ∀ w v, Φ w → Φ v → Φ (w ++ v))
    (hf : ∀ s s', s' ∈ f s → ∃ w, Takes w s s' ∧ Φ w) {n : Nat} (h : s' ∈ iter f n s) :
    ∃ w, Takes w s s' ∧ Φ w := by
  refine rel_of_mem_iter (fun s => ⟨[], .nil s, hnil⟩) ?_ hf h
  rintro s m s' ⟨w, hw, hΦw⟩ ⟨v, hv, hΦv⟩
  exact ⟨w ++ v, hw.append hv, happ w v hΦw hΦv⟩

variable {r : Regex α}

/-! ### What a pattern is made of -/

/-- Every character it takes is one of `p`. -/
def Within (p : α → Bool) : Regex α → Prop
  | empty | boundary _ | notBehind _ => True
  | one q => ∀ c, q c = true → p c = true
  | seq r t | alt r t => Within p r ∧ Within p t
  | upTo _ r | many r | group r => Within p r

/-- It takes a character of `q`, and characters of `p` before it. -/
def Reaches (p q : α → Bool) : Regex α → Prop
  | empty | boundary _ | notBehind _ | upTo _ _ | many _ => False
  | one a => ∀ c, a c = true → q c = true
  | seq r t => Reaches p q r ∨ Within p r ∧ Reaches p q t
  | alt r t => Reaches p q r ∧ Reaches p q t
  | group r => Reaches p q r

section Made

variable {p q : α → Bool} {r : Regex α} {rs : List (Regex α)}

theorem Within.mono (hr : Within p r) (h : ∀ c, p c = true → q c = true) : Within q r := by
  induction r with
  | empty | boundary _ | notBehind _ => trivial
  | one a => exact fun c hc => h c (hr c hc)
  | seq r t ihr iht | alt r t ihr iht => exact ⟨ihr hr.1, iht hr.2⟩
  | upTo _ r ih | many r ih | group r ih => exact ih hr

theorem within_true (r : Regex α) : Within (fun _ => true) r := by
  induction r with
  | empty | boundary _ | notBehind _ => trivial
  | one a => exact fun _ _ => rfl
  | seq r t ihr iht | alt r t ihr iht => exact ⟨ihr, iht⟩
  | upTo _ r ih | many r ih | group r ih => exact ih

theorem within_one (h : ∀ c, q c = true → p c = true) : Within p (one q) := h

theorem all_induction {Q : Regex α → Prop} (hempty : Q empty)
    (hseq : ∀ r t, Q r → Q t → Q (seq r t)) (h : ∀ r ∈ rs, Q r) : Q (Regex.all rs) := by
  induction rs with
  | nil => exact hempty
  | cons r rs ih =>
    have hrs := ih fun t ht => h t (mem_cons_of_mem r ht)
    cases rs with
    | nil => exact h r mem_cons_self
    | cons t rs => exact hseq _ _ (h r mem_cons_self) hrs

theorem any_induction {Q : Regex α → Prop} (hnone : Q (one fun _ => false))
    (halt : ∀ r t, Q r → Q t → Q (alt r t)) (h : ∀ r ∈ rs, Q r) : Q (Regex.any rs) := by
  induction rs with
  | nil => exact hnone
  | cons r rs ih =>
    have hrs := ih fun t ht => h t (mem_cons_of_mem r ht)
    cases rs with
    | nil => exact h r mem_cons_self
    | cons t rs => exact halt _ _ (h r mem_cons_self) hrs

theorem within_all (h : ∀ r ∈ rs, Within p r) : Within p (Regex.all rs) :=
  all_induction trivial (fun _ _ => And.intro) h

theorem within_times (h : Within p r) (n : Nat) : Within p (times n r) := by
  induction n with
  | zero => trivial
  | succ n ih => exact ⟨h, ih⟩

theorem within_between (h : Within p r) (m more : Nat) : Within p (between m more r) :=
  ⟨within_times h m, h⟩

theorem within_atLeast (h : Within p r) (m : Nat) : Within p (atLeast m r) :=
  ⟨within_times h m, h⟩

theorem reaches_any (h : ∀ r ∈ rs, Reaches p q r) : Reaches p q (Regex.any rs) :=
  any_induction (fun _ => nofun) (fun _ _ => And.intro) h

theorem reaches_all_cons (h : Reaches p q r) : Reaches p q (Regex.all (r :: rs)) := by
  cases rs with
  | nil => exact h
  | cons t rs => exact .inl h

theorem reaches_all_of_within (h : Within p r) (hrs : Reaches p q (Regex.all rs)) :
    Reaches p q (Regex.all (r :: rs)) := by
  cases rs with
  | nil => exact hrs.elim
  | cons t rs => exact .inr ⟨h, hrs⟩

end Made

section Made

variable {p : α → Bool} {r : Regex α} {s s' : Cursor α} {w : List α}

theorem Within.exists_takes (hr : Within p r) (h : s' ∈ run r s) :
    ∃ w, Takes w s s' ∧ ∀ c ∈ w, p c = true := by
  induction r generalizing s s' with
  | empty =>
    rw [mem_run_empty.mp h]
    exact ⟨[], .nil s, by simp⟩
  | one q =>
    obtain ⟨c, rest, hrest, hc, rfl⟩ := mem_run_one.mp h
    exact ⟨[c], ⟨hrest, rfl⟩, by simpa using hr c hc⟩
  | seq r t ihr iht =>
    obtain ⟨m, hm, hs'⟩ := mem_run_seq.mp h
    obtain ⟨w, hw, hpw⟩ := ihr hr.1 hm
    obtain ⟨v, hv, hpv⟩ := iht hr.2 hs'
    exact ⟨w ++ v, hw.append hv, forall_mem_append.mpr ⟨hpw, hpv⟩⟩
  | alt r t ihr iht =>
    obtain h | h := mem_run_alt.mp h
    · exact ihr hr.1 h
    · exact iht hr.2 h
  | upTo n r ih | many r ih =>
    exact takes_iter (Φ := fun w => ∀ c ∈ w, p c = true) (by simp)
      (fun _ _ hw hv => forall_mem_append.mpr ⟨hw, hv⟩) (fun _ _ => ih hr) h
  | group r ih =>
    obtain ⟨m, hm, rfl⟩ := mem_map.mp h
    obtain ⟨w, hw, hpw⟩ := ih hr hm
    exact ⟨w, ⟨hw.rest, hw.prev⟩, hpw⟩
  | boundary q =>
    rw [(mem_run_boundary.mp h).2]
    exact ⟨[], .nil s, by simp⟩
  | notBehind q =>
    rw [(mem_run_notBehind.mp h).2]
    exact ⟨[], .nil s, by simp⟩

/-- A match takes what stands in between. -/
theorem takes_run (h : s' ∈ run r s) : ∃ w, Takes w s s' := by
  obtain ⟨w, hw, -⟩ := (within_true r).exists_takes h
  exact ⟨w, hw⟩

theorem Within.takes (hr : Within p r) (h : s' ∈ run r s) (hw : Takes w s s') :
    ∀ c ∈ w, p c = true := by
  obtain ⟨v, hv, hpv⟩ := hr.exists_takes h
  rwa [hw.unique hv]

theorem Reaches.takes {q : α → Bool} (hr : Reaches p q r) (h : s' ∈ run r s)
    (hw : Takes w s s') :
    ∃ u c v, w = u ++ c :: v ∧ (∀ d ∈ u, p d = true) ∧ q c = true := by
  induction r generalizing s s' w with
  | empty | boundary _ | notBehind _ | upTo _ _ | many _ => exact hr.elim
  | one a =>
    obtain ⟨c, rest, hrest, hc, rfl⟩ := mem_run_one.mp h
    exact ⟨[], c, [], hw.unique ⟨hrest, rfl⟩, by simp, hr c hc⟩
  | seq r t ihr iht =>
    obtain ⟨m, hm, hs'⟩ := mem_run_seq.mp h
    obtain ⟨w₁, h₁⟩ := takes_run hm
    obtain ⟨w₂, h₂⟩ := takes_run hs'
    rw [hw.unique (h₁.append h₂)]
    obtain hr | ⟨hwithin, hr⟩ := hr
    · obtain ⟨u, c, v, rfl, hu, hc⟩ := ihr hr hm h₁
      exact ⟨u, c, v ++ w₂, by simp, hu, hc⟩
    · obtain ⟨u, c, v, rfl, hu, hc⟩ := iht hr hs' h₂
      exact ⟨w₁ ++ u, c, v, by simp,
        forall_mem_append.mpr ⟨hwithin.takes hm h₁, hu⟩, hc⟩
  | alt r t ihr iht =>
    obtain h | h := mem_run_alt.mp h
    · exact ihr hr.1 h hw
    · exact iht hr.2 h hw
  | group r ih =>
    obtain ⟨m, hm, rfl⟩ := mem_map.mp h
    exact ih hr hm ⟨hw.rest, hw.prev⟩

end Made

/-! ### What a pattern does not see -/

/-- A pattern that reads neither of the texts `z₁` and `z₂`, and looks at `p₁` and `p₂`, and at
the beginnings of the two texts, alike. -/
def Blind (p₁ p₂ : Option α) (z₁ z₂ : List α) : Regex α → Prop
  | empty => True
  | one p => z₁.head?.any p = false ∧ z₂.head?.any p = false
  | seq r t | alt r t => Blind p₁ p₂ z₁ z₂ r ∧ Blind p₁ p₂ z₁ z₂ t
  | upTo _ r | many r | group r => Blind p₁ p₂ z₁ z₂ r
  | boundary w => p₁.any w = p₂.any w ∧ z₁.head?.any w = z₂.head?.any w
  | notBehind p => p₁.any p = p₂.any p

/-- What a pattern looks at without taking it is alike. -/
def Looks (p₁ p₂ : Option α) (z₁ z₂ : List α) : Regex α → Prop
  | empty | one _ => True
  | seq r t | alt r t => Looks p₁ p₂ z₁ z₂ r ∧ Looks p₁ p₂ z₁ z₂ t
  | upTo _ r | many r | group r => Looks p₁ p₂ z₁ z₂ r
  | boundary w => p₁.any w = p₂.any w ∧ z₁.head?.any w = z₂.head?.any w
  | notBehind p => p₁.any p = p₂.any p

variable {z₂ z₁ : List α} {p : α → Bool} {p₂ p₁ prev : Option α}

/-- A pattern is blind where its characters end. -/
theorem blind_of_within (hr : Within p r) (hz₁ : z₁.head?.any p = false)
    (hz₂ : z₂.head?.any p = false) (hlooks : Looks p₁ p₂ z₁ z₂ r) : Blind p₁ p₂ z₁ z₂ r := by
  induction r with
  | empty => trivial
  | one q =>
    have hnone : ∀ o : Option α, o.any p = false → o.any q = false := by
      intro o ho
      cases o with
      | none => rfl
      | some c =>
        have hc : ¬ q c = true := fun hq => by simp [hr c hq] at ho
        simpa using hc
    exact ⟨hnone _ hz₁, hnone _ hz₂⟩
  | seq r t ihr iht | alt r t ihr iht => exact ⟨ihr hr.1 hlooks.1, iht hr.2 hlooks.2⟩
  | upTo _ r ih | many r ih | group r ih => exact ih hr hlooks
  | boundary _ | notBehind _ => exact hlooks

theorem looks_of_head (h : z₁.head? = z₂.head?) : Looks prev prev z₁ z₂ r := by
  induction r with
  | empty | one _ => trivial
  | seq r t ihr iht | alt r t ihr iht => exact ⟨ihr, iht⟩
  | upTo _ r ih | many r ih | group r ih => exact ih
  | boundary w => exact ⟨rfl, by rw [h]⟩
  | notBehind p => rfl

/-- Behind a character that no match takes, the texts may differ. -/
theorem blind_of_cons {c : α} (hr : Within p r) (hc : p c = false) (z₁ z₂ : List α) :
    Blind prev prev (c :: z₁) (c :: z₂) r :=
  blind_of_within hr hc hc (looks_of_head rfl)

/-- The same text up to `z₁` here and `z₂` there. -/
structure Agree (p₁ p₂ : Option α) (z₁ z₂ : List α) (s₁ s₂ : Cursor α) : Prop where
  rest : ∃ q, s₁.rest = q ++ z₁ ∧ s₂.rest = q ++ z₂
  prev : s₁.prev = s₂.prev ∨ s₁.prev = p₁ ∧ s₂.prev = p₂
  captured : s₁.captured = s₂.captured

section Agree

variable {p₁ p₂ : Option α} {z₁ z₂ : List α} {s₁ s₂ t₁ t₂ : Cursor α}

theorem Agree.length_lt_iff (hs : Agree p₁ p₂ z₁ z₂ s₁ s₂) (ht : Agree p₁ p₂ z₁ z₂ t₁ t₂) :
    t₁.rest.length < s₁.rest.length ↔ t₂.rest.length < s₂.rest.length := by
  obtain ⟨q, h₁, h₂⟩ := hs.rest
  obtain ⟨v, h₁', h₂'⟩ := ht.rest
  rw [h₁, h₂, h₁', h₂']
  simp only [length_append]
  omega

theorem Agree.any_prev (h : Agree p₁ p₂ z₁ z₂ s₁ s₂) {p : α → Bool} (hp : p₁.any p = p₂.any p) :
    s₁.prev.any p = s₂.prev.any p := by
  obtain h | ⟨h₁, h₂⟩ := h.prev
  · rw [h]
  · rw [h₁, h₂, hp]

variable {f : Cursor α → List (Cursor α)}

/-- A round that takes nothing ends the repetition. -/
theorem iter_of_stuck {s : Cursor α} (h : ∀ t ∈ f s, s.rest.length ≤ t.rest.length) (n : Nat) :
    iter f n s = [s] := by
  cases n with
  | zero => rfl
  | succ n =>
    have hnone : ((f s).filter fun t => t.rest.length < s.rest.length) = [] :=
      filter_eq_nil_iff.mpr fun t ht => by simpa using h t ht
    rw [iter, hnone]
    rfl

/-- Nothing before the cut is left: a round takes nothing on either side. -/
theorem Agree.stuck (hf : List.Forall₂ (Agree p₁ p₂ z₁ z₂) (f s₁) (f s₂)) (h₁ : s₁.rest = z₁)
    (h₂ : s₂.rest = z₂) (n₁ n₂ : Nat) : iter f n₁ s₁ = [s₁] ∧ iter f n₂ s₂ = [s₂] := by
  have hleft : ∀ t ∈ f s₁, s₁.rest.length ≤ t.rest.length := by
    refine ((forall₂_and_left (R := Agree p₁ p₂ z₁ z₂) _ (f s₂)).mp (hf.imp ?_)).1
    intro t₁ t₂ ht
    obtain ⟨v, hv, -⟩ := ht.rest
    refine ⟨?_, ht⟩
    rw [h₁, hv, length_append]
    exact Nat.le_add_left _ _
  have hright : ∀ t ∈ f s₂, s₂.rest.length ≤ t.rest.length := by
    refine ((forall₂_and_left (R := flip (Agree p₁ p₂ z₁ z₂)) _ (f s₁)).mp
      (List.Forall₂.flip (hf.imp ?_))).1
    intro t₁ t₂ ht
    obtain ⟨v, -, hv⟩ := ht.rest
    refine ⟨?_, ht⟩
    rw [h₂, hv, length_append]
    exact Nat.le_add_left _ _
  exact ⟨iter_of_stuck hleft n₁, iter_of_stuck hright n₂⟩

/-- Repetition keeps the agreement, with as many rounds on both sides or enough of them. -/
theorem iter_agree
    (hf : ∀ s₁ s₂, Agree p₁ p₂ z₁ z₂ s₁ s₂ → List.Forall₂ (Agree p₁ p₂ z₁ z₂) (f s₁) (f s₂))
    {q : List α} {n₁ n₂ : Nat} (hn : n₁ = n₂ ∨ q.length ≤ n₁ ∧ q.length ≤ n₂)
    (hs : Agree p₁ p₂ z₁ z₂ s₁ s₂) (h₁ : s₁.rest = q ++ z₁) (h₂ : s₂.rest = q ++ z₂) :
    List.Forall₂ (Agree p₁ p₂ z₁ z₂) (iter f n₁ s₁) (iter f n₂ s₂) := by
  induction n₁ generalizing n₂ q s₁ s₂ with
  | zero =>
    by_cases hn₂ : n₂ = 0
    · subst hn₂
      exact .cons hs .nil
    · obtain rfl : q = [] := length_eq_zero_iff.mp (by omega)
      rw [(Agree.stuck (hf s₁ s₂ hs) h₁ h₂ 0 n₂).2]
      exact .cons hs .nil
  | succ n₁ ih =>
    by_cases hn₂ : n₂ = 0
    · obtain rfl : q = [] := length_eq_zero_iff.mp (by omega)
      subst hn₂
      rw [(Agree.stuck (hf s₁ s₂ hs) h₁ h₂ (n₁ + 1) 0).1]
      exact .cons hs .nil
    · obtain ⟨n₂, rfl⟩ := Nat.exists_eq_succ_of_ne_zero hn₂
      let R : Cursor α → Cursor α → Prop := fun t₁ t₂ =>
        t₁.rest.length < s₁.rest.length ∧ Agree p₁ p₂ z₁ z₂ t₁ t₂
      -- the rounds that take something are paired off
      have hfilter : List.Forall₂ R ((f s₁).filter fun t => t.rest.length < s₁.rest.length)
          ((f s₂).filter fun t => t.rest.length < s₂.rest.length) := by
        refine (forall₂_and_left _ _).mpr ⟨fun t ht => ?_, ?_⟩
        · simpa using (mem_filter.mp ht).2
        · refine rel_filter ?_ (hf s₁ s₂ hs)
          intro t₁ t₂ ht
          simpa using hs.length_lt_iff ht
      refine rel_append (rel_flatMap hfilter ?_) (.cons hs .nil)
      rintro t₁ t₂ ⟨hlt, ht⟩
      obtain ⟨v, hv₁, hv₂⟩ := ht.rest
      have hshort : v.length < q.length := by
        rw [h₁, hv₁] at hlt
        simpa using hlt
      exact ih (by omega) ht hv₁ hv₂

theorem agree_group {l₁ l₂ : List (Cursor α)} (hs : Agree p₁ p₂ z₁ z₂ s₁ s₂)
    (hl : List.Forall₂ (Agree p₁ p₂ z₁ z₂) l₁ l₂) :
    List.Forall₂ (Agree p₁ p₂ z₁ z₂)
      (l₁.map fun t => { t with captured := s₁.rest.take (s₁.rest.length - t.rest.length) })
      (l₂.map fun t => { t with captured := s₂.rest.take (s₂.rest.length - t.rest.length) }) := by
  obtain ⟨q, h₁, h₂⟩ := hs.rest
  refine rel_map ?_ hl
  intro t₁ t₂ ht
  obtain ⟨v, hv₁, hv₂⟩ := ht.rest
  refine ⟨⟨v, hv₁, hv₂⟩, ht.prev, ?_⟩
  -- both lengths are that of what was taken before the cut
  have hlen : ∀ z : List α, (q ++ z).length - (v ++ z).length = q.length - v.length := by
    intro z
    simp only [length_append]
    omega
  show s₁.rest.take (s₁.rest.length - t₁.rest.length) =
    s₂.rest.take (s₂.rest.length - t₂.rest.length)
  rw [h₁, h₂, hv₁, hv₂, hlen, hlen, take_append_of_le_length (Nat.sub_le _ _),
    take_append_of_le_length (Nat.sub_le _ _)]

/-- **Two places that agree up to what a pattern is blind to match alike.** -/
theorem run_agree {r : Regex α} (hr : Blind p₁ p₂ z₁ z₂ r) (hs : Agree p₁ p₂ z₁ z₂ s₁ s₂) :
    List.Forall₂ (Agree p₁ p₂ z₁ z₂) (run r s₁) (run r s₂) := by
  induction r generalizing s₁ s₂ with
  | empty => exact .cons hs .nil
  | one p =>
    obtain ⟨q, h₁, h₂⟩ := hs.rest
    cases q with
    | nil =>
      rw [run_one_eq_nil (by simpa [h₁] using hr.1), run_one_eq_nil (by simpa [h₂] using hr.2)]
      exact .nil
    | cons c q =>
      simp only [run, h₁, h₂, cons_append]
      split
      · exact .cons ⟨⟨q, rfl, rfl⟩, .inl rfl, hs.captured⟩ .nil
      · exact .nil
  | seq r t ihr iht => exact rel_flatMap (ihr hr.1 hs) fun _ _ h => iht hr.2 h
  | alt r t ihr iht => exact rel_append (ihr hr.1 hs) (iht hr.2 hs)
  | upTo n r ih =>
    obtain ⟨q, h₁, h₂⟩ := hs.rest
    exact iter_agree (fun _ _ => ih hr) (.inl rfl) hs h₁ h₂
  | many r ih =>
    obtain ⟨q, h₁, h₂⟩ := hs.rest
    refine iter_agree (fun _ _ => ih hr) (.inr ⟨?_, ?_⟩) hs h₁ h₂
    · rw [h₁, length_append]
      exact Nat.le_add_right _ _
    · rw [h₂, length_append]
      exact Nat.le_add_right _ _
  | group r ih => exact agree_group hs (ih hr hs)
  | boundary w =>
    have hprev := hs.any_prev hr.1
    have hnext : s₁.rest.head?.any w = s₂.rest.head?.any w := by
      obtain ⟨q, h₁, h₂⟩ := hs.rest
      cases q with
      | nil => simpa [h₁, h₂] using hr.2
      | cons c q => simp [h₁, h₂]
    simp only [run, hprev, hnext]
    split
    · exact .nil
    · exact .cons hs .nil
  | notBehind p =>
    simp only [run, hs.any_prev hr]
    split
    · exact .nil
    · exact .cons hs .nil

end Agree

end Regex
