/-
Machines whose steps can fail, and what holds along their runs.

A machine is a function `step : S → L → Except ε S`: the label says which
operation is performed and what the environment answered, and an error is an
operation that could not be carried out.  `Run` strings such steps together, each
one under a side condition `ok` that may look at the state it starts from.  A
condition on the steps of a run is put there, so "every run whose steps all meet
the condition" is a `Run` with a stronger `ok`.

Inside one step the same questions come up for a loop over a list, which is what
the `foldlM` rules are for.
-/
import Mathlib.Data.List.Induction

namespace Machine

variable {S A L ε : Type}

/-! ### Computations that succeed -/

theorem bind_eq_ok {α β : Type} {x : Except ε α} {f : α → Except ε β} {b : β} :
    (x >>= f) = .ok b ↔ ∃ a, x = .ok a ∧ f a = .ok b := by
  cases x with
  | error e =>
    constructor
    · intro h
      cases h
    · rintro ⟨a, ha, -⟩
      cases ha
  | ok a =>
    constructor
    · intro h
      exact ⟨a, rfl, h⟩
    · rintro ⟨a', ha, h⟩
      cases ha
      exact h

/-! ### Logs -/

/-- Where an entry stands in a log that was lengthened by one. -/
theorem append_singleton_eq {l a : A} {ls before after : List A}
    (h : ls ++ [l] = before ++ a :: after) :
    (ls = before ∧ l = a) ∨ ∃ rest, ls = before ++ a :: rest := by
  obtain rfl | ⟨rest, last, rfl⟩ := after.eq_nil_or_concat
  · obtain ⟨rfl, hlast⟩ := List.append_inj' h rfl
    exact .inl ⟨rfl, (List.cons.inj hlast).1⟩
  · rw [List.concat_eq_append, ← List.cons_append, ← List.append_assoc] at h
    exact .inr ⟨rest, (List.append_inj' h rfl).1⟩

variable {f : S → A → Except ε S} {P : S → Prop} {step : S → L → Except ε S} {ok : S → L → Prop}

/-- What every iteration of a loop keeps, the loop keeps. -/
theorem foldlM_keeps :
    ∀ {l : List A} {s s' : S}, l.foldlM f s = .ok s' → P s →
      (∀ a ∈ l, ∀ t t', P t → f t a = .ok t' → P t') → P s' := by
  intro l
  induction l with
  | nil =>
    intro s s' h hs _
    cases h
    exact hs
  | cons a rest ih =>
    intro s s' h hs hstep
    rw [List.foldlM_cons, bind_eq_ok] at h
    obtain ⟨t, hfirst, hrest⟩ := h
    exact ih hrest (hstep a (by simp) s t hs hfirst)
      (fun b hb => hstep b (by simp [hb]))

/-- A loop whose every iteration succeeds, succeeds. -/
theorem foldlM_succeeds :
    ∀ {l : List A} {s : S}, P s →
      (∀ a ∈ l, ∀ t, P t → ∃ t', f t a = .ok t' ∧ P t') →
      ∃ s', l.foldlM f s = .ok s' ∧ P s' := by
  intro l
  induction l with
  | nil => intro s hs _; exact ⟨s, rfl, hs⟩
  | cons a rest ih =>
    intro s hs hstep
    obtain ⟨t, hfirst, ht⟩ := hstep a (by simp) s hs
    obtain ⟨s', hrest, hs'⟩ := ih ht (fun b hb => hstep b (by simp [hb]))
    refine ⟨s', ?_, hs'⟩
    rw [List.foldlM_cons, bind_eq_ok]
    exact ⟨t, hfirst, hrest⟩

/-! ### Runs -/

/-- `Run step ok s₀ ls s`: performing `ls` from `s₀`, each step under `ok`, ends in `s`. -/
inductive Run (step : S → L → Except ε S) (ok : S → L → Prop) (s₀ : S) : List L → S → Prop
  | nil : Run step ok s₀ [] s₀
  | snoc {ls : List L} {s s' : S} {l : L} (h : Run step ok s₀ ls s) (hok : ok s l)
      (hstep : step s l = .ok s') : Run step ok s₀ (ls ++ [l]) s'

namespace Run

variable {step : S → L → Except ε S} {ok : S → L → Prop} {s₀ s : S} {ls : List L}

/-- **What holds at the start and survives every step holds at the end.** -/
theorem invariant {P : S → Prop} (h : Run step ok s₀ ls s) (hinit : P s₀)
    (hkeep : ∀ t l t', P t → ok t l → step t l = .ok t' → P t') : P s := by
  induction h with
  | nil => exact hinit
  | snoc _ hok hstep ih => exact hkeep _ _ _ ih hok hstep

/-- A run under a condition is a run under any weaker one. -/
theorem weaken {ok' : S → L → Prop} (h : Run step ok s₀ ls s)
    (himp : ∀ t l, ok t l → ok' t l) : Run step ok' s₀ ls s := by
  induction h with
  | nil => exact Run.nil
  | snoc _ hok hstep ih => exact Run.snoc ih (himp _ _ hok) hstep

/-- Runs compose. -/
theorem append {ls' : List L} {s' : S} (h : Run step ok s₀ ls s) (h' : Run step ok s ls' s') :
    Run step ok s₀ (ls ++ ls') s' := by
  induction h' with
  | nil => simpa using h
  | snoc _ hok hstep ih =>
    rw [← List.append_assoc]
    exact Run.snoc ih hok hstep

/-- A run, and what follows from it of the state in which it ends. -/
theorem exists_and {P : S → Prop} (h : Run step ok s₀ ls s) (hP : Run step ok s₀ ls s → P s) :
    ∃ s, Run step ok s₀ ls s ∧ P s :=
  ⟨s, h, hP h⟩

/-- The last step of a run. -/
theorem of_snoc {l : L} (h : Run step ok s₀ (ls ++ [l]) s) :
    ∃ t, Run step ok s₀ ls t ∧ ok t l ∧ step t l = .ok s := by
  generalize hall : ls ++ [l] = all at h
  cases h with
  | nil => simp at hall
  | snoc hrun hok hstep =>
    obtain ⟨rfl, hl⟩ := List.append_inj' hall rfl
    cases hl
    exact ⟨_, hrun, hok, hstep⟩

end Run

/-! ### Performing a list -/

/-- The operations of a list one after the other, each one only if its condition is met. -/
def perform (step : S → L → Except ε S) (ok : S → L → Prop) [∀ s l, Decidable (ok s l)] :
    S → List L → Option S
  | s, [] => some s
  | s, l :: ls =>
    if ok s l then
      match step s l with
      | .ok t => perform step ok t ls
      | .error _ => none
    else none

theorem Run.of_perform [∀ s l, Decidable (ok s l)] {s₀ s t : S} {done ls : List L}
    (hrun : Run step ok s₀ done s) (h : perform step ok s ls = some t) :
    Run step ok s₀ (done ++ ls) t := by
  induction ls generalizing done s with
  | nil =>
    cases h
    rwa [List.append_nil]
  | cons l ls ih =>
    rw [perform] at h
    by_cases hok : ok s l
    · rw [if_pos hok] at h
      cases hstep : step s l with
      | error e =>
        rw [hstep] at h
        exact nomatch h
      | ok u =>
        rw [hstep] at h
        have hnext := ih (hrun.snoc hok hstep) h
        rwa [List.append_assoc] at hnext
    · rw [if_neg hok] at h
      exact nomatch h

theorem Run.performed [∀ s l, Decidable (ok s l)] {s₀ s : S} {ls : List L}
    (h : perform step ok s₀ ls = some s) : Run step ok s₀ ls s :=
  .of_perform .nil h

/-- A list that can be performed is a run. -/
theorem exists_run_of_perform [∀ s l, Decidable (ok s l)] {s₀ : S} {ls : List L} {p : S → Bool}
    (h : (perform step ok s₀ ls).any p = true) : ∃ s, Run step ok s₀ ls s ∧ p s = true := by
  cases hperform : perform step ok s₀ ls with
  | none =>
    rw [hperform] at h
    exact nomatch h
  | some s =>
    rw [hperform] at h
    exact ⟨s, .performed hperform, h⟩

end Machine
