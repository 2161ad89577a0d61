/-
Who holds which resource.

`owner` gives each holder at most one resource and `live` says which resources exist
and of what kind.  `Owned` is the agreement between the two: a held resource exists
and has the holder's kind, an existing one is held, and by one holder only.  Taking a
free resource and giving one back both keep it.
-/
import Mathlib.Logic.Function.Basic

namespace Ownership

open Function

variable {F H κ : Type}

theorem update_eq_some [DecidableEq F] {o : F → Option H} {f g : F} {v : Option H} {h : H} :
    update o f v g = some h ↔ g = f ∧ v = some h ∨ g ≠ f ∧ o g = some h := by
  by_cases hg : g = f <;> simp [hg]

theorem of_update_none [DecidableEq F] {o : F → Option H} {f g : F} {h : H}
    (hg : update o f Option.none g = some h) : g ≠ f ∧ o g = some h := by
  simpa [update_eq_some] using hg

structure Owned (kindOf : F → κ) (owner : F → Option H) (live : H → Option κ) : Prop where
  alive : ∀ {f h}, owner f = some h → live h = some (kindOf f)
  held : ∀ {h k}, live h = some k → ∃ f, owner f = some h
  once : ∀ {f g h}, owner f = some h → owner g = some h → f = g

namespace Owned

variable {kindOf : F → κ} {owner : F → Option H} {live : H → Option κ}

/-- Nothing is held where nothing exists. -/
theorem none : Owned kindOf (fun _ : F => (Option.none : Option H)) (fun _ => Option.none) where
  alive := by intro f h hf; cases hf
  held := by intro h k hh; cases hh
  once := by intro f g h hf; cases hf

variable [DecidableEq F] [DecidableEq H]

/-- A free resource goes to a holder that has none. -/
theorem acquire {f : F} {h : H} (ho : Owned kindOf owner live) (hf : owner f = Option.none)
    (hh : live h = Option.none) :
    Owned kindOf (update owner f (some h)) (update live h (some (kindOf f))) := by
  -- The new holder's resource was dead, so no other holder can have it.
  have hdead : ∀ {g h'}, owner g = some h' → h' ≠ h := by
    rintro g h' hg rfl
    exact absurd (ho.alive hg) (by simp [hh])
  have hnew : ∀ {g h'}, owner g = some h' → g ≠ f := by
    rintro g h' hg rfl
    simp [hf] at hg
  refine ⟨fun {g h'} hg => ?_, fun {h' k} hk => ?_, fun {g g' h'} hg hg' => ?_⟩
  · obtain ⟨rfl, ⟨⟩⟩ | ⟨-, hg⟩ := update_eq_some.mp hg
    · simp
    · simp [hdead hg, ho.alive hg]
  · obtain ⟨rfl, -⟩ | ⟨-, hk⟩ := update_eq_some.mp hk
    · exact ⟨f, by simp⟩
    · obtain ⟨g, hg⟩ := ho.held hk
      exact ⟨g, by simp [hnew hg, hg]⟩
  · obtain ⟨rfl, ⟨⟩⟩ | ⟨-, hold⟩ := update_eq_some.mp hg <;>
      obtain ⟨rfl, ⟨⟩⟩ | ⟨-, hold'⟩ := update_eq_some.mp hg'
    · rfl
    · exact absurd rfl (hdead hold')
    · exact absurd rfl (hdead hold)
    · exact ho.once hold hold'

/-- A holder gives its resource back. -/
theorem release {f : F} {h : H} (ho : Owned kindOf owner live) (hf : owner f = some h) :
    Owned kindOf (update owner f Option.none)
      (update live h Option.none) := by
  refine ⟨fun {g h'} hg => ?_, fun {h' k} hk => ?_,
    fun hg hg' => ho.once (of_update_none hg).2 (of_update_none hg').2⟩
  · obtain ⟨hgf, hg⟩ := of_update_none hg
    have hne : h' ≠ h := by
      rintro rfl
      exact hgf (ho.once hg hf)
    rw [update_of_ne hne, ho.alive hg]
  · obtain ⟨hhh, hk⟩ := of_update_none hk
    obtain ⟨g, hg⟩ := ho.held hk
    have hne : g ≠ f := by
      rintro rfl
      exact hhh (Option.some.inj (hg.symm.trans hf))
    exact ⟨g, by rw [update_of_ne hne, hg]⟩

end Owned

end Ownership
