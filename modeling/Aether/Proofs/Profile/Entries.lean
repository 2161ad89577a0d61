/-
The entries that a text setting is cut into, and what the app and the engine call white space.
-/
import Aether.Lib.Pieces
import Aether.Lib.RegexLanguage
import Aether.Profile.Args

namespace Aether.Profile

/-! ### White space on both sides -/

/-- NEL, the only character that is white space to the engine and not to the app. -/
def nel : Char := Char.ofNat 0x85

theorem isWhitespace_iff (c : Char) (h : Text.isJvmWhitespace c = false) :
    Text.isWhitespace c = true ↔ c = nel := by
  have hnel : c = nel ↔ c.toNat = 0x85 :=
    ⟨fun h => by rw [h]; rfl, fun h => by rw [← Char.ofNat_toNat c, h]; rfl⟩
  rw [hnel]
  simp only [Text.isJvmWhitespace, Text.isWhitespace, Bool.or_eq_false_iff, Bool.and_eq_false_iff,
    Bool.or_eq_true, Bool.and_eq_true, decide_eq_true_eq, decide_eq_false_iff_not, beq_iff_eq,
    beq_eq_false_iff_ne] at h ⊢
  omega

/-- A text that the app has trimmed is trimmed for the engine but for NEL at its ends. -/
theorem trim_eq_iff {l : Text} (hhead : l.head?.any Text.isWhitespace = false)
    (h : LanGuard.trim l = l) : Text.trim l = l ↔ l.getLast? ≠ some nel := by
  have hlast : l.getLast?.any Text.isJvmWhitespace = false := by
    rw [← h]
    exact Pieces.getLast?_trimBy Text.isJvmWhitespace l
  have hiff : Text.trim l = l ↔
      l.head?.any Text.isWhitespace = false ∧ l.getLast?.any Text.isWhitespace = false :=
    Pieces.trimBy_eq_self_iff
  rw [hiff, and_iff_right hhead]
  cases hcase : l.getLast? with
  | none => simp
  | some c =>
    rw [hcase] at hlast
    have hc : Text.isJvmWhitespace c = false := hlast
    rw [Option.any_some, Bool.eq_false_iff, ne_eq, isWhitespace_iff c hc]
    simp

/-! ### The entries of a text -/

/-- What is known of an entry. -/
structure IsEntry (separators : Text) (check : Text → Bool) (e : Text) : Prop where
  trimmed : LanGuard.trim e = e
  checked : check e = true
  whole : ∀ c ∈ e, separators.contains c = false

theorem isEntry_of_mem {separators t e : Text} {check : Text → Bool} {limit : Nat}
    (h : e ∈ entries separators check limit t) : IsEntry separators check e := by
  have hmem := List.mem_eraseDups.mp (List.mem_of_mem_take h)
  obtain ⟨hmap, hcheck⟩ := List.mem_filter.mp hmem
  obtain ⟨piece, hpiece, rfl⟩ := List.mem_map.mp hmap
  rw [Bool.and_eq_true] at hcheck
  refine ⟨Pieces.trimBy_idem Text.isJvmWhitespace piece, hcheck.2, ?_⟩
  intro c hc
  have hsub := (Pieces.trimBy_sublist Text.isJvmWhitespace piece).subset hc
  exact (Pieces.mem_of_mem_splitOnP hpiece hsub).2

end Aether.Profile
