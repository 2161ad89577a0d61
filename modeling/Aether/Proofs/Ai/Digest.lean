/-
The digest does not hold the user's own key.

The key is replaced last, in the joined text, so neither the rules nor the line ends can bring it
back: an occurrence in the result would hold a bracket of a replacement, lie between two of them,
where the text was searched, or lie in the replacement's own word.  The cut takes from the front.
-/
import Aether.Ai.Redaction

namespace Aether.AiRedaction

open List

variable (F : Flavour)

theorem notMem_utf16 {c : Char} {t : Text} (hc : c.toNat < 0xD800) (h : c ∉ t) :
    BitVec.ofNat 16 c.toNat ∉ utf16 t := by
  intro hmem
  obtain ⟨d, hd, hunit⟩ := mem_flatMap.mp hmem
  have hvalid : d.toNat < 0xd800 ∨ 0xdfff < d.toNat ∧ d.toNat < 0x110000 := d.valid
  unfold units at hunit
  split at hunit
  · have hsame := congrArg BitVec.toNat (mem_singleton.mp hunit)
    rw [BitVec.toNat_ofNat, BitVec.toNat_ofNat, Nat.mod_eq_of_lt (by omega),
      Nat.mod_eq_of_lt (by omega)] at hsame
    exact h (Char.toNat_inj.mp hsame ▸ hd)
  · -- both units of a pair are surrogates
    simp only [mem_cons, not_mem_nil, or_false] at hunit
    obtain hunit | hunit := hunit
    all_goals
      have hsame := congrArg BitVec.toNat hunit
      rw [BitVec.toNat_ofNat, BitVec.toNat_ofNat, Nat.mod_eq_of_lt (by omega),
        Nat.mod_eq_of_lt (by omega)] at hsame
      omega

theorem utf16_ne_nil {t : Text} (h : t ≠ []) : utf16 t ≠ [] := by
  obtain ⟨c, t, rfl⟩ := exists_cons_of_ne_nil h
  rw [utf16, flatMap_cons, units]
  split <;> simp

/-- **The user's own key is in neither text that leaves the device.** -/
theorem own_key_hidden (throws : Text → Bool) (fullLog ownApiKey : Text)
    (hkey : Text.isBlank ownApiKey = false) (hopen : '[' ∉ ownApiKey) (hclose : ']' ∉ ownApiKey)
    (hmark : ¬ utf16 ownApiKey <:+: utf16 "REDACTED".toList) :
    (∀ maxLines out, digest F throws fullLog ownApiKey maxLines = some out →
      ¬ utf16 ownApiKey <:+: out ∧ out.length ≤ maxDigestChars) ∧
    ¬ utf16 ownApiKey <:+: redactAll F throws fullLog ownApiKey := by
  have hne : ownApiKey ≠ [] := by
    rintro rfl
    cases hkey
  have hhidden : ∀ lines, ¬ utf16 ownApiKey <:+: redactLines F throws lines ownApiKey := by
    intro lines
    rw [redactLines, if_neg (by simp [hkey])]
    exact Text.not_infix_replace (utf16_ne_nil hne) (notMem_utf16 (by decide) hopen)
      (notMem_utf16 (by decide) hclose) hmark
  refine ⟨fun maxLines out h => ?_, hhidden _⟩
  unfold digest at h
  split at h
  · cases h
  · obtain rfl := Option.some.inj h
    split
    · next hshort => exact ⟨hhidden _, hshort⟩
    · refine ⟨fun hin => hhidden _ (hin.trans (drop_suffix _ _).isInfix), ?_⟩
      rw [length_drop]
      omega

theorem own_key_hidden_twice :
    ¬ utf16 "sk-1".toList <:+:
      redactAll .ascii (fun _ => false) "sk-sk-1\nsk-1".toList "sk-1".toList :=
  (own_key_hidden .ascii (fun _ => false) "sk-sk-1\nsk-1".toList "sk-1".toList (by decide)
    (by decide) (by decide) (by decide)).2

end Aether.AiRedaction
