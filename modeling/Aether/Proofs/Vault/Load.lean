/-
Which identity files block the engine.

A file that is text is taken for an identity or moved aside, whatever its text.  Bytes that are no
text, as a shred leaves them when it is cut off between its two actions, stay where they are, and
every later `load` fails on them again.
-/
import Aether.Vault.Load

namespace Aether.Vault

variable {fromStr : Text → Except Text PersistedIdentity} {base64 : Text → Except Text Bytes}
  {files : Files} {path : Text} {content : Bytes}

/-- The file gives an identity, or is moved aside and the next `load` finds none. -/
def Recovers (fromStr : Text → Except Text PersistedIdentity) (base64 : Text → Except Text Bytes)
    (files : Files) (path : Text) (content : Bytes) : Prop :=
  (∃ identity, load fromStr base64 true files path = (.ok (some identity), files)) ∨
    (load fromStr base64 true files path).2 =
        (files.set (quarantinePath path) (some content)).set path none ∧
      (load fromStr base64 true (load fromStr base64 true files path).2 path).1 = .ok none

theorem decode_eq_none_iff : Utf8.decode content = none ↔ ¬ ∃ text, content = Utf8.encode text := by
  unfold Utf8.decode
  split
  · next h => exact iff_of_false nofun (not_not.mpr ⟨_, h.symm⟩)
  · next h =>
      refine iff_of_true rfl fun htext => h ?_
      obtain ⟨text, rfl⟩ := htext
      rw [Utf8.decodeLossy_encode]

/-- What is set aside is gone from its place. -/
theorem recovers_of_setAside {reason : Text} (h : files path = some content)
    (hload : load fromStr base64 true files path = setAside true files path reason) :
    Recovers fromStr base64 files path content := by
  have hmoved : (load fromStr base64 true files path).2 =
      (files.set (quarantinePath path) (some content)).set path none := by
    rw [hload]
    simp [setAside, quarantine, FileOp.apply, h]
  have hgone : (load fromStr base64 true files path).2 path = none := by
    rw [hmoved, Files.set, if_pos rfl]
  refine .inr ⟨hmoved, ?_⟩
  rw [load, hgone]

/-- A text that is no identity is set aside. -/
theorem recovers_of_decode {text : Text} (h : files path = some content)
    (hdecode : Utf8.decode content = some text) : Recovers fromStr base64 files path content := by
  cases htoml : fromStr text with
  | error e =>
    apply recovers_of_setAside h
    rw [load]
    simp only [h, hdecode, htoml]
    rfl
  | ok persisted =>
    cases hfields : Account.Identity.tryFrom base64 persisted with
    | error e =>
      apply recovers_of_setAside h
      rw [load]
      simp only [h, hdecode, htoml, hfields]
      rfl
    | ok identity =>
      refine .inl ⟨identity, ?_⟩
      rw [load]
      simp only [h, hdecode, htoml, hfields]

/-- A file that is no text stays, and so does the error. -/
theorem load_stuck (fromStr : Text → Except Text PersistedIdentity)
    (base64 : Text → Except Text Bytes) (h : files path = some content)
    (hnone : Utf8.decode content = none) (renames : Bool) :
    load fromStr base64 renames files path =
      (.error (.io "stream did not contain valid UTF-8".toList), files) := by
  unfold load
  simp only [h, hnone]

/-- **Which files do not block the engine**: those that are UTF-8. -/
theorem load_recovers_iff (fromStr : Text → Except Text PersistedIdentity)
    (base64 : Text → Except Text Bytes) (h : files path = some content) :
    Recovers fromStr base64 files path content ↔ ∃ text, content = Utf8.encode text := by
  rw [← not_iff_not, ← decode_eq_none_iff]
  constructor
  · intro hstays
    cases hdecode : Utf8.decode content with
    | none => rfl
    | some text =>
      exact absurd (recovers_of_decode h hdecode) hstays
  · intro hnone hrecovers
    have hstuck := load_stuck fromStr base64 h hnone true
    obtain ⟨identity, hok⟩ | ⟨-, hnext⟩ := hrecovers
    · rw [hstuck] at hok
      cases hok
    · rw [hstuck] at hnext
      simp only [hstuck] at hnext
      cases hnext

/-- A directory with the one file. -/
def onlyFile (content : Bytes) : Files := Files.set (fun _ => none) defaultConfig (some content)

/-- A file of text that is no TOML. -/
theorem load_recovers_iff_text :
    Recovers (fun _ => .error []) (fun _ => .error []) (onlyFile (Utf8.encode "[[[".toList))
        defaultConfig (Utf8.encode "[[[".toList) ↔
      ∃ text, Utf8.encode "[[[".toList = Utf8.encode text :=
  load_recovers_iff _ _ rfl

/-- The noise of a shred, which is overwritten and not deleted yet. -/
theorem shred_noise_stuck :
    shred defaultConfig [107] (fun _ => 0xff) =
        [.overwrite defaultConfig [0xff], .delete defaultConfig] ∧
      (onlyFile [107]).perform (.overwrite defaultConfig [0xff]) defaultConfig = some [0xff] ∧
      load (fun _ => .error []) (fun _ => .error []) true (onlyFile [0xff]) defaultConfig =
        (.error (.io "stream did not contain valid UTF-8".toList), onlyFile [0xff]) ∧
      ¬ Recovers (fun _ => .error []) (fun _ => .error []) (onlyFile [0xff]) defaultConfig
        [0xff] := by
  have hnone : Utf8.decode [0xff] = none := by decide
  refine ⟨by decide, rfl, load_stuck _ _ rfl hnone true, fun h => ?_⟩
  exact decode_eq_none_iff.mp hnone ((load_recovers_iff _ _ rfl).mp h)

end Aether.Vault
