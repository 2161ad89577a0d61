/-
What the engine makes of the bridges it is given.

A variable that holds a word of a choice is that choice.  One that holds lines, joined by
semicolons, is cut into the same lines again, and all that is lost is white space at their ends
(`bridges_lines`).
-/
import Aether.Engine.Tor
import Aether.Lib.Pieces

namespace Aether.Engine

open List

open Pieces (trimBy)

/-- Something that begins with a visible character and can be told from its neighbours. -/
structure IsLine (l : Text) : Prop where
  ne_nil : l ≠ []
  head : l.head?.any Text.isWhitespace = false
  whole : ∀ c ∈ l, (c == '\n' || c == ';') = false

/-- The words of a choice, and no word. -/
def choiceWords : List Text := [] :: (offWords ++ autoWords)

section Bridges

variable {read : Text → Option Text} {lower : Text → Text} {env : Environment}

theorem bridgesFromFile_none (h : env "AETHER_TOR_BRIDGE_FILE" = none) :
    bridgesFromFile read env = [] := by
  unfold bridgesFromFile
  rw [h]

/-- A text that begins like no word of a choice is none. -/
theorem notMem_choiceWords (hlower : Text.LowersAscii lower) {a : Text}
    (hascii : ∀ c ∈ a, c.toNat < 128)
    (ha : choiceWords.all (!(a.map Char.toLower).isPrefixOf ·) = true) (b : Text) :
    lower (a ++ b) ∉ choiceWords := by
  intro hmem
  obtain ⟨s, hs⟩ := hlower.front a b hascii
  have hnot := all_eq_true.mp ha _ hmem
  have hpre : (a.map Char.toLower).isPrefixOf (lower (a ++ b)) = true := by
    rw [hs]
    exact isPrefixOf_iff_prefix.mpr (prefix_append _ s)
  rw [hpre] at hnot
  exact nomatch hnot

/-- The lines of a text that is not a word of a choice. -/
theorem bridges_of_notMem {value : Text} (hfile : env "AETHER_TOR_BRIDGE_FILE" = none)
    (henv : env "AETHER_TOR_BRIDGES" = some value) (hword : lower (Text.trim value) ∉ choiceWords) :
    bridges read lower env =
      let lines := (((Text.trim value).splitOnP fun c => c == '\n' || c == ';').map
        Text.trim).filter (· ≠ [])
      if lines = [] then .auto false else .manual lines := by
  rw [choiceWords, mem_cons, mem_append, not_or, not_or] at hword
  unfold bridges
  rw [bridgesFromFile_none hfile, henv]
  simp only [ne_eq, not_true_eq_false, if_false, Option.getD_some, hword.1, contains_iff_mem,
    hword.2.1, hword.2.2]

theorem bridges_none (hlower : Text.LowersAscii lower)
    (hfile : env "AETHER_TOR_BRIDGE_FILE" = none) (henv : env "AETHER_TOR_BRIDGES" = none) :
    bridges read lower env = .auto false := by
  have hnil : lower [] = [] := hlower.whole [] (fun _ h => absurd h not_mem_nil)
  unfold bridges
  rw [bridgesFromFile_none hfile, henv]
  simp [Text.trim, hnil]

theorem bridges_auto (hlower : Text.LowersAscii lower)
    (hfile : env "AETHER_TOR_BRIDGE_FILE" = none)
    (henv : env "AETHER_TOR_BRIDGES" = some "auto".toList) :
    bridges read lower env = .auto true := by
  have hword : lower (Text.trim "auto".toList) = "auto".toList :=
    (hlower.of_all (by decide)).trans (by decide)
  unfold bridges
  rw [bridgesFromFile_none hfile, henv, Option.getD_some]
  simp only [hword]
  decide

theorem bridges_off (hlower : Text.LowersAscii lower)
    (hfile : env "AETHER_TOR_BRIDGE_FILE" = none)
    (henv : env "AETHER_TOR_BRIDGES" = some "off".toList) :
    bridges read lower env = .disabled := by
  have hword : lower (Text.trim "off".toList) = "off".toList :=
    (hlower.of_all (by decide)).trans (by decide)
  unfold bridges
  rw [bridgesFromFile_none hfile, henv, Option.getD_some]
  simp only [hword]
  decide

theorem trim_ne_nil {l : Text} (h : IsLine l) : Text.trim l ≠ [] := by
  obtain ⟨c, l', rfl⟩ := exists_cons_of_ne_nil h.ne_nil
  exact Pieces.trimBy_ne_nil mem_cons_self (by simpa using h.head)

/-- **Lines that were joined are found again, trimmed.** -/
theorem bridges_lines {lines : List Text} (hne : lines ≠ []) (hlines : ∀ l ∈ lines, IsLine l)
    (hfile : env "AETHER_TOR_BRIDGE_FILE" = none)
    (henv : env "AETHER_TOR_BRIDGES" = some ([';'].intercalate lines))
    (hword : lower (Text.trim ([';'].intercalate lines)) ∉ choiceWords) :
    bridges read lower env = .manual (lines.map Text.trim) := by
  obtain ⟨front, last, rfl⟩ : ∃ front last, lines = front ++ [last] :=
    ⟨lines.dropLast, lines.getLast hne, (dropLast_append_getLast hne).symm⟩
  have htrim : Text.trim ([';'].intercalate (front ++ [last])) =
      [';'].intercalate (front ++ [Text.trim last]) :=
    Pieces.trimBy_intercalate fun l hl => ⟨(hlines l hl).ne_nil, (hlines l hl).head⟩
  have hsplit : (Text.trim ([';'].intercalate (front ++ [last]))).splitOnP
      (fun c => c == '\n' || c == ';') = front ++ [Text.trim last] := by
    rw [htrim]
    refine Pieces.splitOnP_intercalate (by decide) (by simp) ?_
    intro l hl c hc
    obtain hl | hl := mem_append.mp hl
    · exact (hlines l (by simp [hl])).whole c hc
    · rw [mem_singleton.mp hl] at hc
      exact (hlines last (by simp)).whole c
        ((Pieces.trimBy_sublist Text.isWhitespace last).subset hc)
  have htrimmed : (front ++ [Text.trim last]).map Text.trim = (front ++ [last]).map Text.trim := by
    rw [map_append, map_append]
    congr 1
    exact congrArg (fun l => [l]) (Pieces.trimBy_idem Text.isWhitespace last)
  have hfilter : ((front ++ [last]).map Text.trim).filter (· ≠ []) =
      (front ++ [last]).map Text.trim := by
    rw [filter_eq_self]
    intro l hl
    obtain ⟨l', hl', rfl⟩ := mem_map.mp hl
    simpa using trim_ne_nil (hlines l' hl')
  rw [bridges_of_notMem hfile henv hword, hsplit, htrimmed, hfilter]
  exact if_neg (by simp)

end Bridges

/-! ### Appending -/

/-- Lines behind a text with something to see in it. -/
theorem foldl_appended_some {t : Text} {c : Char} (hc : c ∈ t)
    (hvisible : Text.isWhitespace c = false) (lines : List Text) :
    lines.foldl (fun old line => some (Environment.appended old line)) (some t) =
      some ([';'].intercalate (t :: lines)) := by
  induction lines generalizing t with
  | nil => simp [List.intercalate]
  | cons line lines ih =>
    have hne : Text.trim t ≠ [] := Pieces.trimBy_ne_nil hc hvisible
    have happended : Environment.appended (some t) line = t ++ ';' :: line := if_pos hne
    rw [foldl_cons, happended, ih (mem_append_left _ hc)]
    cases lines with
    | nil | cons next lines => simp [List.intercalate]

/-- Lines alone. -/
theorem foldl_appended_none {lines : List Text} (hlines : ∀ l ∈ lines, IsLine l) :
    lines.foldl (fun old line => some (Environment.appended old line)) none =
      if lines = [] then none else some ([';'].intercalate lines) := by
  cases lines with
  | nil => rfl
  | cons line lines =>
    have hline := hlines line mem_cons_self
    obtain ⟨c, line, rfl⟩ := exists_cons_of_ne_nil hline.ne_nil
    rw [foldl_cons, if_neg (cons_ne_nil _ _)]
    exact foldl_appended_some mem_cons_self (by simpa using hline.head) lines

end Aether.Engine
