/-
The routing rules of a profile, for the app and for the engine.

The app keeps the entries whose characters it knows, the engine reads every part of the text.  What
an entry loses or gains on the way is told entry by entry, so the two rule sets decide alike exactly
when the entries that do not arrive as they were written make no difference (`rules_agree_iff`).
-/
import Aether.Proofs.Profile.Entries
import Aether.Routing.Parse

namespace Aether.Profile

open List

open Routing
open Regex (accepts)

variable {L : Libraries} {raw e : Text}

/-! ### Entries -/

/-- What is written between commas and line breaks. -/
def ruleEntries (raw : Text) : List Text := splitAny [',', '\n'] raw

/-- The app keeps the entry. -/
def Taken (e : Text) : Prop := accepts ruleEntry (LanGuard.trim e) = true

/-- One of the four separators that are white space to the app and not to the engine. -/
def Padded (e : Text) : Prop := ∃ c ∈ e, 0x1c ≤ c.toNat ∧ c.toNat ≤ 0x1f

instance (e : Text) : Decidable (Taken e) := inferInstanceAs (Decidable (_ = true))

instance (e : Text) : Decidable (Padded e) :=
  List.decidableBEx (fun c : Char => 0x1c ≤ c.toNat ∧ c.toNat ≤ 0x1f) e

/-- What the engine is given. -/
def sentRules (raw : Text) : Text := [','].intercalate (sanitizedRules raw)

theorem taken_iff : Taken e ↔ 1 ≤ (LanGuard.trim e).length ∧ (LanGuard.trim e).length ≤ 200 ∧
    ∀ c ∈ LanGuard.trim e, isRuleChar c = true := by
  unfold Taken
  rw [Regex.accepts_iff rfl]
  exact Regex.mem_language_between_one

variable {c : Char} {port : Nat}

/-- A rule is written in the visible characters of ASCII, and without a comma or a semicolon. -/
theorem isRuleChar_range (h : isRuleChar c = true) :
    0x21 ≤ c.toNat ∧ c.toNat ≤ 0x7e ∧ c.toNat ≠ 0x2c ∧ c.toNat ≠ 0x3b := by
  unfold isRuleChar at h
  rw [Bool.or_eq_true, contains_iff_mem] at h
  obtain h | h := h
  · have hrange := Text.isAlphanum_iff.mp h
    omega
  · have hall : ("_.:/*-[]^$+?()|\x7b\x7d\\".toList.all fun c => decide (0x21 ≤ c.toNat ∧
        c.toNat ≤ 0x7e ∧ c.toNat ≠ 0x2c ∧ c.toNat ≠ 0x3b)) = true := by decide
    exact of_decide_eq_true (all_eq_true.mp hall c h)

/-- An entry that is kept is a rule between white space. -/
theorem Taken.rule_or_space (h : Taken e) (hc : c ∈ e) :
    isRuleChar c = true ∨ Text.isJvmWhitespace c = true :=
  (Pieces.mem_trimBy_or hc).imp_left ((taken_iff.mp h).2.2 c)

/-- White space that both sides know is trimmed by both. -/
theorem Taken.trim_eq (h : Taken e) (hpad : ¬ Padded e) : Text.trim e = LanGuard.trim e := by
  refine Pieces.trimBy_congr fun c hc => ?_
  have hplain : ¬ (0x1c ≤ c.toNat ∧ c.toNat ≤ 0x1f) := fun hrange => hpad ⟨c, hc, hrange⟩
  obtain hrule | hspace := h.rule_or_space hc
  · have hrange := isRuleChar_range hrule
    have hjvm : Text.isJvmWhitespace c = false := by
      simp [Text.isJvmWhitespace]
      omega
    have hrust : Text.isWhitespace c = false := by
      simp [Text.isWhitespace]
      omega
    rw [hjvm, hrust]
  · rw [hspace]
    simp [Text.isJvmWhitespace] at hspace
    simp [Text.isWhitespace]
    omega

/-! ### What the engine reads -/

theorem ruleEntries_of_mem (he : e ∈ ruleEntries raw) : ruleEntries e = [e] :=
  splitOnP_eq_singleton fun _ hc => (Pieces.mem_of_mem_splitOnP he hc).2

theorem parseList_eq (L : Libraries) (raw : Text) :
    parseList L raw = (ruleEntries raw).flatMap fun e =>
      (e.splitOnP (· == ';')).filterMap (Matcher.parse L) := by
  have hsep : (fun c => c == '\n' || c == ',' || c == ';') =
      fun c : Char => [',', '\n'].contains c || c == ';' := by
    funext c
    rw [contains_cons, contains_cons, contains_nil, Bool.or_false,
      Bool.or_comm (c == ',')]
  rw [parseList, hsep, Pieces.splitOnP_or, filterMap_flatMap]
  rfl

/-- The engine reads a text entry by entry. -/
theorem parseList_entries (L : Libraries) (raw : Text) :
    parseList L raw = (ruleEntries raw).flatMap (parseList L) := by
  rw [parseList_eq]
  refine flatMap_congr fun e he => ?_
  rw [parseList_eq L e, ruleEntries_of_mem he, flatMap_singleton]

theorem matchesAny_entries {host : Host} :
    matchesAny L.lower (parseList L raw) host port = true ↔
      ∃ e ∈ ruleEntries raw, matchesAny L.lower (parseList L e) host port = true := by
  rw [parseList_entries, matchesAny, any_flatMap, any_eq_true]
  rfl

/-- Without a separator in it, an entry is one rule. -/
theorem parseList_whole (h : ∀ c ∈ e, (c == '\n' || c == ',' || c == ';') = false) :
    parseList L e = (Matcher.parse L e).toList := by
  rw [parseList, splitOnP_eq_singleton h]
  cases hparse : Matcher.parse L e with
  | none => simp [hparse]
  | some rule => simp [hparse]

theorem Matcher.parse_trim (L : Libraries) (e : Text) :
    Matcher.parse L (Text.trim e) = Matcher.parse L e := by
  have hidem : Text.trim (Text.trim e) = Text.trim e := Pieces.trimBy_idem Text.isWhitespace e
  unfold Matcher.parse
  rw [hidem]

theorem isRuleChar_whole (h : isRuleChar c = true) :
    (c == '\n' || c == ',' || c == ';') = false := by
  have hrange := isRuleChar_range h
  have hne : ∀ d : Char, c.toNat ≠ d.toNat → (c == d) = false := fun d hd =>
    beq_false_of_ne fun heq => hd (congrArg Char.toNat heq)
  rw [hne '\n' (by show c.toNat ≠ 10; omega), hne ',' (by show c.toNat ≠ 44; omega),
    hne ';' (by show c.toNat ≠ 59; omega)]
  rfl

/-- The rule of an entry that is kept is read as a whole. -/
theorem Taken.parseList_trim (h : Taken e) :
    parseList L (LanGuard.trim e) = (Matcher.parse L (LanGuard.trim e)).toList :=
  parseList_whole fun c hc => isRuleChar_whole ((taken_iff.mp h).2.2 c hc)

/-- An entry that both sides trim alike is read alike. -/
theorem Taken.parseList_eq (h : Taken e) (hpad : ¬ Padded e) (he : e ∈ ruleEntries raw) :
    parseList L e = parseList L (LanGuard.trim e) := by
  have hwhole : ∀ c ∈ e, (c == '\n' || c == ',' || c == ';') = false := by
    intro c hc
    obtain hrule | hspace := h.rule_or_space hc
    · exact isRuleChar_whole hrule
    · have hsep := (Pieces.mem_of_mem_splitOnP he hc).2
      rw [contains_cons, contains_cons, contains_nil, Bool.or_false,
        Bool.or_eq_false_iff] at hsep
      have hsemicolon : (c == ';') = false := by
        refine beq_false_of_ne ?_
        rintro rfl
        exact absurd hspace (by decide)
      rw [hsep.1, hsep.2, hsemicolon]
      rfl
  rw [h.parseList_trim, parseList_whole hwhole, ← h.trim_eq hpad, Matcher.parse_trim]

/-! ### What the app sends -/

theorem mem_sanitizedRules (hlen : (ruleEntries raw).length ≤ maxRouteRules) {t : Text} :
    t ∈ sanitizedRules raw ↔ ∃ e ∈ ruleEntries raw, Taken e ∧ LanGuard.trim e = t := by
  have hkept : sanitizedRules raw = (((ruleEntries raw).map LanGuard.trim).filter
      fun e => e ≠ [] && accepts ruleEntry e).eraseDups := by
    refine take_of_length_le ?_
    calc _ ≤ _ := Pieces.length_eraseDups_le _
      _ ≤ _ := length_filter_le _ _
      _ = (ruleEntries raw).length := length_map _
      _ ≤ _ := hlen
  have hne : ∀ e, Taken e → LanGuard.trim e ≠ [] := fun e he =>
    ne_nil_of_length_pos (taken_iff.mp he).1
  rw [hkept, mem_eraseDups, mem_filter, mem_map]
  constructor
  · rintro ⟨⟨e, he, rfl⟩, hcheck⟩
    rw [Bool.and_eq_true] at hcheck
    exact ⟨e, he, hcheck.2, rfl⟩
  · rintro ⟨e, he, htaken, rfl⟩
    refine ⟨⟨e, he, rfl⟩, ?_⟩
    rw [Bool.and_eq_true, decide_eq_true_eq]
    exact ⟨hne e htaken, htaken⟩

/-- The engine reads the rules that were kept, one by one. -/
theorem matchesAny_sent (hlen : (ruleEntries raw).length ≤ maxRouteRules) {host : Host} :
    matchesAny L.lower (parseList L (sentRules raw)) host port = true ↔
      ∃ e ∈ ruleEntries raw, Taken e ∧
        matchesAny L.lower (parseList L (LanGuard.trim e)) host port = true := by
  have hread : parseList L (sentRules raw) = (sanitizedRules raw).filterMap (Matcher.parse L) := by
    by_cases hnil : sanitizedRules raw = []
    · rw [sentRules, hnil]
      rfl
    · rw [parseList, sentRules, Pieces.splitOnP_intercalate (by decide) hnil]
      intro t ht c hc
      obtain ⟨e, -, htaken, rfl⟩ := (mem_sanitizedRules hlen).mp ht
      exact isRuleChar_whole ((taken_iff.mp htaken).2.2 c hc)
  have hone : ∀ t, matchesAny L.lower (Matcher.parse L t).toList host port = true ↔
      ∃ rule, Matcher.parse L t = some rule ∧ rule.matches L.lower host port = true := by
    intro t
    rw [matchesAny, any_eq_true]
    simp only [Option.mem_toList]
  rw [hread, matchesAny, any_eq_true]
  constructor
  · rintro ⟨rule, hrule, hmatch⟩
    obtain ⟨t, ht, hparse⟩ := mem_filterMap.mp hrule
    obtain ⟨e, he, htaken, rfl⟩ := (mem_sanitizedRules hlen).mp ht
    refine ⟨e, he, htaken, ?_⟩
    rw [htaken.parseList_trim, hone]
    exact ⟨rule, hparse, hmatch⟩
  · rintro ⟨e, he, htaken, hmatch⟩
    rw [htaken.parseList_trim, hone] at hmatch
    obtain ⟨rule, hparse, hmatch⟩ := hmatch
    have ht := (mem_sanitizedRules hlen).mpr ⟨e, he, htaken, rfl⟩
    exact ⟨rule, mem_filterMap.mpr ⟨_, ht, hparse⟩, hmatch⟩

/-! ### Both sides -/

/-- The rules that the engine is given decide like the rules that were written, in either list and
whatever the other list holds. -/
def RulesAgree (L : Libraries) (raw : Text) : Prop :=
  ∀ other host port,
    (RuleSet.parse L (sentRules raw) other).decide L.lower host port =
        (RuleSet.parse L raw other).decide L.lower host port ∧
      (RuleSet.parse L other (sentRules raw)).decide L.lower host port =
        (RuleSet.parse L other raw).decide L.lower host port

theorem decide_eq_block_iff {set : RuleSet} {host : Host} :
    set.decide L.lower host port = .block ↔ matchesAny L.lower set.block host port = true := by
  unfold RuleSet.decide
  by_cases hblock : matchesAny L.lower set.block host port = true
  · simp [hblock]
  · by_cases hdirect : matchesAny L.lower set.direct host port = true
    · simp [hblock, hdirect]
    · simp [hblock, hdirect]

theorem rulesAgree_iff_matches :
    RulesAgree L raw ↔ ∀ host port, matchesAny L.lower (parseList L (sentRules raw)) host port =
      matchesAny L.lower (parseList L raw) host port := by
  constructor
  · intro hagree host port
    have hblock := (hagree [] host port).1
    rw [Bool.eq_iff_iff]
    constructor
    · intro hsent
      exact decide_eq_block_iff.mp (hblock.symm.trans (decide_eq_block_iff.mpr hsent))
    · intro hraw
      exact decide_eq_block_iff.mp (hblock.trans (decide_eq_block_iff.mpr hraw))
  · intro hmatch other host port
    simp only [RuleSet.decide, RuleSet.parse, hmatch]
    exact ⟨rfl, rfl⟩

/-- **The rules are applied as they were written exactly if nothing is missed for the entries that
the app drops or trims further than the engine, and nothing else is matched by these.** -/
theorem rules_agree_iff (hlen : (ruleEntries raw).length ≤ maxRouteRules) :
    RulesAgree L raw ↔
      (∀ e ∈ ruleEntries raw, (Taken e → Padded e) → ∀ host port,
        matchesAny L.lower (parseList L e) host port = true → ∃ e' ∈ ruleEntries raw, Taken e' ∧
          matchesAny L.lower (parseList L (LanGuard.trim e')) host port = true) ∧
      (∀ e ∈ ruleEntries raw, Taken e → Padded e → ∀ host port,
        matchesAny L.lower (parseList L (LanGuard.trim e)) host port = true →
          ∃ e' ∈ ruleEntries raw, matchesAny L.lower (parseList L e') host port = true) := by
  rw [rulesAgree_iff_matches]
  constructor
  · intro hagree
    refine ⟨fun e he _ host port hmatch => ?_, fun e he htaken _ host port hmatch => ?_⟩
    · rw [← matchesAny_sent hlen, hagree, matchesAny_entries]
      exact ⟨e, he, hmatch⟩
    · rw [← matchesAny_entries, ← hagree, matchesAny_sent hlen]
      exact ⟨e, he, htaken, hmatch⟩
  · rintro ⟨hmissed, hgained⟩ host port
    rw [Bool.eq_iff_iff, matchesAny_sent hlen, matchesAny_entries]
    constructor
    · rintro ⟨e, he, htaken, hmatch⟩
      by_cases hpad : Padded e
      · exact hgained e he htaken hpad host port hmatch
      · exact ⟨e, he, by rwa [htaken.parseList_eq hpad he]⟩
    · rintro ⟨e, he, hmatch⟩
      by_cases hcarried : Taken e ∧ ¬ Padded e
      · refine ⟨e, he, hcarried.1, ?_⟩
        rwa [← hcarried.1.parseList_eq hcarried.2 he]
      · exact hmissed e he (fun htaken => by_contra fun hpad => hcarried ⟨htaken, hpad⟩) host port
          hmatch

/-- Libraries that know ASCII, and neither address blocks nor regular expressions. -/
def plainLibraries : Libraries where
  lower := (·.map Char.toLower)
  parseIpNet _ := none
  netOf addr := (· == addr)
  compile _ := none

/-- Two rules that are sent as they are, and a remark that the app drops and the engine passes
over. -/
theorem rules_agree_remark :
    RulesAgree plainLibraries "ads.example,keyword:track\n# trackers".toList := by
  have hentries : ruleEntries "ads.example,keyword:track\n# trackers".toList =
      ["ads.example".toList, "keyword:track".toList, "# trackers".toList] := by decide +kernel
  have hsplit : ∀ e ∈ ["ads.example".toList, "keyword:track".toList, "# trackers".toList],
      Taken e ∧ ¬ Padded e ∨ ¬ Taken e ∧ parseList plainLibraries e = [] := by
    intro e he
    simp only [mem_cons, not_mem_nil, or_false] at he
    rcases he with rfl | rfl | rfl
    · exact .inl (by decide +kernel)
    · exact .inl (by decide +kernel)
    · exact .inr ⟨by decide +kernel, rfl⟩
  refine (rules_agree_iff (by decide +kernel)).mpr ?_
  rw [hentries]
  refine ⟨fun e he hcarried host port hmatch => ?_, fun e he htaken hpadded => ?_⟩
  · obtain ⟨htaken, hpad⟩ | ⟨-, hnone⟩ := hsplit e he
    · exact absurd (hcarried htaken) hpad
    · rw [hnone] at hmatch
      cases hmatch
  · obtain ⟨-, hpad⟩ | ⟨hdropped, -⟩ := hsplit e he
    · exact absurd hpadded hpad
    · exact absurd htaken hdropped

/-- A rule for a name that is not ASCII blocks the name, and does not reach the engine. -/
theorem rule_vanishes :
    (Matcher.parse plainLibraries "müller.example".toList).isSome = true ∧
    (RuleSet.parse plainLibraries "müller.example".toList []).decide plainLibraries.lower
      (.domain "müller.example".toList) 443 = .block ∧
    (RuleSet.parse plainLibraries (sentRules "müller.example".toList) []).decide
      plainLibraries.lower (.domain "müller.example".toList) 443 = .proxy := by
  decide +kernel

end Aether.Profile
