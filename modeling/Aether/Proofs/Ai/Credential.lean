/-
The credential of an authorization header survives `redactLine`.

The rule for labelled values ends its match at the first blank, and the first blank behind an
authorization label stands in front of the credential: what is taken is the scheme.  A last
character that stands apart, behind a blank and a word, stays the last character through all six
rules.
-/
import Aether.Proofs.Ai.Rules

namespace Aether.AiRedaction

open List

open Regex

variable {F : Flavour}

/-! ### A labelled value -/

/-- What `"?\s*[:=]\s*"?\S+` takes. -/
theorem takes_valueBehind {s s' : Cursor Char} (h : s' ∈ run (Regex.all (valueBehind F)) s) :
    ∃ front sep blanks quotes value, Takes (front ++ sep :: (blanks ++ (quotes ++ value))) s s' ∧
      (sep = ':' ∨ sep = '=') ∧ (∀ c ∈ blanks, F.space c = true) ∧ (∀ c ∈ quotes, c = '"') ∧
      value ≠ [] ∧ ∀ c ∈ value, F.space c = false := by
  simp only [valueBehind, run_all_cons, mem_flatMap] at h
  obtain ⟨s₁, h₁, s₂, h₂, s₃, h₃, s₄, h₄, s₅, h₅, s₆, h₆, h₇⟩ := h
  obtain rfl : s' = s₆ := mem_run_empty.mp h₇
  obtain ⟨w₁, hw₁⟩ := takes_run h₁
  obtain ⟨w₂, hw₂⟩ := takes_run h₂
  obtain ⟨sep, rest, hrest, hsep, rfl⟩ := mem_run_one.mp h₃
  have hw₃ : Takes [sep] s₂ { s₂ with prev := some sep, rest := rest } := ⟨hrest, rfl⟩
  obtain ⟨blanks, hw₄, hblanks⟩ :=
    Within.exists_takes (p := F.space) (r := many (.one F.space)) (fun _ => id) h₄
  obtain ⟨quotes, hw₅, hquotes⟩ :=
    Within.exists_takes (p := (· == '"')) (r := opt (literal ['"'])) (fun _ => id) h₅
  obtain ⟨value, hw₆, hvalue⟩ := Within.exists_takes (p := fun c => !F.space c)
    (r := plus (.one fun c => !F.space c)) ⟨⟨fun _ => id, trivial⟩, fun _ => id⟩ h₆
  have hne : value ≠ [] := by
    have hreaches : Reaches (fun _ => true) (fun _ => true) (plus (.one fun c => !F.space c)) :=
      .inl (.inl fun _ _ => rfl)
    obtain ⟨u, c, v, rfl, -, -⟩ := hreaches.takes h₆ hw₆
    simp
  refine ⟨w₁ ++ w₂, sep, blanks, quotes, value, ?_, ?_, hblanks, ?_, hne, ?_⟩
  · have htakes := hw₁.append (hw₂.append (hw₃.append (hw₄.append (hw₅.append hw₆))))
    simpa using htakes
  · simpa using hsep
  · simpa using hquotes
  · simpa using hvalue

variable {t v : Text} {x b : Char}

/-- Where the last character of two texts in a row stands. -/
theorem append_eq_concat {l w : Text} {c : Char} (h : t ++ l = w ++ [c]) :
    (l = [] ∧ t = w ++ [c]) ∨ c ∈ l ∧ ∃ l', l = l' ++ [c] ∧ t ++ l' = w := by
  obtain rfl | ⟨l', d, rfl⟩ := eq_nil_or_concat l
  · exact .inl ⟨rfl, by simpa using h⟩
  · rw [concat_eq_append, ← append_assoc] at h
    obtain ⟨hw, hcd⟩ := append_inj' h rfl
    obtain rfl : d = c := by simpa using hcd
    exact .inr ⟨by simp, l', by simp, hw⟩

theorem eq_concat_of_suffix {u : Text} (hv : v ≠ []) (h : v <:+ u ++ [b]) :
    ∃ v', v = v' ++ [b] := by
  obtain ⟨w, hw⟩ := h
  obtain ⟨hnil, -⟩ | ⟨-, v', rfl, -⟩ := append_eq_concat hw
  · exact absurd hnil hv
  · exact ⟨v', rfl⟩

/-- A labelled value does not go over a word and the blank behind it. -/
theorem labelled_ne (front : Text) {blanks quotes value : Text} {sep : Char}
    (hsep : sep = ':' ∨ sep = '=') (hblanks : ∀ c ∈ blanks, F.space c = true)
    (hquotes : ∀ c ∈ quotes, c = '"') (hne : value ≠ []) (hvalue : ∀ c ∈ value, F.space c = false)
    (hb : F.space b = false ∧ b ≠ ':' ∧ b ≠ '=') :
    front ++ [sep] ++ blanks ++ quotes ++ value ≠ v ++ [b] ++ [' '] ∧
      front ++ [sep] ++ blanks ++ quotes ++ value ≠ v ++ [b] ++ [' '] ++ [x] := by
  have hblank : ∀ l : Text, (∀ c ∈ l, F.space c = false) → ' ' ∉ l := by
    intro l hl hmem
    have hspace := hl ' ' hmem
    rw [F.space_blank] at hspace
    exact absurd hspace (by decide)
  constructor
  · intro h
    obtain ⟨hnil, -⟩ | ⟨hmem, -⟩ := append_eq_concat h
    · exact hne hnil
    · exact hblank value hvalue hmem
  · -- the texts are compared from their ends: the value is `x`, and the blank is one of those
    -- in front of it, so that the word would end in the separator
    intro h
    obtain ⟨hnil, -⟩ | ⟨-, value', rfl, h₁⟩ := append_eq_concat h
    · exact hne hnil
    obtain ⟨rfl, h₂⟩ | ⟨hmem, -⟩ := append_eq_concat h₁
    · obtain ⟨rfl, h₃⟩ | ⟨hmem, -⟩ := append_eq_concat h₂
      · obtain ⟨rfl, h₄⟩ | ⟨-, blanks', rfl, h₄⟩ := append_eq_concat h₃
        · obtain ⟨-, hlast⟩ := append_inj' h₄ rfl
          obtain rfl : sep = ' ' := by simpa using hlast
          exact absurd hsep (by decide)
        · obtain ⟨rfl, h₅⟩ | ⟨hmem, -⟩ := append_eq_concat h₄
          · obtain ⟨-, hlast⟩ := append_inj' h₅ rfl
            obtain rfl : sep = b := by simpa using hlast
            exact hsep.elim hb.2.1 hb.2.2
          · have hspace := hblanks b (by simp [hmem])
            rw [hb.1] at hspace
            exact absurd hspace (by decide)
      · exact absurd (hquotes ' ' hmem) (by decide)
    · exact hblank value' (fun c hc => hvalue c (by simp [hc])) hmem

/-! ### A last character that stands apart -/

/-- The text ends in a word, a blank and `x`. -/
structure Apart (F : Flavour) (x : Char) (t : Text) : Prop where
  shape : ∃ u b, t = u ++ [b] ++ [' ', x] ∧ F.space b = false ∧ b ≠ ':' ∧ b ≠ '='

/-- A rule whose matches end before the blank, and that writes a bracket last, keeps it so. -/
theorem Apart.replace {r : Rule} {x : Char} {t : Text} (h : Apart F x t)
    (hstays : ∀ u b, F.space b = false ∧ b ≠ ':' ∧ b ≠ '=' →
      (scan r.pattern r.write 0 none (u ++ [b]) [' ', x]).2 = none)
    (hmissed : ∀ prev v, v ≠ [] → v <:+ [' ', x] → Missed (find r.pattern prev v))
    (hwrite : ∀ m group, ∃ out, r.write m group = out ++ [']']) : Apart F x (r.replace t) := by
  obtain ⟨u, b, rfl, hb⟩ := h.shape
  have hnone := hstays u b hb
  have hrest : replaceFrom r.pattern r.write 0 ((u ++ [b]).getLast?.or none) [' ', x] =
      [' ', x] := by
    have hpass := replaceFrom_pass (r := r.pattern) (f := r.write)
      ((u ++ [b]).getLast?.or none) [' ', x] [] (by simpa using hmissed)
    simpa [replaceFrom] using hpass
  have hreplace : r.replace (u ++ [b] ++ [' ', x]) =
      (scan r.pattern r.write 0 none (u ++ [b]) [' ', x]).1 ++ [' ', x] := by
    rw [Rule.replace, Regex.replace, replaceFrom_append none _ (Nat.zero_le _), hnone,
      replaceAfter, hrest]
  rw [hreplace]
  obtain h | ⟨out, m, group, v, -, -, hsuffix, -, h⟩ := scan_last (Nat.zero_le _) hnone
  · exact ⟨u, b, by rw [h]; rfl, hb⟩
  · rw [h]
    by_cases hv : v = []
    · -- the last match ends before the blank: what is written for it ends in a bracket
      obtain ⟨out', hout⟩ := hwrite m group
      refine ⟨out ++ out', ']', by simp [hout, hv], F.space_visible ']' (by decide) (by decide),
        by decide, by decide⟩
    · obtain ⟨v, rfl⟩ := eq_concat_of_suffix hv ((suffix_append m v).trans hsuffix)
      exact ⟨out ++ r.write m group ++ v, b, by simp, hb⟩

/-- No match of a labelled value runs over the blank. -/
theorem scan_labelled (rs : List (Regex Char)) {f : Text → Text → Text} (u : Text)
    (hb : F.space b = false ∧ b ≠ ':' ∧ b ≠ '=') :
    (scan (Regex.all (rs ++ valueBehind F)) f 0 none (u ++ [b]) [' ', x]).2 = none := by
  refine scan_snd_eq_none (Nat.zero_le _) fun prev v hv hsuffix n captured hfind => ?_
  obtain ⟨s, w, hs, hw, rfl, -⟩ := exists_of_find hfind
  refine Nat.le_of_not_lt fun hlt => ?_
  have hmem := mem_of_mem_head? hs
  rw [run_all_append, mem_flatMap] at hmem
  obtain ⟨m, hm, hs'⟩ := hmem
  obtain ⟨l, hl⟩ := takes_run hm
  obtain ⟨front, sep, blanks, quotes, value, htakes, hsep, hblanks, hquotes, hne, hvalue⟩ :=
    takes_valueBehind hs'
  obtain ⟨v, rfl⟩ := eq_concat_of_suffix hv hsuffix
  have hw' : w = l ++ front ++ [sep] ++ blanks ++ quotes ++ value := by
    rw [hw.unique (hl.append htakes)]
    simp
  have hcases : w = v ++ [b] ++ [' '] ∨ w = v ++ [b] ++ [' '] ++ [x] := by
    obtain ⟨y, hy, hrest⟩ | ⟨y, hy, -⟩ := append_eq_append_iff.mp hw.rest
    · rcases y with _ | ⟨d, _ | ⟨e, y⟩⟩
      · simp [hy] at hlt
      · obtain ⟨hd, -⟩ := List.cons.inj hrest
        exact .inl (by rw [hy, hd])
      · obtain ⟨hd, hrest⟩ := List.cons.inj hrest
        obtain ⟨he, hrest⟩ := List.cons.inj hrest
        obtain ⟨hnil, -⟩ := append_eq_nil_iff.mp hrest.symm
        exact .inr (by rw [hy, hnil, ← hd, ← he]; simp)
    · rw [hy, length_append] at hlt
      omega
  obtain ⟨h₁, h₂⟩ := labelled_ne (F := F) (l ++ front) (v := v) (x := x) hsep hblanks
    hquotes hne hvalue hb
  rw [hw'] at hcases
  exact hcases.elim h₁ h₂

/-- Nothing in the blank and `x` begins a match of a pattern that has to reach a character they
are not. -/
theorem missed_apart {r : Regex Char} {p q : Char → Bool} (hr : Reaches p q r)
    (hblank : q ' ' = false) (hx : q x = false) (prev : Option Char) (hsuffix : v <:+ [' ', x]) :
    Missed (find r prev v) := by
  have hv : ∀ c ∈ v, q c = false := by
    intro c hc
    have hc : c = ' ' ∨ c = x := by simpa using hsuffix.subset hc
    rcases hc with rfl | rfl
    · exact hblank
    · exact hx
  have hfind := find_eq_none_of_reaches hr prev hv (z := []) ⟨rfl, rfl⟩
  rw [append_nil] at hfind
  rw [hfind]
  exact missed_none

/-- A parenthesis at the end: no rule has it in a class. -/
structure Inert (F : Flavour) (x : Char) : Prop where
  hex : isHex x = false
  key : isKeyChar x = false
  letter : isLetter F x = false
  digit : F.digit x = false
  marks : x ≠ '"' ∧ x ≠ ':' ∧ x ≠ '.' ∧ x ≠ '-'

theorem inert_parenthesis (hx : x = '(' ∨ x = ')') : Inert F x := by
  have hletter : ∀ c : Char, c.toNat < 128 →
      "abcdefghijklmnopqrstuvwxyz".toList.any (fun p => p.toLower == c.toLower) = false →
      isLetter F c = false := fun c hc h => (isLetter_ascii hc).trans h
  rcases hx with rfl | rfl
  · exact ⟨by decide, by decide, hletter _ (by decide) (by decide),
      F.digit_ascii _ (by decide), by decide⟩
  · exact ⟨by decide, by decide, hletter _ (by decide) (by decide),
      F.digit_ascii _ (by decide), by decide⟩

theorem isLetter_blank : isLetter F ' ' = false :=
  (isLetter_ascii (by decide)).trans (by decide)

theorem Apart.googleKey (hx : Inert F x) (h : Apart F x t) : Apart F x (googleKey.replace t) := by
  refine h.replace (fun u b _ => ?_) (fun prev v _ => ?_) (fun _ _ => ⟨"[REDACTED".toList, rfl⟩)
  · exact (scan_blind (blind_of_cons within_googleKey (by decide) [x] [x])
      (cons_ne_nil ' ' [x]) (cons_ne_nil ' ' [x]) none (u ++ [b])).1
  · refine missed_apart reaches_googleKey (by decide) ?_ prev
    have hA : x ≠ 'A' := fun h => by
      have hkey := hx.key
      rw [h] at hkey
      exact absurd hkey (by decide)
    simpa using hA

theorem writeLabel_last (m group : Text) : ∃ out, writeLabel m group = out ++ [']'] :=
  ⟨label group ++ "=[REDACTED".toList, by simp [writeLabel]⟩

theorem Apart.credentialLine (hx : Inert F x) (h : Apart F x t) :
    Apart F x ((credentialLine F).replace t) :=
  h.replace (fun u _ hb => scan_labelled [_] u hb)
    (fun prev _ _ => missed_apart reaches_credentialLine isLetter_blank hx.letter prev)
    writeLabel_last

theorem Apart.deviceField (hx : Inert F x) (h : Apart F x t) :
    Apart F x ((deviceField F).replace t) :=
  h.replace (fun u _ hb => scan_labelled [_, _, _] u hb)
    (fun prev _ _ => missed_apart reaches_deviceField isLetter_blank hx.letter prev)
    writeLabel_last

/-- A last character that a rule does not take stays the last. -/
theorem getLast?_replace {r : Rule} {p a q : Char → Bool} (hwithin : Within p r.pattern)
    (hreaches : Reaches a q r.pattern) (hp : p x = false) (hq : q x = false)
    (ht : t.getLast? = some x) : (r.replace t).getLast? = some x := by
  obtain ⟨u, rfl⟩ : ∃ u, t = u ++ [x] := by
    obtain ⟨u, hu⟩ := List.getLast?_eq_some_iff.mp ht
    exact ⟨u, hu⟩
  have hnone := (scan_blind (f := r.write) (blind_of_cons hwithin hp [] [])
    (cons_ne_nil x []) (cons_ne_nil x []) none u).1
  have hfind := find_eq_none_of_reaches hreaches (u.getLast?.or none) (v := [x]) (z := [])
    (by simpa using hq) ⟨rfl, rfl⟩
  have hlast : replaceFrom r.pattern r.write 0 (u.getLast?.or none) [x] = [x] := by
    rw [replaceFrom_missed (hfind ▸ missed_none)]
    rfl
  rw [append_nil] at hnone
  rw [Rule.replace, Regex.replace, replaceFrom_append none _ (Nat.zero_le _), hnone,
    replaceAfter, hlast]
  simp

theorem Apart.getLast?_redactLine (hx : Inert F x) (h : Apart F x t) :
    (redactLine F t).getLast? = some x := by
  have hapart := ((h.googleKey hx).credentialLine hx).deviceField hx
  have hlast : (((AiRedaction.deviceField F).replace ((AiRedaction.credentialLine F).replace
      (AiRedaction.googleKey.replace t)))).getLast? = some x := by
    obtain ⟨u, b, heq, -⟩ := hapart.shape
    simp [heq]
  obtain ⟨-, hcolon, hdot, hdash⟩ := hx.marks
  have huuid := getLast?_replace (within_uuid (F := F)) reaches_uuid
    (by simp [isUuidChar, hx.hex, hdash]) (by simpa using hdash) hlast
  have hipv6 := getLast?_replace (within_ipv6 (F := F)) reaches_ipv6
    (by simp [isHextetChar, isQuadChar, hx.hex, hx.digit, hcolon, hdot])
    (by simpa using hcolon) huuid
  exact getLast?_replace (within_ipv4 (F := F)) reaches_ipv4
    (by simp [isQuadChar, hx.digit, hdot]) hx.digit hipv6

/-- **Redaction does not hide the credential of an authorization header**: whatever stands before
the header and whatever the scheme, there are two credentials with two outputs.  The match of the
label ends with the scheme. -/
theorem not_hidesCredential (pre : Text) (name : HeaderName) (scheme : Scheme F) :
    ¬ HidesCredential F pre name scheme := by
  intro hhides
  -- two credentials that no rule reads
  let credential (x : Char) (hx : F.space x = false ∧ Text.isJvmWhitespace x = false) :
      Credential F := ⟨[x], by simp, by simpa using hx⟩
  have hlast : ∀ x hx, x = '(' ∨ x = ')' →
      (redactLine F (headerLine pre name scheme (credential x hx))).getLast? = some x := by
    intro x hx hparen
    refine Apart.getLast?_redactLine (inert_parenthesis hparen) ⟨?_⟩
    obtain ⟨word, b, hword⟩ : ∃ word b, scheme.text = word ++ [b] := by
      obtain hnil | ⟨word, b, hword⟩ := eq_nil_or_concat scheme.text
      · exact absurd hnil scheme.ne_nil
      · exact ⟨word, b, by simpa using hword⟩
    exact ⟨pre ++ name.text ++ [':', ' '] ++ word, b, by simp [headerLine, hword, credential],
      scheme.plain b (by simp [hword])⟩
  have hvisible : ∀ x : Char, x = '(' ∨ x = ')' →
      F.space x = false ∧ Text.isJvmWhitespace x = false := by
    rintro x (rfl | rfl)
    · exact ⟨F.space_visible _ (by decide) (by decide), by decide⟩
    · exact ⟨F.space_visible _ (by decide) (by decide), by decide⟩
  have hleft := hlast '(' (hvisible _ (.inl rfl)) (.inl rfl)
  have hright := hlast ')' (hvisible _ (.inr rfl)) (.inr rfl)
  rw [hhides _ (credential ')' (hvisible _ (.inr rfl))), hright] at hleft
  exact absurd hleft (by decide)

/-- A bearer token leaves the device as it stands. -/
theorem bearer_leaves :
    redactLine .ascii "Authorization: Bearer eyJhbGci.c2VjcmV0".toList =
        "Authorization=[REDACTED] eyJhbGci.c2VjcmV0".toList ∧
      redactLine .ascii "Authorization: Bearer eyJhbGci.c2VjcmV0".toList ≠
        redactLine .ascii "Authorization: Bearer eyJhbGci.b3RoZXI".toList := by
  decide +kernel

end Aether.AiRedaction
