/-
When a policy on the exit location is honoured.

`locTrimmed` is the value of the location line without the white space around it, and it is found in
two texts with a line break between them by looking at the first one and then at the second.  So a
location whose line has ended stays what it is, whatever comes behind.  The one in the last line
may go on: there the text as a whole is the text received with the rest behind it, because a
location of two letters leaves no bytes undecoded.
-/
import Aether.Exit.Location
import Aether.Lib.Pieces

namespace Aether.ExitLoc

open List

/-! ### Lines -/

variable {code line value text t raw : Text} {p : Policy}

/-- What has no line break goes to the line that is being read. -/
theorem linesFrom_append (h : '\n' ∉ t) (line rest : Text) :
    linesFrom line (t ++ rest) = linesFrom (line ++ t) rest := by
  induction t generalizing line with
  | nil => rw [nil_append, append_nil]
  | cons c t ih =>
    rw [mem_cons, not_or] at h
    have hc : ¬ c = '\n' := fun heq => h.1 heq.symm
    rw [cons_append, linesFrom, if_neg hc, ih h.2, append_assoc]
    rfl

/-- The value of a line, without the white space around it. -/
def lineValue (line : Text) : Option Text := (Text.strip "loc=".toList line).map Text.trim

/-- The value of the location line, without the white space around it. -/
def locTrimmed (text : Text) : Option Text := (locValue text).map Text.trim

theorem trim_stripCr (t : Text) : Text.trim (stripCr t) = Text.trim t := by
  unfold stripCr
  split
  · next hlast =>
      obtain ⟨front, rfl⟩ := List.getLast?_eq_some_iff.mp hlast
      rw [dropLast_concat]
      exact (Pieces.trimBy_append_of_all (by decide) front).symm
  · rfl

/-- A carriage return at the end of a line makes no difference. -/
theorem lineValue_stripCr (line : Text) : lineValue (stripCr line) = lineValue line := by
  unfold lineValue
  cases hstrip : Text.strip "loc=".toList line with
  | some value =>
    have hline : stripCr line = "loc=".toList ++ stripCr value := by
      rw [Text.eq_of_strip hstrip]
      unfold stripCr
      cases value with
      | nil => rfl
      | cons c value =>
        rw [List.getLast?_append_of_ne_nil _ (cons_ne_nil c value)]
        split
        · rw [dropLast_append_of_ne_nil (cons_ne_nil c value)]
        · rfl
    rw [hline, Text.strip_append, Option.map_some, Option.map_some, trim_stripCr]
  | none =>
    have hnone : Text.strip "loc=".toList (stripCr line) = none := by
      refine Text.strip_eq_none fun rest heq => ?_
      obtain ⟨rest', hline⟩ : ∃ rest', line = "loc=".toList ++ rest' := by
        unfold stripCr at heq
        split at heq
        · next hlast =>
            obtain ⟨front, rfl⟩ := List.getLast?_eq_some_iff.mp hlast
            rw [dropLast_concat] at heq
            exact ⟨rest ++ ['\r'], by rw [heq, append_assoc]⟩
        · exact ⟨rest, heq⟩
      rw [hline, Text.strip_append] at hstrip
      cases hstrip
    rw [hnone]

theorem findSome?_cons (line : Text) (ls : List Text) :
    ((line :: ls).findSome? (Text.strip "loc=".toList)).map Text.trim =
      (lineValue line).or ((ls.findSome? (Text.strip "loc=".toList)).map Text.trim) := by
  rw [List.findSome?_cons]
  unfold lineValue
  cases Text.strip "loc=".toList line with
  | none => rfl
  | some value => rfl

theorem locTrimmed_of_notMem (h : '\n' ∉ line) : locTrimmed line = lineValue line := by
  unfold locTrimmed locValue lines
  rw [← append_nil line, linesFrom_append h, nil_append, append_nil, linesFrom]
  split
  · next hnil => rw [hnil]; rfl
  · rw [findSome?_cons]
    exact Option.or_none

theorem locTrimmed_line (h : '\n' ∉ line) (rest : Text) :
    locTrimmed (line ++ '\n' :: rest) = (lineValue line).or (locTrimmed rest) := by
  unfold locTrimmed locValue lines
  rw [linesFrom_append h, linesFrom, if_pos rfl, findSome?_cons, nil_append, lineValue_stripCr]

/-- **The location is looked for in front of a line break, and then behind it.** -/
theorem locTrimmed_append (front rest : Text) :
    locTrimmed (front ++ '\n' :: rest) = (locTrimmed front).or (locTrimmed rest) := by
  induction hlen : front.length using Nat.strongRecOn generalizing front with
  | ind n ih =>
    cases hcut : Text.splitOnce ['\n'] front with
    | none =>
      have hno : '\n' ∉ front := by
        intro hmem
        obtain ⟨s, t, rfl⟩ := append_of_mem hmem
        have hsome := Text.isSome_splitOnce ['\n'] s t
        rw [singleton_append, hcut] at hsome
        cases hsome
      rw [locTrimmed_line hno, locTrimmed_of_notMem hno]
    | some pair =>
      obtain ⟨line, more⟩ := pair
      have hno := Text.notMem_of_splitOnce hcut
      obtain rfl : front = line ++ '\n' :: more := by
        rw [Text.eq_of_splitOnce hcut]
        simp
      have hrest := ih more.length (by rw [← hlen]; simp; omega) more rfl
      rw [append_assoc, cons_append, locTrimmed_line hno, hrest,
        locTrimmed_line hno, Option.or_assoc]

/-! ### Codes -/

theorem byteLength_of_alpha {c : Text} (h : c.all Char.isAlpha = true) :
    byteLength c = c.length := by
  induction c with
  | nil => rfl
  | cons x c ih =>
    rw [all_cons, Bool.and_eq_true] at h
    have halnum : x.isAlphanum = true := by
      show (x.isAlpha || x.isDigit) = true
      rw [h.1]
      rfl
    have hx : x.toNat < 0x80 := by
      have hrange := Text.isAlphanum_iff.mp halnum
      omega
    have hrest : (Utf8.encode c).length = c.length := ih h.2
    unfold byteLength
    rw [Utf8.encode_cons, length_append, hrest, Utf8.encodeChar_ascii hx, length_singleton,
      length_cons, Nat.add_comm]

theorem parseTrace_eq_some :
    parseTrace text = some code ↔
      ∃ v, locTrimmed text = some v ∧ upper v = code ∧ byteLength code = 2 := by
  have hfield : field text "loc".toList = (locTrimmed text).filter (!·.isEmpty) := rfl
  unfold parseTrace
  rw [hfield, Option.filter_eq_some_iff, Option.map_eq_some_iff, beq_iff_eq]
  constructor
  · rintro ⟨⟨v, hv, rfl⟩, hlen⟩
    exact ⟨v, (Option.filter_eq_some_iff.mp hv).1, rfl, hlen⟩
  · rintro ⟨v, hv, rfl, hlen⟩
    refine ⟨⟨v, Option.filter_eq_some_iff.mpr ⟨hv, ?_⟩, rfl⟩, hlen⟩
    cases v with
    | nil => cases hlen
    | cons c v => rfl

theorem located_iff :
    Located text code ↔
      (∃ v, locTrimmed text = some v ∧ upper v = code) ∧ code.length = 2 ∧
        code.all Char.isAlpha = true := by
  unfold Located locTrimmed
  simp only [Option.map_eq_some_iff]
  constructor
  · rintro ⟨⟨value, hvalue, hcode⟩, hrest⟩
    exact ⟨⟨_, ⟨value, hvalue, rfl⟩, hcode⟩, hrest⟩
  · rintro ⟨⟨_, ⟨value, hvalue, rfl⟩, hcode⟩, hrest⟩
    exact ⟨⟨value, hvalue, hcode⟩, hrest⟩

theorem Located.parseTrace (h : Located text code) : parseTrace text = some code := by
  obtain ⟨⟨v, hv, hcode⟩, hlen, hall⟩ := located_iff.mp h
  exact parseTrace_eq_some.mpr ⟨v, hv, hcode, (byteLength_of_alpha hall).trans hlen⟩

/-! ### A line that goes on -/

/-- The location in a last line, with more behind it. -/
theorem locTrimmed_open (hline : '\n' ∉ line)
    (hvalue : Text.strip "loc=".toList line = some value) (rest : Text) :
    locTrimmed (line ++ rest) =
      some (Text.trim (value ++ rest.takeWhile (· != '\n'))) := by
  have hmore : '\n' ∉ line ++ rest.takeWhile (· != '\n') := by
    intro hmem
    obtain hmem | hmem := mem_append.mp hmem
    · exact hline hmem
    · have hne := mem_takeWhile_imp hmem
      exact absurd hne (by decide)
  have hfound : lineValue (line ++ rest.takeWhile (· != '\n')) =
      some (Text.trim (value ++ rest.takeWhile (· != '\n'))) := by
    unfold lineValue
    rw [Text.eq_of_strip hvalue, append_assoc, Text.strip_append, Option.map_some]
  have hparts := takeWhile_append_dropWhile (p := (· != '\n')) (l := rest)
  cases hdrop : rest.dropWhile (· != '\n') with
  | nil =>
    rw [hdrop, append_nil] at hparts
    rw [hparts] at hmore hfound ⊢
    rw [locTrimmed_of_notMem hmore, hfound]
  | cons c more =>
    obtain rfl : c = '\n' := by
      have hhead := Pieces.head?_dropWhile (· != '\n') rest
      rw [hdrop] at hhead
      simpa using hhead
    rw [hdrop] at hparts
    conv_lhs => rw [← hparts, ← append_assoc]
    rw [locTrimmed_line hmore, hfound]
    rfl

/-- A location of two letters goes on to be the same one exactly if white space follows. -/
theorem located_open_iff {rest : Text} (hline : '\n' ∉ line)
    (hvalue : Text.strip "loc=".toList line = some value) (hcode : upper (Text.trim value) = code)
    (hlen : code.length = 2) (hall : code.all Char.isAlpha = true) :
    Located (line ++ rest) code ↔ EndsBlank rest := by
  have htrim : (Text.trim value).length = 2 := by
    rw [← hlen, ← hcode]
    exact (length_map _).symm
  rw [located_iff, locTrimmed_open hline hvalue]
  constructor
  · rintro ⟨⟨v, hv, hupper⟩, -⟩
    cases hv
    by_contra hblank
    have hne : Text.trim value ≠ [] := fun hnil => by
      rw [hnil] at htrim
      cases htrim
    have hlonger := Pieces.length_trimBy_append hne hblank
    have hsame : (Text.trim (value ++ rest.takeWhile (· != '\n'))).length = 2 := by
      rw [← hlen, ← hupper]
      exact (length_map _).symm
    change (Text.trim value).length < (Text.trim _).length at hlonger
    omega
  · intro hblank
    exact ⟨⟨_, rfl, (congrArg upper (Pieces.trimBy_append_of_all hblank value)).trans hcode⟩, hlen,
      hall⟩

/-- Two letters and the white space around them leave no bytes undecoded. -/
theorem replacement_notMem (hvalue : Text.strip "loc=".toList line = some value)
    (hcode : upper (Text.trim value) = code) (hall : code.all Char.isAlpha = true) :
    Utf8.replacement ∉ line := by
  rw [Text.eq_of_strip hvalue]
  intro hmem
  obtain hmem | hmem := mem_append.mp hmem
  · exact absurd hmem (by decide)
  · obtain hmem | hspace := Pieces.mem_trimBy_or (p := Text.isWhitespace) hmem
    · have hupper : Char.toUpper Utf8.replacement ∈ code := hcode ▸ mem_map_of_mem hmem
      have halpha := all_eq_true.mp hall _ hupper
      exact absurd halpha (by decide)
    · exact absurd hspace (by decide)

theorem exists_rsplitOnce {c : Char} (h : c ∈ t) :
    ∃ front last, Text.rsplitOnce c t = some (front, last) := by
  cases hcut : Text.rsplitOnce c t with
  | some pair => exact ⟨pair.1, pair.2, rfl⟩
  | none =>
    exfalso
    rw [Text.rsplitOnce, Option.map_eq_none_iff] at hcut
    obtain ⟨s, r, hst⟩ := append_of_mem (mem_reverse.mpr h)
    have hsome := Text.isSome_splitOnce [c] s r
    rw [singleton_append, ← hst, hcut] at hsome
    cases hsome

/-- **What a location that was received becomes in the whole answer.** -/
theorem located_append_iff {bytes rest : Bytes}
    (h : parseTrace (Utf8.decodeLossy bytes) = some code) (hall : code.all Char.isAlpha = true) :
    Located (Utf8.decodeLossy (bytes ++ rest)) code ↔
      LineEnded (Utf8.decodeLossy bytes) ∨ EndsBlank (Utf8.decodeLossy rest) := by
  obtain ⟨v, hv, hcode, hbytes⟩ := parseTrace_eq_some.mp h
  have hlen : code.length = 2 := (byteLength_of_alpha hall).symm.trans hbytes
  have hopen : ∀ {l : Bytes} {line : Text}, Utf8.decodeLossy l = line → '\n' ∉ line →
      lineValue line = some v →
      (Located (Utf8.decodeLossy (l ++ rest)) code ↔ EndsBlank (Utf8.decodeLossy rest)) := by
    intro l line hl hline hfound
    obtain ⟨value, hvalue, rfl⟩ := Option.map_eq_some_iff.mp hfound
    have hdecoded : Utf8.replacement ∉ Utf8.decodeLossy l := by
      rw [hl]
      exact replacement_notMem hvalue hcode hall
    rw [Utf8.decodeLossy_append_of_notMem hdecoded, hl]
    exact located_open_iff hline hvalue hcode hlen hall
  by_cases hmem : '\n' ∈ Utf8.decodeLossy bytes
  · obtain ⟨front, last, hcut⟩ := exists_rsplitOnce hmem
    have hlast := Text.notMem_of_rsplitOnce hcut
    have htext := Text.eq_of_rsplitOnce hcut
    have hended : LineEnded (Utf8.decodeLossy bytes) ↔ (locTrimmed front).isSome = true := by
      unfold LineEnded locTrimmed
      rw [hcut]
      constructor
      · rintro ⟨front', last', heq, hsome⟩
        cases heq
        rwa [Option.isSome_map]
      · intro hsome
        rw [Option.isSome_map] at hsome
        exact ⟨front, last, rfl, hsome⟩
    obtain ⟨a, l, rfl, hfront, hl⟩ := Utf8.decodeLossy_eq_append (x := 10) (by decide) htext
    have hwhole : Utf8.decodeLossy (a ++ 10 :: l ++ rest) =
        front ++ '\n' :: Utf8.decodeLossy (l ++ rest) := by
      rw [append_assoc, cons_append, Utf8.decodeLossy_append (by decide), hfront]
      rfl
    rw [htext, locTrimmed_append, locTrimmed_of_notMem hlast] at hv
    rw [hwhole, hended]
    cases hloc : locTrimmed front with
    | some v' =>
      rw [hloc, Option.some_or] at hv
      have hlocated : Located (front ++ '\n' :: Utf8.decodeLossy (l ++ rest)) code := by
        rw [located_iff, locTrimmed_append, hloc]
        exact ⟨⟨v', rfl, (Option.some.inj hv).symm ▸ hcode⟩, hlen, hall⟩
      exact iff_of_true hlocated (.inl rfl)
    | none =>
      rw [hloc, Option.none_or] at hv
      have hsame : Located (front ++ '\n' :: Utf8.decodeLossy (l ++ rest)) code ↔
          Located (Utf8.decodeLossy (l ++ rest)) code := by
        rw [located_iff, located_iff, locTrimmed_append, hloc, Option.none_or]
      rw [hsame, hopen hl hlast hv]
      simp
  · rw [locTrimmed_of_notMem hmem] at hv
    have hended : ¬ LineEnded (Utf8.decodeLossy bytes) := by
      rintro ⟨front, last, hcut, -⟩
      rw [Text.rsplitOnce_none hmem] at hcut
      cases hcut
    rw [hopen rfl hmem hv]
    exact (or_iff_right hended).symm

/-! ### Policies -/

/-- A policy is a list of what is allowed or a list of what is denied, and has codes only. -/
theorem parse_shape (h : Policy.parse raw = some p) :
    (∃ codes, p = ⟨codes, []⟩ ∧ codes ≠ [] ∧ ∀ c ∈ codes, isCode c = true) ∨
      ∃ codes, p = ⟨[], codes⟩ ∧ codes ≠ [] ∧ ∀ c ∈ codes, isCode c = true := by
  unfold Policy.parse at h
  dsimp only at h
  split at h
  · cases h
  · split at h
    · cases h
    · next hne =>
        rw [List.isEmpty_iff] at hne
        split at h
        · cases h
          exact .inr ⟨_, rfl, hne, fun c hc => (mem_filter.mp hc).2⟩
        · cases h
          exact .inl ⟨_, rfl, hne, fun c hc => (mem_filter.mp hc).2⟩

/-- The empty location is accepted exactly by a list of what is denied. -/
theorem accepts_nil_iff (h : Policy.parse raw = some p) : p.accepts [] = true ↔ p.deny ≠ [] := by
  have hnil : ∀ codes : List Text, (∀ c ∈ codes, isCode c = true) → codes.contains [] = false := by
    intro codes hcodes
    rw [contains_eq_mem, decide_eq_false_iff_not]
    intro hmem
    exact absurd (hcodes [] hmem) (by decide)
  have hcode : upper (Text.trim []) = [] := rfl
  obtain ⟨codes, rfl, hne, hcodes⟩ | ⟨codes, rfl, hne, hcodes⟩ := parse_shape h
  · have hempty : codes.isEmpty = false := by
      rw [Bool.eq_false_iff, ne_eq, List.isEmpty_iff]
      exact hne
    unfold Policy.accepts
    simp only [hcode, hnil codes hcodes, hempty]
    simp
  · unfold Policy.accepts
    simp only [hcode, hnil codes hcodes]
    simp [hne]

theorem settle_eq_ok_iff {chunks : List Bytes} :
    settle (some p) (.ok chunks) = .ok () ↔
      p.accepts ((parseTrace (received chunks)).getD []) = true := by
  show (if p.accepts ((parseTrace (received chunks)).getD []) then _ else _) = _ ↔ _
  split
  · next haccepts => simp [haccepts]
  · next haccepts => simp [haccepts]

/-! ### Reading -/

/-- What is received and what is left are the whole answer. -/
theorem receive_flatten (buf : Bytes) (chunks : List Bytes) :
    (receive buf chunks).1 ++ (receive buf chunks).2.flatten = buf ++ chunks.flatten := by
  induction chunks generalizing buf with
  | nil => rfl
  | cons chunk chunks ih =>
    rw [receive]
    split
    · simp
    · rw [ih]
      simp

/-- **A policy is honoured exactly if no location is cut, none is missing where some are denied, and
what is accepted is two letters.** -/
theorem policy_honoured_iff {raw : Text} {p : Policy} (h : Policy.parse raw = some p)
    (chunks : List Bytes) :
    (settle (some p) (.ok chunks) = .ok () → Honoured p chunks) ↔ Uncut p chunks := by
  rw [settle_eq_ok_iff]
  unfold Uncut
  cases hread : parseTrace (received chunks) with
  | none =>
    have hnot : ¬ Honoured p chunks := by
      rintro ⟨code, hlocated, -⟩
      rw [hlocated.parseTrace] at hread
      cases hread
    rw [Option.getD_none, accepts_nil_iff h]
    constructor
    · intro hhonoured
      refine ⟨fun _ => ?_, fun code hcode => by cases hcode⟩
      by_contra hdeny
      exact hnot (hhonoured hdeny)
    · rintro ⟨hdeny, -⟩ hne
      exact absurd (hdeny rfl) hne
  | some code =>
    rw [Option.getD_some]
    have hcut : code.all Char.isAlpha = true → (Located (complete chunks) code ↔
        LineEnded (received chunks) ∨ EndsBlank (unread chunks)) := by
      intro hall
      rw [complete, ← nil_append chunks.flatten, ← receive_flatten]
      exact located_append_iff hread hall
    constructor
    · intro hhonoured
      refine ⟨fun hnone => (by cases hnone), fun code' hcode haccepts => ?_⟩
      cases hcode
      obtain ⟨code', hreceived, -, hcomplete⟩ := hhonoured haccepts
      have hsame := hreceived.parseTrace
      rw [hread] at hsame
      cases hsame
      exact ⟨hreceived.2.2, (hcut hreceived.2.2).mp hcomplete⟩
    · rintro ⟨-, huncut⟩ haccepts
      obtain ⟨hall, hends⟩ := huncut code rfl haccepts
      have hcomplete := (hcut hall).mpr hends
      obtain ⟨v, hv, hcode, -⟩ := parseTrace_eq_some.mp hread
      refine ⟨code, ?_, haccepts, hcomplete⟩
      exact located_iff.mpr ⟨⟨v, hv, hcode⟩, hcomplete.2⟩

/-- `loc=DE` and the end of the line. -/
def locatedAnswer : Bytes := [108, 111, 99, 61, 68, 69, 10]

/-- A list of what is allowed, and an answer that names an allowed exit. -/
theorem policy_honoured_allowed :
    Policy.parse "de".toList = some ⟨["DE".toList], []⟩ ∧
      Honoured ⟨["DE".toList], []⟩ [locatedAnswer] := by
  have hparse : Policy.parse "de".toList = some ⟨["DE".toList], []⟩ := by decide +kernel
  have hread : parseTrace (received [locatedAnswer]) = some "DE".toList := by decide +kernel
  refine ⟨hparse, (policy_honoured_iff hparse [locatedAnswer]).mpr ⟨fun _ => rfl, ?_⟩
    (by decide +kernel)⟩
  intro code hcode _
  rw [hread] at hcode
  cases hcode
  exact ⟨by decide, .inl ⟨"loc=DE".toList, [], by decide +kernel, by decide +kernel⟩⟩

/-- An answer without a location passes where an exit is only denied, and a longer value passes
where it is cut behind an allowed code. -/
theorem policy_passed_over :
    (Policy.parse "!de".toList = some ⟨[], ["DE".toList]⟩ ∧
      settle (some ⟨[], ["DE".toList]⟩) (.ok [[53, 48, 48]]) = .ok () ∧
      ¬ Honoured ⟨[], ["DE".toList]⟩ [[53, 48, 48]]) ∧
    (Policy.parse "us".toList = some ⟨["US".toList], []⟩ ∧
      settle (some ⟨["US".toList], []⟩) (.ok [[108, 111, 99, 61, 85, 83], [65, 10]]) = .ok () ∧
      ¬ Honoured ⟨["US".toList], []⟩ [[108, 111, 99, 61, 85, 83], [65, 10]]) := by
  refine ⟨⟨by decide +kernel, by decide +kernel, ?_⟩, by decide +kernel, by decide +kernel, ?_⟩
  · rintro ⟨code, hreceived, -⟩
    have hread : parseTrace (received [[53, 48, 48]]) = none := by decide +kernel
    rw [hreceived.parseTrace] at hread
    cases hread
  · rintro ⟨code, -, -, hcomplete⟩
    have hread : parseTrace (complete [[108, 111, 99, 61, 85, 83], [65, 10]]) = none := by
      decide +kernel
    rw [hcomplete.parseTrace] at hread
    cases hread

end Aether.ExitLoc
