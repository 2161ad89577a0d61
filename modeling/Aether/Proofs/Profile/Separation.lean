/-
What one text of a profile can do to the other settings on the way to the service.

A text is written on the line of its own key, and the lines behind its first one are read like any
other: they can assign every key that is written before it, and what was meant as a line of the
text is lost.
-/
import Aether.Profile.Args
import Aether.Proofs.Profile.Table

namespace Aether.Profile

open Function

open KeyedLines

/-! ### The line of a text -/

/-- Where `encode` writes a text: the number of its line, and its key. -/
def TextField.line? : TextField → Option (Nat × String)
  | .exitRegion => some (1, "exitRegion")
  | .manualPeer => some (10, "peer")
  | .manualRange => some (11, "range")
  | .dnsServers => some (33, "dns")
  | .team => some (42, "team")
  | .accessClientId => some (43, "accessId")
  | .accessEmail => some (44, "accessEmail")
  | .routeBlock => some (34, "routeBlock")
  | .routeDirect => some (35, "routeDirect")
  | .fragmentSize => some (24, "fSize")
  | .fragmentDelay => some (25, "fDelay")
  | .tlsGroups => some (27, "tlsGroups")
  | .upstreamProxy => some (38, "upstream")
  | .accessClientSecret | .accessToken | .torBridgeLines | .torCountry | .torCheck => none

/-- What settings written line by line assign. -/
def assigned (as : List (Text × Text)) : List (Text × Text) :=
  as.flatMap fun a => (a.1, first a.2) :: further a.2

/-- What is assigned before a line. -/
def before (i : Nat) (p : ConnectionProfile) : List (Text × Text) := assigned ((settings p).take i)

/-- What is assigned behind a line and its further lines. -/
def behind (i : Nat) (p : ConnectionProfile) : List (Text × Text) :=
  assigned ((settings p).drop (i + 1))

section Line

variable {f : TextField} {i : Nat} {key : String}

theorem settings_set (hf : f.line? = some (i, key)) (t : Text) (p : ConnectionProfile) :
    settings (f.set t p) =
      (settings p).take i ++ (key.toList, t) :: (settings p).drop (i + 1) := by
  cases f <;> cases hf <;> rfl

theorem set_get (f : TextField) (p : ConnectionProfile) : f.set (f.get p) p = p := by
  cases f <;> rfl

theorem settings_set_of_none (hf : f.line? = none) (t : Text) (p : ConnectionProfile) :
    settings (f.set t p) = settings p := by
  cases f <;> cases hf <;> rfl

theorem assignments_set (hf : f.line? = some (i, key)) (t : Text) (p : ConnectionProfile) :
    assignments (encode (f.set t p)) =
      before i p ++ (key.toList, first t) :: (further t ++ behind i p) := by
  rw [assignments_encode, settings_set hf, List.flatMap_append, List.flatMap_cons]
  rfl

end Line

/-! ### What is read -/

theorem get_profileOf {P : Platform} (map : String → Option Text) :
    ∀ s ∈ table P, s.get (profileOf P map) = s.read (map s.key) := by
  simp only [table, List.forall_mem_cons, List.not_mem_nil, false_imp_iff, implies_true, and_true]
  and_intros <;> rfl

/-- Profiles are told apart by what their settings read. -/
theorem profileOf_eq_iff {P : Platform} {map map' : String → Option Text} :
    profileOf P map = profileOf P map' ↔
      ∀ s ∈ table P, s.read (map s.key) = s.read (map' s.key) := by
  constructor
  · intro h s hs
    rw [← get_profileOf map s hs, ← get_profileOf map' s hs, h]
  · intro h
    rw [profileOf_eq, profileOf_eq]
    exact foldl_set_congr h {}

section Line

variable {f : TextField} {i : Nat} {key : String}

/-- A text that is overwritten was assigned so. -/
theorem set_profileOf (hf : f.line? = some (i, key)) (P : Platform) (t : Text)
    (map : String → Option Text) :
    f.set t (profileOf P map) = profileOf P (update map key (some t)) := by
  cases f <;> cases hf <;> rfl

/-- What is assigned to another key. -/
theorem lookup_other (hf : f.line? = some (i, key)) {other : String} (hne : other ≠ key)
    (t : Text) (p : ConnectionProfile) :
    lookup other.toList (assignments (encode (f.set t p))) =
      (lookup other.toList (behind i p)).or
        ((lookup other.toList (further t)).or (lookup other.toList (before i p))) := by
  have hkeys : key.toList ≠ other.toList := fun h => hne (String.toList_injective h).symm
  rw [assignments_set hf, lookup_append, lookup_cons_of_ne hkeys, lookup_append, Option.or_assoc]

end Line

/-! ### Texts that keep to themselves -/

/-- Two texts of a field say the same to the settings written before its line, unless a line behind
it assigns them anyway. -/
def SameFurther (P : Platform) (f : TextField) (p : ConnectionProfile) (t t' : Text) : Prop :=
  ∀ i key, f.line? = some (i, key) → ∀ s ∈ (table P).take i,
    lookup s.key.toList (behind i p) = none →
      s.read ((lookup s.key.toList (further t)).or (lookup s.key.toList (before i p))) =
        s.read ((lookup s.key.toList (further t')).or (lookup s.key.toList (before i p)))

section Line

variable {P : Platform} {f : TextField} {i : Nat} {key : String} {s : Setting}

theorem key_ne_of_mem_take (hf : f.line? = some (i, key)) (hs : s ∈ (table P).take i) :
    s.key ≠ key := by
  rintro rfl
  have hnodup : ((settings (f.set [] {})).map (·.1)).Nodup := map_fst_settings _ ▸ nodup_keys
  rw [settings_set hf, List.map_append, List.map_cons, List.nodup_append] at hnodup
  refine hnodup.2.2 s.key.toList ?_ s.key.toList List.mem_cons_self rfl
  rw [settings_eq P, ← List.map_take, List.map_map]
  exact List.mem_map.mpr ⟨s, hs, rfl⟩

/-- Every setting is written before the line, on it, or behind it. -/
theorem mem_table_cases (hf : f.line? = some (i, key)) (hs : s ∈ table P) (p : ConnectionProfile) :
    s ∈ (table P).take i ∨ s.key = key ∨ lookup s.key.toList (behind i p) ≠ none := by
  have hown : ((table P)[i]?).map (·.key) = some key := by cases f <;> cases hf <;> rfl
  obtain ⟨n, hn⟩ := List.mem_iff_getElem?.mp hs
  obtain hlt | rfl | hgt := Nat.lt_trichotomy n i
  · refine .inl (List.mem_iff_getElem?.mpr ⟨n, ?_⟩)
    rw [List.getElem?_take_of_lt hlt, hn]
  · rw [hn] at hown
    exact .inr (.inl (Option.some.inj hown))
  · have hline : (s.key.toList, s.write (s.get p)) ∈ (settings p).drop (i + 1) := by
      rw [settings_eq P, ← List.map_drop]
      refine List.mem_map.mpr ⟨s, List.mem_iff_getElem?.mpr ⟨n - (i + 1), ?_⟩, rfl⟩
      rw [List.getElem?_drop, show i + 1 + (n - (i + 1)) = n by omega, hn]
    refine .inr (.inr (lookup_ne_none (v := first (s.write (s.get p))) ?_))
    exact List.mem_flatMap.mpr ⟨_, hline, List.mem_cons_self⟩

end Line

/-- A text changes nothing but its own setting if and only if its further lines do not. -/
theorem separate_iff (P : Platform) (f : TextField) (p : ConnectionProfile) (t t' : Text) :
    f.set [] (decode P (some (encode (f.set t p)))) =
        f.set [] (decode P (some (encode (f.set t' p)))) ↔ SameFurther P f p t t' := by
  cases hf : f.line? with
  | none =>
    -- the text is not sent
    have hsame : encode (f.set t p) = encode (f.set t' p) := by
      rw [encode, encode, settings_set_of_none hf, settings_set_of_none hf]
    refine iff_of_true (by rw [hsame]) ?_
    intro i key h
    rw [hf] at h
    exact nomatch h
  | some line =>
    obtain ⟨i, key⟩ := line
    rw [decode_encode, decode_encode, set_profileOf hf, set_profileOf hf, profileOf_eq_iff]
    constructor
    · intro h i' key' hf' s hs hbehind
      obtain ⟨rfl, rfl⟩ : i = i' ∧ key = key' := by
        rw [hf] at hf'
        exact Prod.mk.inj (Option.some.inj hf')
      have hne := key_ne_of_mem_take hf hs
      have hread := h s (List.mem_of_mem_take hs)
      rwa [update_of_ne hne, update_of_ne hne, lookup_other hf hne,
        lookup_other hf hne, hbehind, Option.none_or, Option.none_or] at hread
    · intro h s hs
      by_cases hkey : s.key = key
      · rw [hkey, update_self, update_self]
      · rw [update_of_ne hkey, update_of_ne hkey, lookup_other hf hkey,
          lookup_other hf hkey]
        cases hbehind : lookup s.key.toList (behind i p) with
        | some v => rw [Option.some_or, Option.some_or]
        | none =>
          obtain htake | heq | hassigned := mem_table_cases hf hs p
          · rw [Option.none_or, Option.none_or]
            exact h i key hf s htake hbehind
          · exact absurd heq hkey
          · exact absurd hbehind hassigned

/-- The text that arrives for a field: the last line that names its key, on the field's further
lines or behind them, and its own first line if there is none. -/
def inForce (f : TextField) (p : ConnectionProfile) : Text :=
  match f.line? with
  | none => []
  | some (i, key) => (lookup key.toList (further (f.get p) ++ behind i p)).getD (first (f.get p))

theorem get_decode_encode (P : Platform) (f : TextField) (p : ConnectionProfile) :
    f.get (decode P (some (encode p))) = inForce f p := by
  cases hf : f.line? with
  | none =>
    rw [decode_encode, inForce, hf]
    cases f <;> cases hf <;> rfl
  | some line =>
    obtain ⟨i, key⟩ := line
    have hget : ∀ map, f.get (profileOf P map) = (map key).getD [] := by
      cases f <;> cases hf <;> exact fun _ => rfl
    have hset := assignments_set hf (f.get p) p
    rw [set_get] at hset
    rw [decode_encode, hget, inForce, hf, hset, lookup_append, lookup_cons_self, Option.some_or,
      Option.getD_some]

/-- The entries of a text that are kept, one after the other and without a limit. -/
def keptEntries (separators : Text) (check : Text → Bool) (t : Text) : List Text :=
  ((splitAny separators t).map LanGuard.trim).filter fun e => e ≠ [] && check e

/-- How the entries of a list are taken from its text. -/
structure ListFormat where
  separators : Text
  check : Text → Bool
  limit : Nat

/-- Two texts have the same entries, up to the limit. -/
def ListFormat.Same (l : ListFormat) (t t' : Text) : Prop :=
  (keptEntries l.separators l.check t).eraseDups.take l.limit =
    (keptEntries l.separators l.check t').eraseDups.take l.limit

/-- The text of a field says on its first line all that it has to say, or the last line behind it
that names the key says it. -/
structure KeepsEntries (l : ListFormat) (f : TextField) (p : ConnectionProfile) : Prop where
  /-- No line behind the first one names the key. -/
  first : ∀ i key, f.line? = some (i, key) → lookup key.toList (further (f.get p)) = none →
    lookup key.toList (behind i p) = none → l.Same (first (f.get p)) (f.get p)
  /-- A further line of the text does, and none of the settings behind it. -/
  further : ∀ i key v, f.line? = some (i, key) →
    lookup key.toList (further (f.get p)) = some v → lookup key.toList (behind i p) = none →
    l.Same v (f.get p)
  /-- A further line of a setting behind it does. -/
  behind : ∀ i key v, f.line? = some (i, key) → lookup key.toList (behind i p) = some v →
    l.Same v (f.get p)

theorem keepsEntries_iff {l : ListFormat} {f : TextField} {p : ConnectionProfile}
    (hf : f.line? ≠ none) : KeepsEntries l f p ↔ l.Same (inForce f p) (f.get p) := by
  obtain ⟨⟨i, key⟩, hline⟩ := Option.ne_none_iff_exists'.mp hf
  have hforce : inForce f p = ((lookup key.toList (behind i p)).or
      (lookup key.toList (further (f.get p)))).getD (KeyedLines.first (f.get p)) := by
    rw [inForce, hline, ← lookup_append]
  rw [hforce]
  constructor
  · intro h
    cases hbehind : lookup key.toList (behind i p) with
    | some v => exact h.behind i key v hline hbehind
    | none =>
      cases hfurther : lookup key.toList (further (f.get p)) with
      | some v => exact h.further i key v hline hfurther hbehind
      | none => exact h.first i key hline hfurther hbehind
  · intro h
    refine ⟨fun i' key' hline' hfurther hbehind => ?_,
      fun i' key' v hline' hfurther hbehind => ?_, fun i' key' v hline' hbehind => ?_⟩
    · cases hline.symm.trans hline'
      rwa [hbehind, hfurther] at h
    · cases hline.symm.trans hline'
      rwa [hbehind, hfurther] at h
    · cases hline.symm.trans hline'
      rwa [hbehind] at h

def ruleFormat : ListFormat := ⟨[',', '\n'], Regex.accepts ruleEntry, 256⟩

def dnsFormat (P : Platform) : ListFormat :=
  ⟨[',', ' ', ';', '\n'], Regex.accepts (dnsEntry P.flavour), 8⟩

/-- Two profiles give the engine the same lists. -/
structure SameLists (P : Platform) (q p : ConnectionProfile) : Prop where
  routeBlock : sanitizedRules q.routeBlock = sanitizedRules p.routeBlock
  routeDirect : sanitizedRules q.routeDirect = sanitizedRules p.routeDirect
  dnsServers : q.sanitizedDns P = p.sanitizedDns P

/-- **What a text does to other settings, and what is left of a list.** -/
theorem transport_separate (P : Platform) :
    (∀ (f : TextField) (p : ConnectionProfile) (t t' : Text),
      f.set [] (decode P (some (encode (f.set t p)))) =
          f.set [] (decode P (some (encode (f.set t' p)))) ↔ SameFurther P f p t t') ∧
    ∀ p : ConnectionProfile,
      SameLists P (decode P (some (encode p))) p ↔
        KeepsEntries ruleFormat .routeBlock p ∧ KeepsEntries ruleFormat .routeDirect p ∧
        KeepsEntries (dnsFormat P) .dnsServers p := by
  refine ⟨separate_iff P, fun p => ?_⟩
  rw [keepsEntries_iff (by decide), keepsEntries_iff (by decide), keepsEntries_iff (by decide),
    ← get_decode_encode P .routeBlock p, ← get_decode_encode P .routeDirect p,
    ← get_decode_encode P .dnsServers p]
  exact ⟨fun h => ⟨h.routeBlock, h.routeDirect, h.dnsServers⟩, fun h => ⟨h.1, h.2.1, h.2.2⟩⟩

/-- A rule list can turn off the kill switch, and its second line is lost. -/
theorem routeBlock_spills :
    (decode .ascii (some (encode { routeBlock := "a.example".toList }))).killSwitch = true ∧
    (decode .ascii (some (encode { routeBlock := "a.example\nkill=false".toList }))).killSwitch =
      false ∧
    sanitizedRules "a.example\nb.example".toList = ["a.example".toList, "b.example".toList] ∧
    sanitizedRules
        (decode .ascii (some (encode { routeBlock := "a.example\nb.example".toList }))).routeBlock =
      ["a.example".toList] := by
  refine ⟨?_, ?_, ?_, ?_⟩ <;> decide +kernel

end Aether.Profile
