/-
What becomes of the bridges of a profile.

The choice and the lines meet in one variable, where a choice in front of lines is a line like the
others.  So the choice arrives alone, and the lines do without one, as long as no line ends in a
character that is white space to the engine only (`bridges_arrive_iff`).
-/
import Aether.Proofs.Engine.Tor
import Aether.Proofs.Profile.Entries
import Aether.Proofs.Profile.Launch

namespace Aether.Profile

open List

open Engine

variable {P : Platform} {p : ConnectionProfile}

/-! ### Bridge lines -/

/-- A bridge line begins with the name of a transport. -/
theorem exists_transport {l : Text} (h : Regex.accepts (bridgeLine P.flavour) l = true) :
    ∃ name ∈ bridgeTransports, ∃ rest, l = name ++ rest := by
  have hmem := (Regex.accepts_iff rfl).mp h
  obtain ⟨name, hname, rest, -, rfl⟩ := Regex.mem_language_all_cons.mp hmem
  obtain ⟨pattern, hpattern, hname⟩ := Regex.mem_language_any.mp hname
  obtain ⟨transport, htransport, rfl⟩ := mem_map.mp hpattern
  exact ⟨transport, htransport, rest, by rw [Regex.mem_language_literal.mp hname]⟩

theorem isLine_of_mem {l : Text} (h : l ∈ p.sanitizedBridges P) : IsLine l := by
  have hentry := isEntry_of_mem h
  obtain ⟨name, hname, rest, rfl⟩ := exists_transport hentry.checked
  have hvisible : bridgeTransports.all (fun name =>
      name ≠ [] && !name.head?.any Text.isWhitespace) = true := by decide
  have hname := all_eq_true.mp hvisible name hname
  simp only [ne_eq, decide_not, Bool.and_eq_true, Bool.not_eq_true',
    decide_eq_false_iff_not] at hname
  refine ⟨?_, ?_, ?_⟩
  · simp [hname.1]
  · rw [List.head?_append_of_ne_nil _ hname.1]
    exact hname.2
  · intro c hc
    have hc := hentry.whole c hc
    simpa using hc

/-! ### The variable -/

/-- What the choice puts in front of the lines. -/
def choiceLines : TorBridges → List Text
  | .auto => []
  | .always => ["auto".toList]
  | .off => ["off".toList]

/-- The variable behind the choice. -/
def choiceValue : TorBridges → Option Text → Option Text
  | .auto, old => old
  | .always, _ => some "auto".toList
  | .off, _ => some "off".toList

/-- Tor faces the network. -/
def FacesNetwork (p : ConnectionProfile) : Prop :=
  p.backend.torMode = some .only ∨ p.backend.torMode = some .reverse

instance (p : ConnectionProfile) : Decidable (FacesNetwork p) := inferInstanceAs (Decidable (_ ∨ _))

theorem gives_bridgeArgs (h : FacesNetwork p) :
    Gives "AETHER_TOR_BRIDGES"
      (fun old => (p.sanitizedBridges P).foldl
        (fun old line => some (Environment.appended old line)) (choiceValue p.torBridges old))
      (p.bridgeArgs P) := by
  have hmode : (p.backend.usesTor && p.backend.torMode ≠ some .chain) = true := by
    unfold Vpn.TransportBackend.usesTor
    obtain h | h := h
    · rw [h]
      rfl
    · rw [h]
      rfl
  have hlines := Gives.flatMap (Gives.appendNext (show operationOf "--tor-bridge" = _ from rfl))
    (p.sanitizedBridges P)
  unfold ConnectionProfile.bridgeArgs
  rw [if_pos hmode]
  refine Gives.append ?_ hlines
  cases p.torBridges with
  | auto => exact fun env => ⟨env, rfl, rfl⟩
  | always => exact Gives.set rfl
  | off => exact Gives.set rfl

theorem value_none {choice : TorBridges} {lines : List Text} (hlines : ∀ l ∈ lines, IsLine l) :
    lines.foldl (fun old line => some (Environment.appended old line)) (choiceValue choice none) =
      if choiceLines choice ++ lines = [] then none
      else some ([';'].intercalate (choiceLines choice ++ lines)) := by
  cases choice with
  | auto => exact foldl_appended_none hlines
  | always =>
    exact (foldl_appended_some (c := 'a') (by decide) (by decide) lines).trans
      (if_neg (by simp [choiceLines])).symm
  | off =>
    exact (foldl_appended_some (c := 'o') (by decide) (by decide) lines).trans
      (if_neg (by simp [choiceLines])).symm

/-- What the engine takes for its bridges. -/
def takenBridges (choice : TorBridges) (lines : List Text) : Bridges :=
  match choice, lines with
  | .auto, [] => .auto false
  | .always, [] => .auto true
  | .off, [] => .disabled
  | choice, lines => .manual (choiceLines choice ++ lines.map Text.trim)

theorem lower_notMem {lower : Text → Text} (hlower : Text.LowersAscii lower) {choice : TorBridges}
    {l : Text} {lines : List Text} (hl : ∃ name ∈ bridgeTransports, ∃ rest, l = name ++ rest) :
    lower (Text.trim ([';'].intercalate (choiceLines choice ++ l :: lines))) ∉ choiceWords := by
  -- the text begins with one of these, which no word of a choice does
  have hfront : ∃ a ∈ "auto;".toList :: "off;".toList :: bridgeTransports, ∃ b,
      [';'].intercalate (choiceLines choice ++ l :: lines) = a ++ b := by
    cases choice with
    | auto =>
      obtain ⟨name, hname, rest, rfl⟩ := hl
      refine ⟨name, by simp [hname], ?_⟩
      cases lines with
      | nil => exact ⟨rest, by simp [choiceLines, List.intercalate]⟩
      | cons next lines =>
        exact ⟨rest ++ ';' :: [';'].intercalate (next :: lines),
          by simp [choiceLines, List.intercalate]⟩
    | always =>
      exact ⟨"auto;".toList, by simp, [';'].intercalate (l :: lines),
        by simp [choiceLines, List.intercalate]⟩
    | off =>
      exact ⟨"off;".toList, by simp, [';'].intercalate (l :: lines),
        by simp [choiceLines, List.intercalate]⟩
  obtain ⟨a, ha, b, hb⟩ := hfront
  have hfacts : ("auto;".toList :: "off;".toList :: bridgeTransports).all (fun a =>
      a ≠ [] && !a.head?.any Text.isWhitespace && !a.getLast?.any Text.isWhitespace &&
        a.all (·.toNat < 128) && choiceWords.all (!(a.map Char.toLower).isPrefixOf ·)) = true := by
    decide +kernel
  have ha := all_eq_true.mp hfacts a ha
  simp only [Bool.and_eq_true, decide_eq_true_eq, Bool.not_eq_true'] at ha
  obtain ⟨⟨⟨⟨hne, hhead⟩, hlast⟩, hascii⟩, hwords⟩ := ha
  obtain ⟨s, hs⟩ := Pieces.exists_trimBy_append hne hhead hlast b
  rw [hb, show Text.trim (a ++ b) = a ++ s from hs]
  exact notMem_choiceWords hlower (fun c hc => by simpa using all_eq_true.mp hascii c hc) hwords s

theorem isLine_choice {choice : TorBridges} {l : Text} (h : l ∈ choiceLines choice) : IsLine l := by
  have hlines : ∀ choice : TorBridges, (choiceLines choice).all (fun l =>
      l ≠ [] && !l.head?.any Text.isWhitespace &&
        l.all fun c => !(c == '\n' || c == ';')) = true := by
    intro choice
    cases choice <;> decide
  have hl := all_eq_true.mp (hlines choice) l h
  simp only [Bool.and_eq_true, decide_eq_true_eq, Bool.not_eq_true', all_eq_true] at hl
  exact ⟨hl.1.1, hl.1.2, hl.2⟩

theorem trim_choice (choice : TorBridges) :
    (choiceLines choice).map Text.trim = choiceLines choice := by
  cases choice <;> decide

/-- The engine on a variable that holds the choice and the lines. -/
theorem bridges_taken {read : Text → Option Text} {lower : Text → Text} {env : Environment}
    {choice : TorBridges} {lines : List Text} (hlower : Text.LowersAscii lower)
    (hlines : ∀ l ∈ lines, IsLine l ∧ ∃ name ∈ bridgeTransports, ∃ rest, l = name ++ rest)
    (hfile : env "AETHER_TOR_BRIDGE_FILE" = none)
    (henv : env "AETHER_TOR_BRIDGES" = if choiceLines choice ++ lines = [] then none
      else some ([';'].intercalate (choiceLines choice ++ lines))) :
    bridges read lower env = takenBridges choice lines := by
  cases lines with
  | nil =>
    cases choice with
    | auto => exact bridges_none hlower hfile henv
    | always => exact bridges_auto hlower hfile henv
    | off => exact bridges_off hlower hfile henv
  | cons l lines =>
    rw [if_neg (by simp)] at henv
    have htaken : takenBridges choice (l :: lines) =
        .manual ((choiceLines choice ++ l :: lines).map Text.trim) := by
      rw [map_append, trim_choice]
      cases choice <;> rfl
    rw [htaken]
    refine bridges_lines (by simp) ?_ hfile henv
      (lower_notMem hlower (hlines l mem_cons_self).2)
    intro l' hl'
    obtain hl' | hl' := mem_append.mp hl'
    · exact isLine_choice hl'
    · exact (hlines l' hl').1

/-- A launched engine takes this for its bridges. -/
theorem launch_bridges {D : Device} {read : Text → Option Text} {lower : Text → Text}
    (hlower : Text.LowersAscii lower) (hbridges : D.inherited "AETHER_TOR_BRIDGES" = none)
    (hfile : D.inherited "AETHER_TOR_BRIDGE_FILE" = none) (hmode : FacesNetwork p) :
    ∃ env, D.launch p = .ok (.run, env) ∧
      bridges read lower env = takenBridges p.torBridges (p.sanitizedBridges D.platform) := by
  obtain ⟨env, hlaunch, hvalue⟩ := Device.launch_ok (D := D) (ConnectionProfile.gives_toArgs
    (by decide) (by decide) (by decide) (gives_bridgeArgs hmode)
    (ConnectionProfile.spares_listArg rfl (by decide) _))
  obtain ⟨env', hlaunch', hvalue'⟩ := Device.launch_ok (D := D) (ConnectionProfile.gives_toArgs
    (by decide) (by decide) (by decide)
    (ConnectionProfile.spares_bridgeArgs D.platform p
      (show "AETHER_TOR_BRIDGE_FILE" ∉ _ by decide))
    (ConnectionProfile.spares_listArg rfl (by decide) _))
  obtain rfl : env' = env := by
    rw [hlaunch] at hlaunch'
    cases hlaunch'
    rfl
  refine ⟨env', hlaunch, bridges_taken hlower ?_ ?_ ?_⟩
  · intro l hl
    exact ⟨isLine_of_mem hl, exists_transport (isEntry_of_mem hl).checked⟩
  · rw [hvalue', Device.environment_other (by decide) (by decide) (by decide)]
    exact hfile
  · rw [hvalue, Device.environment_other (by decide) (by decide) (by decide), hbridges]
    exact value_none fun l hl => isLine_of_mem hl

/-! ### What was chosen -/

/-- What the user chose. -/
def chosenBridges (choice : TorBridges) (lines : List Text) : Bridges :=
  match choice with
  | .off => .disabled
  | .always => if lines = [] then .auto true else .manual lines
  | .auto => if lines = [] then .auto false else .manual lines

theorem taken_eq_chosen_iff {choice : TorBridges} {lines : List Text}
    (htrim : lines.map Text.trim = lines ↔ ∀ l ∈ lines, l.getLast? ≠ some nel) :
    takenBridges choice lines = chosenBridges choice lines ↔
      lines = [] ∨ (choice = .auto ∧ ∀ l ∈ lines, l.getLast? ≠ some nel) := by
  cases lines with
  | nil => cases choice <;> simp [takenBridges, chosenBridges]
  | cons l lines =>
    have hlen : ∀ word : Text, word :: (l :: lines).map Text.trim ≠ l :: lines := by
      intro word h
      simpa using congrArg List.length h
    rw [← htrim]
    cases choice with
    | auto => simp [takenBridges, chosenBridges, choiceLines]
    | always =>
      have := hlen "auto".toList
      simpa [takenBridges, chosenBridges, choiceLines] using this
    | off => simp [takenBridges, chosenBridges, choiceLines]

/-- **The bridges arrive as they were chosen only where a choice and lines do not meet**, and where
no line ends in a character that the engine takes for white space. -/
theorem bridges_arrive_iff {D : Device} {read : Text → Option Text} {lower : Text → Text}
    (hlower : Text.LowersAscii lower) (hbridges : D.inherited "AETHER_TOR_BRIDGES" = none)
    (hfile : D.inherited "AETHER_TOR_BRIDGE_FILE" = none) (hmode : FacesNetwork p) :
    (∃ env, D.launch p = .ok (.run, env) ∧
        bridges read lower env = chosenBridges p.torBridges (p.sanitizedBridges D.platform)) ↔
      p.sanitizedBridges D.platform = [] ∨
        (p.torBridges = .auto ∧ ∀ l ∈ p.sanitizedBridges D.platform, l.getLast? ≠ some nel) := by
  obtain ⟨env, hlaunch, htaken⟩ := @launch_bridges p D read lower hlower hbridges hfile hmode
  rw [← taken_eq_chosen_iff]
  · constructor
    · rintro ⟨env', hlaunch', hchosen⟩
      rw [hlaunch] at hlaunch'
      cases hlaunch'
      exact htaken.symm.trans hchosen
    · exact fun h => ⟨env, hlaunch, htaken.trans h⟩
  · have hmap := map_inj_left (f := Text.trim) (g := id) (l := p.sanitizedBridges D.platform)
    rw [map_id] at hmap
    rw [hmap]
    refine forall₂_congr fun l hl => ?_
    exact trim_eq_iff (isLine_of_mem hl).head (isEntry_of_mem hl).trimmed

/-- A session over Tor alone, with a bridge. -/
def bridged (choice : TorBridges) : ConnectionProfile where
  backend := .tor
  torBridges := choice
  torBridgeLines := "obfs4 192.0.2.55:38114 iat-mode=0".toList

theorem bridges_arrive_alone :
    ∃ env, bareDevice.launch (bridged .auto) = .ok (.run, env) ∧
      bridges (fun _ => none) (·.map Char.toLower) env =
        chosenBridges .auto ((bridged .auto).sanitizedBridges .ascii) :=
  (bridges_arrive_iff Text.lowersAscii_map rfl rfl (by decide)).mpr
    (.inr ⟨rfl, by decide +kernel⟩)

/-- Bridges that were switched off are used, and the word for it is one of them. -/
theorem off_becomes_bridge :
    (bareDevice.launch (bridged .off)).toOption.map
      (fun r => (r.1, bridges (fun _ => none) (·.map Char.toLower) r.2)) =
    some (.run, .manual ["off".toList, "obfs4 192.0.2.55:38114 iat-mode=0".toList]) ∧
    (bareDevice.launch (bridged .always)).toOption.map
      (fun r => (r.1, bridges (fun _ => none) (·.map Char.toLower) r.2)) =
    some (.run, .manual ["auto".toList, "obfs4 192.0.2.55:38114 iat-mode=0".toList]) := by
  decide +kernel

end Aether.Profile
