/-
Which profiles the service gets as they were sent.

A setting carries a profile if its value is written on one line and read back from it.  All settings
of the table together give the profile back, except for the fields that no setting is about.
-/
import Aether.Lib.Pieces
import Aether.Proofs.Profile.Table

namespace Aether.Profile

open List

open KeyedLines

/-! ### Settings that carry -/

/-- The value of the profile is written on one line and read back from it. -/
structure Setting.Carries (s : Setting) (p : ConnectionProfile) : Prop where
  noBreak : NoBreak (s.write (s.get p))
  read : s.read (some (s.write (s.get p))) = s.get p

section Kinds

variable {p : ConnectionProfile} {key : String}

theorem carries_text {get : ConnectionProfile → Text} {set}
    (h : NoBreak (get p)) : (Setting.text key get set).Carries p := ⟨h, rfl⟩

theorem carries_bool {get : ConnectionProfile → Bool} {set} :
    (Setting.bool key get set).Carries p := by
  constructor
  · show NoBreak (boolText (get p))
    cases get p <;> decide
  · show (toBooleanStrictOrNull (boolText (get p))).getD _ = get p
    cases get p <;> rfl

theorem carries_int {P : Platform} {get : ConnectionProfile → Int32} {set} :
    (Setting.int P key get set).Carries p := by
  refine ⟨noBreak_intText (get p).toInt, ?_⟩
  show (toIntOrNull P (AiRedaction.intText (get p).toInt)).getD _ = get p
  rw [toIntOrNull_intText, Option.getD_some]

theorem carries_enum {E : Type} [KotlinEnum E] {get : ConnectionProfile → E} {set} :
    (Setting.enum key get set).Carries p := by
  refine ⟨noBreak_name (get p), ?_⟩
  show (enumOr (KotlinEnum.name (get p))).getD _ = get p
  rw [enumOr_name, Option.getD_some]

theorem carries_backend {P : Platform} : (Setting.backend P).Carries p := by
  refine ⟨noBreak_name p.backend, ?_⟩
  show (fromStoredName P (KotlinEnum.name p.backend)).getD _ = p.backend
  rw [fromStoredName_name, Option.getD_some]

end Kinds

/-! ### Lists of applications -/

/-- An application as the settings screen keeps it. -/
structure IsAppName (a : Text) : Prop where
  trimmed : LanGuard.trim a = a
  ne_nil : a ≠ []
  noComma : ',' ∉ a

instance (a : Text) : Decidable (IsAppName a) :=
  decidable_of_iff (LanGuard.trim a = a ∧ a ≠ [] ∧ ',' ∉ a)
    ⟨fun h => ⟨h.1, h.2.1, h.2.2⟩, fun h => ⟨h.trimmed, h.ne_nil, h.noComma⟩⟩

variable {apps : List Text} {p : ConnectionProfile} {P : Platform}

theorem splitApps_joinApps (h : ∀ a ∈ apps, IsAppName a) : splitApps (joinApps apps) = apps := by
  unfold splitApps joinApps
  by_cases hnil : apps = []
  · subst hnil
    decide
  · have htrim : apps.map LanGuard.trim = apps :=
      (map_congr_left fun a ha => (h a ha).trimmed).trans (map_id apps)
    rw [splitOn_intercalate ',' (fun a ha => (h a ha).noComma) hnil, htrim]
    exact filter_eq_self.mpr fun a ha => by simpa using (h a ha).ne_nil

theorem noBreak_append {a b : Text} (ha : NoBreak a) (hb : NoBreak b) : NoBreak (a ++ b) :=
  forall_mem_append.mpr ⟨ha, hb⟩

theorem noBreak_joinApps (h : ∀ a ∈ apps, NoBreak a) : NoBreak (joinApps apps) := by
  induction apps with
  | nil => decide
  | cons a apps ih =>
    have ha := h a mem_cons_self
    have ih := ih fun b hb => h b (mem_cons_of_mem a hb)
    unfold joinApps at ih ⊢
    by_cases hnil : apps = []
    · subst hnil
      rwa [intercalate_singleton]
    · rw [intercalate_cons_of_ne_nil hnil]
      exact noBreak_append (noBreak_append ha (by decide)) ih

theorem noBreak_of_mem_splitApps {t a : Text} (ht : NoBreak t) (h : a ∈ splitApps t) :
    NoBreak a := by
  obtain ⟨piece, hpiece, rfl⟩ := mem_map.mp (mem_filter.mp h).1
  intro c hc
  have hc : c ∈ piece := (Pieces.trimBy_sublist Text.isJvmWhitespace piece).subset hc
  exact ht c (Pieces.mem_of_mem_splitOnP hpiece hc).1

theorem carries_apps {key : String} {get : ConnectionProfile → List Text} {set}
    (hnames : ∀ a ∈ get p, IsAppName a) (hbreaks : ∀ a ∈ get p, NoBreak a) :
    (Setting.apps key get set).Carries p :=
  ⟨noBreak_joinApps hbreaks, splitApps_joinApps hnames⟩

/-! ### Profiles that arrive -/

/-- The profile with the fields that no setting is about at their defaults. -/
def transported (p : ConnectionProfile) : ConnectionProfile :=
  { p with
    torBridges := .auto
    torBridgeLines := []
    torCountry := []
    torDirectSecs := 0
    torCheck := []
    accessClientSecret := []
    accessToken := []
    chainedStage := false }

theorem foldl_set_get (P : Platform) (p : ConnectionProfile) :
    (table P).foldl (fun q s => s.set (s.get p) q) {} = transported p := by
  cases p
  rfl

/-- If all settings carry the profile, it arrives but for the fields without a setting. -/
theorem decode_encode_of_carries (h : ∀ s ∈ table P, s.Carries p) :
    decode P (some (encode p)) = transported p := by
  have hlines : ∀ a ∈ settings p, NoBreak a.2 := by
    intro a ha
    rw [settings_eq P] at ha
    obtain ⟨s, hs, rfl⟩ := mem_map.mp ha
    exact (h s hs).noBreak
  have hassign : assignments (encode p) = settings p := by
    rw [assignments_encode, flatMap_of_noBreak hlines]
  rw [decode_encode, profileOf_eq, ← foldl_set_get P p, hassign]
  refine foldl_set_congr (fun s hs => ?_) {}
  have hmem : (s.key.toList, s.write (s.get p)) ∈ settings p := by
    rw [settings_eq P]
    exact mem_map.mpr ⟨s, hs, rfl⟩
  have hnodup : ((settings p).map (·.1)).Nodup := map_fst_settings p ▸ nodup_keys
  rw [lookup_of_nodup hnodup hmem, (h s hs).read]

/-- A profile as the application sends it: not a stage of a chain, no secret, and texts and names
of applications as the settings screen keeps them. -/
structure Sendable (p : ConnectionProfile) : Prop where
  chainedStage : p.chainedStage = false
  accessClientSecret : Text.isBlank p.accessClientSecret = true
  accessToken : Text.isBlank p.accessToken = true
  texts : ∀ f : TextField, NoBreak (f.get p)
  apps : ∀ a ∈ p.splitApps ++ p.blockedApps, IsAppName a

/-- The fields without a setting are at their defaults, and every application is named on one
line. -/
structure Arrives (p : ConnectionProfile) : Prop where
  torBridges : p.torBridges = .auto
  torBridgeLines : p.torBridgeLines = []
  torCountry : p.torCountry = []
  torDirectSecs : p.torDirectSecs = 0
  torCheck : p.torCheck = []
  accessClientSecret : p.accessClientSecret = []
  accessToken : p.accessToken = []
  apps : ∀ a ∈ p.splitApps ++ p.blockedApps, NoBreak a

theorem carries_of_arrives (hp : Sendable p) (h : Arrives p) : ∀ s ∈ table P, s.Carries p := by
  obtain ⟨hsplitNames, hblockedNames⟩ := forall_mem_append.mp hp.apps
  obtain ⟨hsplitBreaks, hblockedBreaks⟩ := forall_mem_append.mp h.apps
  simp only [table, forall_mem_cons, not_mem_nil, false_imp_iff, implies_true, and_true]
  exact ⟨carries_backend, carries_text (hp.texts .exitRegion), carries_enum, carries_enum,
    carries_enum, carries_bool, carries_bool, carries_bool, carries_enum, carries_enum,
    carries_text (hp.texts .manualPeer), carries_text (hp.texts .manualRange), carries_int,
    carries_bool, carries_bool, carries_int, carries_bool, carries_enum,
    carries_apps hsplitNames hsplitBreaks, carries_bool, carries_bool, carries_bool, carries_bool,
    carries_int, carries_text (hp.texts .fragmentSize), carries_text (hp.texts .fragmentDelay),
    carries_bool, carries_text (hp.texts .tlsGroups), carries_int, carries_int, carries_bool,
    carries_enum, carries_apps hblockedNames hblockedBreaks, carries_text (hp.texts .dnsServers),
    carries_text (hp.texts .routeBlock), carries_text (hp.texts .routeDirect), carries_bool,
    carries_int, carries_text (hp.texts .upstreamProxy), carries_bool, carries_bool, carries_enum,
    carries_text (hp.texts .team), carries_text (hp.texts .accessClientId),
    carries_text (hp.texts .accessEmail), carries_bool⟩

theorem transported_of_arrives (hp : Sendable p) (h : Arrives p) : transported p = p := by
  obtain ⟨hchained, -, -, -, -⟩ := hp
  obtain ⟨hbridges, hlines, hcountry, hsecs, hcheck, hsecret, htoken, -⟩ := h
  cases p
  subst hchained hbridges hlines hcountry hsecs hcheck hsecret htoken
  rfl

theorem arrives_profileOf {map : String → Option Text}
    (hlines : ∀ key v, map key = some v → NoBreak v) : Arrives (profileOf P map) := by
  have happs : ∀ key, ∀ a ∈ ((map key).map splitApps).getD [], NoBreak a := by
    intro key a ha
    cases hkey : map key with
    | none =>
      rw [hkey] at ha
      exact absurd ha not_mem_nil
    | some v =>
      rw [hkey] at ha
      exact noBreak_of_mem_splitApps (hlines key v hkey) ha
  exact ⟨rfl, rfl, rfl, rfl, rfl, rfl, rfl,
    forall_mem_append.mpr ⟨happs "splitApps", happs "blockedApps"⟩⟩

/-- **A profile arrives as it was sent only with the defaults in the fields that no setting is
about.** -/
theorem decode_encode_eq_iff (P : Platform) {p : ConnectionProfile} (hp : Sendable p) :
    decode P (some (encode p)) = p ↔ Arrives p := by
  constructor
  · intro h
    rw [← h, decode_encode]
    exact arrives_profileOf fun _ _ hv => noBreak_of_mem_assignments (mem_of_lookup hv)
  · intro h
    rw [decode_encode_of_carries (carries_of_arrives hp h), transported_of_arrives hp h]

/-- Two applications, a resolver and a rule. -/
def arriving : ConnectionProfile :=
  { splitMode := .exclude
    splitApps := ["org.example.mail".toList, "org.example.chat".toList]
    dnsServers := "1.1.1.1, 8.8.8.8".toList
    routeBlock := "ads.example".toList }

theorem decode_encode_arriving :
    Sendable arriving ∧ decode .ascii (some (encode arriving)) = arriving := by
  have hsend : Sendable arriving :=
    ⟨rfl, rfl, rfl, fun f => by cases f <;> decide, by decide⟩
  exact ⟨hsend, (decode_encode_eq_iff .ascii hsend).mpr
    ⟨rfl, rfl, rfl, rfl, rfl, rfl, rfl, by decide⟩⟩

/-- The choice never to use bridges is lost. -/
theorem torBridges_lost :
    Sendable { torBridges := .off } ∧
      (decode .ascii (some (encode { torBridges := .off }))).torBridges = .auto ∧
      decode .ascii (some (encode { torBridges := .off })) ≠ { torBridges := .off } := by
  refine ⟨⟨rfl, rfl, rfl, fun f => by cases f <;> decide, by decide⟩, rfl, fun h => ?_⟩
  have hbridges : TorBridges.auto = TorBridges.off := congrArg (·.torBridges) h
  exact absurd hbridges (by decide)

end Aether.Profile
