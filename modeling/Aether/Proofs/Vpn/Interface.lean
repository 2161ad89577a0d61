/-
Which applications an interface captures.

`applyAppFilter` adds to one of the two lists of the builder, and what it adds is what is installed
of a list of packages.
-/
import Aether.Vpn.Interface

namespace Aether.Vpn

open List

variable {d : Device}

/-! ### The lists of the builder -/

/-- The packages of a list that are installed are added, one after the other. -/
theorem foldl_safeAllow (pkgs : List Text) (b : Builder) :
    pkgs.foldl (safeAllow d) b =
      { b with allowedApplications := b.allowedApplications ++ pkgs.filter d.installed } := by
  induction pkgs generalizing b with
  | nil => simp
  | cons pkg pkgs ih =>
    rw [foldl_cons, ih]
    by_cases hpkg : d.installed pkg = true
    · simp [safeAllow, Builder.addAllowedApplication, hpkg]
    · simp [safeAllow, Builder.addAllowedApplication, hpkg]

theorem foldl_safeDisallow (pkgs : List Text) (b : Builder) :
    pkgs.foldl (safeDisallow d) b =
      { b with
        disallowedApplications := b.disallowedApplications ++ pkgs.filter d.installed } := by
  induction pkgs generalizing b with
  | nil => simp
  | cons pkg pkgs ih =>
    rw [foldl_cons, ih]
    by_cases hpkg : d.installed pkg = true
    · simp [safeDisallow, Builder.addDisallowedApplication, hpkg]
    · simp [safeDisallow, Builder.addDisallowedApplication, hpkg]

theorem safeDisallow_eq (b : Builder) (pkg : Text) :
    safeDisallow d b pkg =
      { b with disallowedApplications := b.disallowedApplications ++ [pkg].filter d.installed } :=
  foldl_safeDisallow [pkg] b

/-! ### What is captured -/

/-- The packages that are allowed, and those that are not. -/
def allowed (d : Device) (profile : Profile.ConnectionProfile) : List Text :=
  match profile.splitMode with
  | .includeOnly => (chosenApps d profile).filter d.installed
  | _ => []

def disallowed (d : Device) (profile : Profile.ConnectionProfile) : List Text :=
  match profile.splitMode with
  | .includeOnly =>
    if chosenApps d profile = [] then [d.packageName].filter d.installed else []
  | .exclude =>
    (d.packageName ::
      (chosenApps d profile).filter fun a => !profile.blockedApps.contains a).filter d.installed
  | .off => [d.packageName].filter d.installed

theorem buildTun_lists (profile : Profile.ConnectionProfile) (withoutIpv6Address : Bool) :
    (buildTun d profile withoutIpv6Address).allowedApplications = allowed d profile ∧
      (buildTun d profile withoutIpv6Address).disallowedApplications = disallowed d profile := by
  have hfilter : ∀ b : Builder, b.allowedApplications = [] → b.disallowedApplications = [] →
      (applyAppFilter d b profile).allowedApplications = allowed d profile ∧
        (applyAppFilter d b profile).disallowedApplications = disallowed d profile := by
    intro b hallowed hdisallowed
    unfold applyAppFilter allowed disallowed
    cases profile.splitMode with
    | off => simp [safeDisallow_eq, hallowed, hdisallowed]
    | includeOnly =>
      by_cases happs : chosenApps d profile = []
      · simp [happs, safeDisallow_eq, hallowed, hdisallowed]
      · simp [happs, foldl_safeAllow, hallowed, hdisallowed]
    | exclude =>
      dsimp only
      rw [foldl_safeDisallow, safeDisallow_eq]
      refine ⟨hallowed, ?_⟩
      simp only [hdisallowed, nil_append, ← filter_append, singleton_append]
  unfold buildTun
  cases d.atLeastQ with
  | false | true => exact hfilter _ rfl rfl

theorem captures_buildTun (profile : Profile.ConnectionProfile) (withoutIpv6Address : Bool)
    (a : Text) :
    (buildTun d profile withoutIpv6Address).captures a = true ↔
      if allowed d profile = [] then a ∉ disallowed d profile else a ∈ allowed d profile := by
  obtain ⟨hallowed, hdisallowed⟩ := buildTun_lists (d := d) profile withoutIpv6Address
  unfold Builder.captures
  rw [hallowed, hdisallowed]
  by_cases hnil : allowed d profile = []
  · simp [hnil]
  · simp [hnil]

/-- An application of the block list other than the service's own package, on the device. -/
structure IsBlocked (d : Device) (profile : Profile.ConnectionProfile) (a : Text) : Prop where
  mem : a ∈ profile.blockedApps
  installed : d.installed a = true
  ne_own : a ≠ d.packageName

/-- An application that is blocked is never disallowed. -/
theorem notMem_disallowed {profile : Profile.ConnectionProfile} {a : Text}
    (ha : IsBlocked d profile a) : a ∉ disallowed d profile := by
  have hown : a ∉ [d.packageName].filter d.installed := fun h =>
    ha.ne_own (mem_singleton.mp (mem_filter.mp h).1)
  unfold disallowed
  cases profile.splitMode with
  | off => exact hown
  | includeOnly =>
    by_cases happs : chosenApps d profile = []
    · rwa [if_pos happs]
    · rw [if_neg happs]
      exact not_mem_nil
  | exclude =>
    intro h
    obtain h | h := mem_cons.mp (mem_filter.mp h).1
    · exact ha.ne_own h
    · have hnot := (mem_filter.mp h).2
      simp [ha.mem] at hnot

/-- **Blocked applications are captured, unless the split names other applications only.** -/
theorem captures_blocked_iff (d : Device) (profile : Profile.ConnectionProfile)
    (withoutIpv6Address : Bool) :
    (∀ a, IsBlocked d profile a → (buildTun d profile withoutIpv6Address).captures a = true) ↔
      profile.splitMode ≠ .includeOnly ∨
        (∀ c ∈ chosenApps d profile, d.installed c = false) ∨
        ∀ a, IsBlocked d profile a → a ∈ chosenApps d profile := by
  simp only [captures_buildTun]
  by_cases hnil : allowed d profile = []
  · -- nothing is allowed by name, so everything is captured that is not disallowed
    simp only [if_pos hnil]
    refine iff_of_true (fun a ha => notMem_disallowed ha) ?_
    by_cases hmode : profile.splitMode = .includeOnly
    · refine .inr (.inl fun c hc => ?_)
      rw [allowed, hmode] at hnil
      simpa using filter_eq_nil_iff.mp hnil c hc
    · exact .inl hmode
  · simp only [if_neg hnil]
    have hmode : profile.splitMode = .includeOnly := by
      unfold allowed at hnil
      cases hmode : profile.splitMode with
      | includeOnly => rfl
      | off | exclude =>
        rw [hmode] at hnil
        exact absurd rfl hnil
    have hmem : ∀ a, IsBlocked d profile a →
        (a ∈ allowed d profile ↔ a ∈ chosenApps d profile) := by
      intro a ha
      rw [allowed, hmode]
      exact ⟨fun h => (mem_filter.mp h).1, fun h => mem_filter.mpr ⟨h, ha.installed⟩⟩
    constructor
    · exact fun h => .inr (.inr fun a ha => (hmem a ha).mp (h a ha))
    · rintro (h | h | h) a ha
      · exact absurd hmode h
      · -- some application is allowed, so it was chosen and is installed
        obtain ⟨c, hc⟩ := exists_mem_of_ne_nil _ hnil
        rw [allowed, hmode] at hc
        obtain ⟨hc, hinstalled⟩ := mem_filter.mp hc
        rw [h c hc] at hinstalled
        exact absurd hinstalled Bool.false_ne_true
      · exact (hmem a ha).mpr (h a ha)

/-- A device with a browser and a game. -/
def phone : Device where
  installed := ["org.example.browser".toList, "org.example.game".toList,
    "studio.cluvex.aether".toList].contains
  packageName := "studio.cluvex.aether".toList
  atLeastQ := true

/-- The game is blocked, the split is for the browser, and the game goes around the interface. -/
theorem blocked_app_escapes :
    IsBlocked phone
        { splitMode := .includeOnly
          splitApps := ["org.example.browser".toList]
          blockedApps := ["org.example.game".toList] } "org.example.game".toList ∧
      (buildTun phone
        { splitMode := .includeOnly
          splitApps := ["org.example.browser".toList]
          blockedApps := ["org.example.game".toList] } false).captures
          "org.example.game".toList = false :=
  ⟨⟨by decide, by decide, by decide⟩, by decide +kernel⟩

/-! ### The service's own package -/

/-- **The service's own package is kept off the interface, unless the split is for chosen
applications and none of them is installed any more.** -/
theorem own_uncaptured_iff (d : Device) (profile : Profile.ConnectionProfile)
    (withoutIpv6Address : Bool) (hown : d.installed d.packageName = true) :
    (buildTun d profile withoutIpv6Address).captures d.packageName = false ↔
      profile.splitMode = .includeOnly → chosenApps d profile ≠ [] →
        ∃ a ∈ chosenApps d profile, d.installed a = true := by
  have hchosen : d.packageName ∉ chosenApps d profile := by simp [chosenApps]
  rw [← Bool.not_eq_true, captures_buildTun]
  unfold allowed disallowed
  cases profile.splitMode with
  | off | exclude => simp [hown]
  | includeOnly =>
    by_cases happs : chosenApps d profile = []
    · simp [happs, hown]
    · by_cases hgone : (chosenApps d profile).filter d.installed = []
      · -- the allow list is empty, and nothing was disallowed
        have hnone : ¬ ∃ a ∈ chosenApps d profile, d.installed a = true := by
          rintro ⟨a, ha, hinstalled⟩
          exact filter_eq_nil_iff.mp hgone a ha hinstalled
        simp [hgone, happs, hnone]
      · obtain ⟨a, ha⟩ := exists_mem_of_ne_nil _ hgone
        have hsome : ∃ a ∈ chosenApps d profile, d.installed a = true := ⟨a, mem_filter.mp ha⟩
        simp [hgone, hchosen, hsome]

/-- The split is for the browser, which is installed. -/
theorem own_uncaptured_browser :
    (buildTun phone
      { splitMode := .includeOnly, splitApps := ["org.example.browser".toList] } false).captures
        phone.packageName = false :=
  (own_uncaptured_iff phone _ false (by decide)).mpr fun _ _ => ⟨_, mem_singleton_self _, by decide⟩

/-- The split is for an application that was removed, and the engine's traffic goes to its own
interface. -/
theorem own_captured :
    phone.installed phone.packageName = true ∧
      (buildTun phone
        { splitMode := .includeOnly, splitApps := ["org.example.gone".toList] } false).captures
          phone.packageName = true :=
  ⟨by decide, by decide +kernel⟩

end Aether.Vpn
