/-
The rotation budget of a session.

`refundIfHealthy` runs only inside `maybeRotate`, and `maybeRotate` only for a server that is
already on the list of filtering ones: `convict` has just put it there, or the new tunnel has
landed on it again.  So the refund never happens, the counter is the number of rotations since
`bind`, and a conviction rotates exactly while that number is below the cap.
-/
import Aether.Psiphon.Health
import Mathlib.Data.List.Chain

namespace Aether.Psiphon

namespace Health

/-- The budget is spent once for every rotation; without a server no tunnel has come up. -/
structure Spent (h : Health) : Prop where
  count : h.rotations = h.rotated.length
  idle : h.activeServer = none → h.tunnelSince = 0

/-- The active server, if there is one, is on the list. -/
def Listed (h : Health) : Prop := ∀ server ∈ h.activeServer, server ∈ h.filtering

variable {h g h' : Health} {now : Int} {again : Bool}

/-! ### The refund -/

/-- No refund on a server of the list. -/
theorem Listed.refundIfHealthy (hl : h.Listed) (hs : h.Spent) : h.refundIfHealthy now = h := by
  cases hactive : h.activeServer with
  | none => simp [Health.refundIfHealthy, hs.idle hactive]
  | some server => simp [Health.refundIfHealthy, hactive, hl server hactive]

/-- So a rotation only depends on the counter and the time of the last one. -/
theorem Listed.maybeRotate (hl : h.Listed) (hs : h.Spent) (hb : h.bound = true) :
    h.maybeRotate now again =
      if h.rotated.length < maxRotations ∧
          (h.lastRotationAt = 0 ∨ cooldown again ≤ now - h.lastRotationAt)
        then h.rotate now again else h := by
  simp only [Health.maybeRotate, hb, Bool.true_eq_false, if_false, hl.refundIfHealthy hs, hs.count]
  by_cases hspent : maxRotations ≤ h.rotated.length
  · rw [if_pos hspent, if_neg (by omega)]
  · rw [if_neg hspent]
    by_cases hcool : h.lastRotationAt ≠ 0 ∧ now - h.lastRotationAt < cooldown again
    · rw [if_pos hcool, if_neg (by omega)]
    · rw [if_neg hcool, if_pos (by omega)]

theorem Spent.maybeRotate (hs : h.Spent) (hl : h.Listed) : (h.maybeRotate now again).Spent := by
  by_cases hb : h.bound = true
  · rw [hl.maybeRotate hs hb]
    by_cases hrotates : h.rotated.length < maxRotations ∧
        (h.lastRotationAt = 0 ∨ cooldown again ≤ now - h.lastRotationAt)
    · rw [if_pos hrotates]
      exact ⟨by simp [Health.rotate, hs.count], hs.idle⟩
    · rwa [if_neg hrotates]
  · rw [Bool.not_eq_true] at hb
    rwa [Health.maybeRotate, if_pos hb]

theorem filtering_maybeRotate (h : Health) :
    (h.maybeRotate now again).filtering = h.filtering := by
  have hrefund : (h.refundIfHealthy now).filtering = h.filtering := by
    unfold Health.refundIfHealthy
    split_ifs <;> rfl
  unfold Health.maybeRotate
  dsimp only
  split_ifs
  · rfl
  all_goals exact hrefund

/-! ### The events -/

/-- What only moves the window and the server. -/
structure Same (h g : Health) : Prop where
  bound : g.bound = h.bound
  rotations : g.rotations = h.rotations
  rotated : g.rotated = h.rotated
  lastRotationAt : g.lastRotationAt = h.lastRotationAt
  idle : (h.activeServer = none → h.tunnelSince = 0) → g.activeServer = none → g.tunnelSince = 0

theorem Same.trans (h₁ : Same h g) (h₂ : Same g h') : Same h h' :=
  ⟨h₂.bound.trans h₁.bound, h₂.rotations.trans h₁.rotations, h₂.rotated.trans h₁.rotated,
    h₂.lastRotationAt.trans h₁.lastRotationAt, fun hi => h₂.idle (h₁.idle hi)⟩

theorem Same.spent (hsame : Same h g) (hs : h.Spent) : g.Spent :=
  ⟨by rw [hsame.rotations, hsame.rotated, hs.count], hsame.idle hs.idle⟩

/-- What an event does: it leaves the list alone, or it ends in `maybeRotate` for a server that is
on it, which it only adds to the list in a bound session. -/
inductive Outcome (h h' : Health) (now : Int) : Prop
  | quiet (same : Same h h') (filtering : h'.filtering = h.filtering)
  | judged (g : Health) (again : Bool) (same : Same h g) (listed : g.Listed)
      (grows : h.filtering ⊆ g.filtering)
      (verdict : g.filtering = h.filtering ∨ again = false ∧ h.bound = true)
      (result : h' = g.maybeRotate now again)

theorem Outcome.spent (ho : Outcome h h' now) (hs : h.Spent) : h'.Spent := by
  cases ho with
  | quiet same _ => exact same.spent hs
  | judged g again same listed _ _ result =>
    rw [result]
    exact (same.spent hs).maybeRotate listed

theorem Outcome.of_same (ho : Outcome g h' now) (hsame : Same h g)
    (hfiltering : g.filtering = h.filtering) : Outcome h h' now := by
  cases ho with
  | quiet same filtering => exact .quiet (hsame.trans same) (filtering.trans hfiltering)
  | judged g' again same listed grows verdict result =>
    rw [hfiltering] at grows
    rw [hfiltering, hsame.bound] at verdict
    exact .judged g' again (hsame.trans same) listed grows verdict result

theorem same_openOrRollWindow (h : Health) : Same h (h.openOrRollWindow now) := by
  unfold Health.openOrRollWindow
  split <;> exact ⟨rfl, rfl, rfl, rfl, id⟩

theorem filtering_openOrRollWindow (h : Health) :
    (h.openOrRollWindow now).filtering = h.filtering := by
  unfold Health.openOrRollWindow
  split <;> rfl

theorem same_adoptServer (h : Health) (serverId : Text) : Same h (h.adoptServer serverId) := by
  unfold Health.adoptServer
  dsimp only
  split <;> exact ⟨rfl, rfl, rfl, rfl, by simp⟩

theorem filtering_adoptServer (h : Health) (serverId : Text) :
    (h.adoptServer serverId).filtering = h.filtering := by
  unfold Health.adoptServer
  dsimp only
  split <;> rfl

/-- A conviction, and what follows it. -/
theorem outcome_convict (hb : h.bound = true) :
    Outcome h (h.convict.maybeRotate now false) now := by
  have hsame : Same h h.convict := by
    unfold Health.convict
    split <;> exact ⟨rfl, rfl, rfl, rfl, id⟩
  have hlisted : h.convict.Listed := by
    unfold Health.convict
    split
    case h_1 hnone => simp [Listed, hnone]
    case h_2 server hserver => simp [Listed, hserver]
  have hgrows : h.filtering ⊆ h.convict.filtering := by
    unfold Health.convict
    split
    · exact fun _ h => h
    · exact List.subset_cons_self _ _
  exact .judged h.convict false hsame hlisted hgrows (.inr ⟨rfl, hb⟩) rfl

theorem outcome_onDestinationRefused (h : Health) (host : Text) (port : Nat) :
    Outcome h (h.onDestinationRefused host port now) now := by
  unfold Health.onDestinationRefused
  split
  · exact .quiet ⟨rfl, rfl, rfl, rfl, id⟩ rfl
  case isFalse hgoes =>
    extract_lets h₁ h₂
    have hsame : Same h h₂ := (same_openOrRollWindow h).trans ⟨rfl, rfl, rfl, rfl, id⟩
    have hfiltering : h₂.filtering = h.filtering := filtering_openOrRollWindow h
    split
    · refine (outcome_convict ?_).of_same hsame hfiltering
      rw [hsame.bound]
      exact Bool.of_not_eq_false fun hb => hgoes (.inl hb)
    · exact .quiet hsame hfiltering

theorem outcome_onTunnelEstablished (h : Health) (serverId : Text) :
    Outcome h (h.onTunnelEstablished serverId now) now := by
  unfold Health.onTunnelEstablished
  extract_lets known adopted h₁
  have hsame : Same h h₁ := by
    have hadopt := same_adoptServer h serverId
    refine ⟨hadopt.bound, hadopt.rotations, hadopt.rotated, hadopt.lastRotationAt, ?_⟩
    intro _ hnone
    cases hnone
  have hfiltering : h₁.filtering = h.filtering := filtering_adoptServer h serverId
  split
  case isTrue hknown =>
    have hgrows : h.filtering ⊆ h₁.filtering := by rw [hfiltering]; exact List.Subset.refl _
    refine .judged h₁ true hsame (fun server hserver => ?_) hgrows (.inl hfiltering) rfl
    cases hserver
    rw [hfiltering]
    exact List.contains_iff_mem.mp hknown
  case isFalse => exact .quiet hsame hfiltering

theorem outcome_onFailures (hb : h.bound = true) (server : Text) (count : Int) :
    Outcome h (h.onFailures server count now) now := by
  unfold Health.onFailures
  extract_lets h₁ h₂ h₃ delta
  have hadopt : Same h h₁ ∧ h₁.filtering = h.filtering := by
    unfold h₁
    split
    · exact ⟨same_adoptServer h server, filtering_adoptServer h server⟩
    · exact ⟨⟨rfl, rfl, rfl, rfl, id⟩, rfl⟩
  have hwindow : Same h h₃ ∧ h₃.filtering = h.filtering := by
    have hroll := hadopt.1.trans (@same_openOrRollWindow now h₁)
    have hfiltering := (@filtering_openOrRollWindow now h₁).trans hadopt.2
    unfold h₃
    split
    · exact ⟨hroll.trans ⟨rfl, rfl, rfl, rfl, id⟩, hfiltering⟩
    · exact ⟨hroll, hfiltering⟩
  split_ifs
  · exact .quiet hadopt.1 hadopt.2
  · exact .quiet (hwindow.1.trans ⟨rfl, rfl, rfl, rfl, id⟩) hwindow.2
  · exact .quiet hwindow.1 hwindow.2
  · exact (outcome_convict (hwindow.1.bound.trans hb)).of_same hwindow.1 hwindow.2

theorem outcome_onNotice (h : Health) (n : Notice) : Outcome h (h.onNotice n now) now := by
  unfold Health.onNotice
  extract_lets h₁
  have hlearns : Same h h₁ ∧ h₁.filtering = h.filtering := by
    unfold h₁
    split <;> exact ⟨⟨rfl, rfl, rfl, rfl, id⟩, rfl⟩
  split
  · exact (outcome_onTunnelEstablished h₁ _).of_same hlearns.1 hlearns.2
  · split
    · exact .quiet hlearns.1 hlearns.2
    case isFalse hb =>
      split
      · exact (outcome_onFailures (Bool.of_not_eq_false hb) _ _).of_same hlearns.1 hlearns.2
      · exact .quiet hlearns.1 hlearns.2

theorem outcome_step (h : Health) {ev : HealthEvent} (hnow : ev.now = some now) :
    Outcome h (h.step ev) now := by
  cases ev with
  | refused host port _ =>
    cases hnow
    exact outcome_onDestinationRefused h host port
  | notice n _ =>
    cases hnow
    exact outcome_onNotice h n
  | _ => cases hnow

/-- An event is a new session, changes the targets of the probes only, or reads the clock. -/
theorem step_cases (h : Health) (ev : HealthEvent) :
    (∃ bound selfProbeTargets, h.step ev = { initial with bound, selfProbeTargets }) ∨
      (∃ selfProbeTargets, h.step ev = { h with selfProbeTargets }) ∨
      ∃ now, ev.now = some now := by
  cases ev with
  | bind => exact .inl ⟨true, h.selfProbeTargets, rfl⟩
  | reset => exact .inl ⟨false, h.selfProbeTargets, rfl⟩
  | registerSelfProbe host port => exact .inr (.inl ⟨_, rfl⟩)
  | refused host port now => exact .inr (.inr ⟨now, rfl⟩)
  | notice n now => exact .inr (.inr ⟨now, rfl⟩)

/-! ### Histories -/

/-- From the start of the process. -/
def after (evs : List HealthEvent) : Health := evs.foldl step initial

theorem Spent.after (evs : List HealthEvent) : (Health.after evs).Spent := by
  refine List.foldlRecOn evs Health.step ⟨rfl, fun _ => rfl⟩ fun h hs ev _ => ?_
  rcases step_cases h ev with ⟨_, _, hnew⟩ | ⟨_, hprobe⟩ | ⟨now, hnow⟩
  · rw [hnew]
    exact ⟨rfl, fun _ => rfl⟩
  · rw [hprobe]
    exact ⟨hs.count, hs.idle⟩
  · exact (outcome_step h hnow).spent hs

theorem Outcome.rotates_iff {s : Text} (ho : Outcome h h' now) (hs : h.Spent)
    (hclean : s ∉ h.filtering) (hconvicts : s ∈ h'.filtering)
    (hcool : h.lastRotationAt = 0 ∨ cooldownMs ≤ now - h.lastRotationAt) :
    (∃ r, h'.rotated = h.rotated ++ [r]) ↔ h.rotated.length < maxRotations := by
  cases ho with
  | quiet same filtering =>
    rw [filtering] at hconvicts
    exact absurd hconvicts hclean
  | judged g again same listed _ verdict result =>
    rcases verdict with hfiltering | ⟨rfl, hb⟩
    · rw [result, filtering_maybeRotate, hfiltering] at hconvicts
      exact absurd hconvicts hclean
    · rw [result, listed.maybeRotate (same.spent hs) (same.bound.trans hb), same.rotated,
        same.lastRotationAt]
      by_cases hleft : h.rotated.length < maxRotations
      · rw [if_pos ⟨hleft, hcool⟩]
        exact iff_of_true ⟨_, congrArg (· ++ _) same.rotated⟩ hleft
      · rw [if_neg (by omega), same.rotated]
        exact iff_of_false (by simp) hleft

/-- **A server's conviction, outside the cooldown, rotates exactly while the session has rotated
fewer times than the cap, however long the tunnel has been up.** -/
theorem conviction_rotates_iff (evs : List HealthEvent) (ev : HealthEvent) (s : Text) (now : Int)
    (hnow : ev.now = some now) (hclean : s ∉ (after evs).filtering)
    (hconvicts : s ∈ ((after evs).step ev).filtering)
    (hcool : (after evs).lastRotationAt = 0 ∨ cooldownMs ≤ now - (after evs).lastRotationAt) :
    (∃ r, ((after evs).step ev).rotated = (after evs).rotated ++ [r]) ↔
      (after evs).rotated.length < maxRotations :=
  (outcome_step _ hnow).rotates_iff (.after evs) hclean hconvicts hcool

/-- A tunnel on server `n`. -/
def tunnel (n : Char) (now : Int) : HealthEvent := .notice ⟨none, none, some [n], none⟩ now

/-- The destinations 1 to `k` are refused. -/
def refusals (k : Nat) (now : Int) : List HealthEvent :=
  (List.range k).map fun i => .refused "d.e".toList (i + 1) now

/-- The first server was convicted and left, and the second one is convicted. -/
theorem conviction_rotates_second :
    let evs := .bind :: tunnel 'a' 1000 :: refusals 6 100000 ++ tunnel 'b' 101000 ::
      refusals 5 200000
    (after evs).rotated.length = 1 ∧
      ∃ r, ((after evs).step (.refused "d.e".toList 6 200000)).rotated =
        (after evs).rotated ++ [r] := by
  intro evs
  refine ⟨by decide +kernel, ?_⟩
  exact (conviction_rotates_iff evs _ ['b'] 200000 rfl (by decide +kernel) (by decide +kernel)
    (.inr (by decide +kernel))).mpr (by decide +kernel)

/-- Four servers are convicted and left; the fifth has carried its tunnel for three minutes. -/
def fourRotations : List HealthEvent :=
  .bind :: tunnel 'a' 1000 :: refusals 6 100000 ++ tunnel 'b' 101000 :: refusals 6 200000 ++
    tunnel 'c' 201000 :: refusals 6 300000 ++ tunnel 'd' 301000 :: refusals 6 400000 ++
    tunnel 'e' 401000 :: refusals 5 600000

/-- The fifth is convicted and the session stays on it. -/
theorem budget_not_restored :
    (after fourRotations).activeServer = some ['e'] ∧ ['e'] ∉ (after fourRotations).filtering ∧
    healthyMs ≤ 600000 - (after fourRotations).tunnelSince ∧
    cooldownMs ≤ 600000 - (after fourRotations).lastRotationAt ∧
    ['e'] ∈ ((after fourRotations).step (.refused "d.e".toList 6 600000)).filtering ∧
    ((after fourRotations).step (.refused "d.e".toList 6 600000)).rotated =
      (after fourRotations).rotated := by
  decide +kernel

/-! ### The pace -/

/-- What lies between a rotation and the next. -/
def Spaced (r r' : Rotated) : Prop :=
  repeatCooldownMs ≤ r'.time - r.time ∧ (r'.again = false → cooldownMs ≤ r'.time - r.time)

/-- The rotations of the session so far. -/
structure Paced (h : Health) : Prop where
  last : ∀ r ∈ h.rotated.getLast?, h.lastRotationAt = r.time ∧ 0 < r.time
  spaced : h.rotated.IsChain Spaced
  few : h.rotated.length ≤ maxRotations
  convicted : ∀ r ∈ h.rotated, ∀ server ∈ r.left.serverId, server ∈ h.filtering

theorem Paced.same (hp : h.Paced) (hsame : Same h g) (hgrows : h.filtering ⊆ g.filtering) :
    g.Paced := by
  refine ⟨?_, ?_, ?_, ?_⟩
  · rw [hsame.rotated, hsame.lastRotationAt]
    exact hp.last
  · rw [hsame.rotated]
    exact hp.spaced
  · rw [hsame.rotated]
    exact hp.few
  · rw [hsame.rotated]
    exact fun r hr server hserver => hgrows (hp.convicted r hr server hserver)

theorem Paced.rotate (hp : h.Paced) (hl : h.Listed) (hnow : 0 < now)
    (hleft : h.rotated.length < maxRotations)
    (hcool : h.lastRotationAt = 0 ∨ cooldown again ≤ now - h.lastRotationAt) :
    (h.rotate now again).Paced where
  last := by
    intro r hr
    rw [Health.rotate, List.getLast?_concat] at hr
    cases hr
    exact ⟨rfl, hnow⟩
  spaced := by
    refine List.isChain_append.mpr ⟨hp.spaced, .singleton _, fun r hr r' hr' => ?_⟩
    cases hr'
    obtain ⟨hlast, hpos⟩ := hp.last r hr
    have hwait : cooldown again ≤ now - r.time := by
      rw [← hlast]
      exact hcool.resolve_left (by omega)
    unfold cooldown at hwait
    cases again with
    | true => exact ⟨hwait, nofun⟩
    | false =>
      have hlonger : repeatCooldownMs ≤ cooldownMs := by decide
      exact ⟨Int.le_trans hlonger hwait, fun _ => hwait⟩
  few := by
    rw [Health.rotate, List.length_append]
    exact hleft
  convicted := by
    intro r hr server hserver
    rcases List.mem_append.mp hr with hr | hr
    · exact hp.convicted r hr server hserver
    · cases List.mem_singleton.mp hr
      exact hl server hserver

theorem Outcome.paced (ho : Outcome h h' now) (hs : h.Spent) (hp : h.Paced) (hnow : 0 < now) :
    h'.Paced := by
  cases ho with
  | quiet same filtering => exact hp.same same (by rw [filtering]; exact fun _ h => h)
  | judged g again same listed grows _ result =>
    have hg : g.Paced := hp.same same grows
    rw [result]
    by_cases hb : g.bound = true
    · rw [listed.maybeRotate (same.spent hs) hb]
      split
      · next hrotates => exact hg.rotate listed hnow hrotates.1 hrotates.2
      · exact hg
    · rw [Bool.not_eq_true] at hb
      rwa [Health.maybeRotate, if_pos hb]

end Health

end Aether.Psiphon
