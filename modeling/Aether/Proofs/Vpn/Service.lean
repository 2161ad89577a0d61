/-
The kill switch over a whole session.

The interface is held from the time it was established.  A session that was connected gives it up
in the catch block only, and the supervisor of the engine does not end there while the engine can
be started again: it ends in the lockdown, which builds the interface anew.  The loop of a chained
session does end in the catch block.
-/
import Aether.Vpn.Service

namespace Aether.Vpn

open Machine

/-! ### Where a session is -/

/-- What holds of a session in a phase: one that is not connected has no lockdown, one that is
being supervised has its interface, and one that was connected is left with a lockdown. -/
def Phase.Keeps : Phase → Service → Prop
  | .verifying _, s | .verifyingChain, s =>
    s.connected = false ∧ s.lockdown = .absent ∧ s.tun = true
  | .supervising _, s | .watching _ _, s => s.tun = true ∧ s.lockdown = .absent
  | .returning, s | .ended, s =>
    (s.connected = true → s.lockdown ≠ .absent) ∧
      (s.lockdown = .finished → s.tun = true ∨ s.refused = true)
  | _, s => s.connected = false ∧ s.lockdown = .absent

namespace Service

def Kept (s : Service) : Prop := s.phase.Keeps s

variable {s s' : Service} {p : Phase} {profile : ConnectionProfile}

/-! ### Bringing up -/

theorem establishTun_eq {b : BringUp} (h : s.establishTun profile b = some s') :
    s' = { s with tun := true } := by
  unfold establishTun at h
  split at h
  · exact (Option.some.inj h).symm
  · cases h

/-- Bringing up does not connect; outside proxy mode the interface is held when nothing was
thrown. -/
theorem bringUp_frame (hs : s.connected = false ∧ s.lockdown = .absent) {b : BringUp} {ok : Bool}
    (h : s.bringUp profile b = (s', ok)) :
    s'.connected = false ∧ s'.lockdown = .absent ∧
      (profile.proxyMode = false → ok = true → s'.tun = true) := by
  obtain ⟨hconnected, hlockdown⟩ := hs
  unfold bringUp at h
  split at h
  · next hproxy =>
      cases h
      exact ⟨hconnected, hlockdown, fun hnot => by rw [hnot] at hproxy; cases hproxy⟩
  · split at h
    · cases h
      exact ⟨hconnected, hlockdown, fun _ hok => by cases hok⟩
    · next established hestablished =>
        obtain rfl := establishTun_eq hestablished
        split at h <;> cases h
        · unfold startTun2Socks
          split <;> exact ⟨hconnected, hlockdown, fun _ _ => rfl⟩
        · exact ⟨hconnected, hlockdown, fun _ _ => rfl⟩

/-! ### Steps -/

theorem watch_eq (s : Service) (stillAlive moving answered : Bool) :
    ∃ n, s.watch stillAlive moving answered = { s with probeFailures := n } := by
  unfold watch
  split
  · exact ⟨s.probeFailures, rfl⟩
  · split
    · exact ⟨_, rfl⟩
    · split <;> exact ⟨_, rfl⟩

/-- The supervisor ends in the lockdown only. -/
theorem kept_restart (hkill : (profile.killSwitch || profile.strictKillSwitch) = true)
    (h : s.tun = true ∧ s.lockdown = .absent) {attempt : Nat} {spawned : Bool}
    (hspawned : (attempt : Int) < maxRetries profile → spawned = true) (opened healthy : Bool) :
    (s.restart profile attempt spawned opened healthy).Kept := by
  unfold Service.restart
  by_cases hretry : (attempt : Int) ≥ maxRetries profile
  · rw [if_pos hretry, if_pos hkill]
    exact ⟨fun _ => nofun, nofun⟩
  · rw [if_neg hretry, hspawned (by omega), Bool.not_true, if_neg (by decide)]
    exact h

/-- A session with a lockdown is left, and stays so in another stage of it. -/
theorem Kept.of_left (h : s.Kept) (hlockdown : s.lockdown ≠ .absent) (hphase : s'.phase = s.phase)
    (hlockdown' : s'.lockdown ≠ .absent)
    (hheld : s'.lockdown = .finished → s'.tun = true ∨ s'.refused = true) : s'.Kept := by
  rw [Kept, hphase]
  unfold Kept at h
  cases hp : s.phase <;> rw [hp] at h
  case returning | ended => exact ⟨fun _ => hlockdown', hheld⟩
  case verifying | verifyingChain => exact absurd h.2.1 hlockdown
  all_goals exact absurd h.2 hlockdown

theorem of_ok_ite {c : Prop} [Decidable c] {a b : Service}
    (h : (if c then Except.ok a else .ok b : Except String Service) = .ok s') :
    s' = a ∨ s' = b := by
  split at h <;> cases h
  · exact .inl rfl
  · exact .inr rfl

/-- **Every step that a session survives keeps it.** -/
theorem Kept.step (h : s.Kept) (hproxy : profile.proxyMode = false)
    (hkill : (profile.killSwitch || profile.strictKillSwitch) = true) {l : Label}
    (hsurvives : Survives profile s l) (hstep : step profile s l = .ok s') : s'.Kept := by
  unfold Kept at h
  unfold Vpn.step at hstep
  split at hstep
  · next plan hphase =>
      -- `connectFlow`
      rw [hphase] at h
      obtain rfl | rfl := of_ok_ite hstep <;> exact h
  · next hphase =>
      -- no candidate is left
      rw [hphase] at h
      cases hstep
      exact h
  · next stageOnly left spawned hphase =>
      rw [hphase] at h
      obtain rfl | rfl := of_ok_ite hstep <;> exact h
  · next stageOnly left opened hphase =>
      rw [hphase] at h
      obtain rfl | rfl := of_ok_ite hstep <;> exact h
  · next left ok hphase =>
      rw [hphase] at h
      obtain rfl | rfl := of_ok_ite hstep <;> exact h
  · next left b hphase =>
      -- a plain session is brought up
      rw [hphase] at h
      split at hstep <;> cases hstep
      · next up hup =>
          obtain ⟨hconnected, hlockdown, htun⟩ := bringUp_frame h hup
          exact ⟨hconnected, hlockdown, htun hproxy rfl⟩
      · next up hup =>
          obtain ⟨hconnected, hlockdown, -⟩ := bringUp_frame h hup
          exact ⟨hconnected, hlockdown⟩
  · next left healthy hphase =>
      rw [hphase] at h
      obtain rfl | rfl := of_ok_ite hstep
      · exact ⟨h.2.2, h.2.1⟩
      · exact ⟨h.1, h.2.1⟩
  · next started hphase =>
      -- the second stage
      rw [hphase] at h
      obtain rfl | rfl := of_ok_ite hstep <;> exact h
  · next b hphase =>
      rw [hphase] at h
      split at hstep <;> cases hstep
      · next up hup =>
          obtain ⟨hconnected, hlockdown, htun⟩ := bringUp_frame h hup
          exact ⟨hconnected, hlockdown, htun hproxy rfl⟩
      · next up hup =>
          obtain ⟨hconnected, hlockdown, -⟩ := bringUp_frame h hup
          exact ⟨hconnected, hlockdown⟩
  · next healthy hphase =>
      rw [hphase] at h
      obtain rfl | rfl := of_ok_ite hstep
      · show Phase.Keeps (if profile.backend.usesExternal then _ else _) _
        split <;> exact ⟨h.2.2, h.2.1⟩
      · exact ⟨h.1, h.2.1⟩
  · next attempt stillAlive moving answered hphase =>
      rw [hphase] at h
      cases hstep
      obtain ⟨n, hwatch⟩ := s.watch_eq stillAlive moving answered
      rw [hwatch]
      exact h
  · next attempt spawned opened healthy hphase =>
      rw [hphase] at h
      cases hstep
      exact kept_restart hkill h (hsurvives attempt hphase) opened healthy
  · next transportDead pipelineDead engineAlive transportAlive probe hphase =>
      have hround := hsurvives transportDead pipelineDead hphase
      rw [hphase] at h
      split at hstep
      · cases hstep
        exact h
      · next hleft =>
          rw [hleft] at hround
          cases hround
  · next hphase =>
      -- the catch block: a session that survives its steps comes here before it is connected
      rw [hphase] at h
      cases hstep
      exact ⟨fun hconnected => absurd (h.1.symm.trans hconnected) Bool.false_ne_true,
        fun hfinished => nomatch h.2.symm.trans hfinished⟩
  · next hphase =>
      rw [hphase] at h
      cases hstep
      exact h
  · split at hstep <;> cases hstep
    next hlaunched => exact Kept.of_left h (by rw [hlaunched]; simp) rfl (by simp) nofun
  · next established =>
      split at hstep <;> cases hstep
      next hstopped =>
        refine Kept.of_left h (by rw [hstopped]; simp) rfl (by simp) (fun _ => ?_)
        show established = true ∨ (s.refused || !established) = true
        cases established with
        | true => exact .inl rfl
        | false => exact .inr (by simp)
  · cases hstep

end Service

/-- **In a run whose every step the session survives, the kill switch holds in every state.** -/
theorem killSwitch_holds {profile : ConnectionProfile} (hproxy : profile.proxyMode = false)
    (hkill : (profile.killSwitch || profile.strictKillSwitch) = true) {s₀ s : Service}
    (hlaunched : s₀.Launched) {ls : List Label}
    (hrun : Run (step profile) (Survives profile) s₀ ls s) : s.KillSwitchHolds := by
  have hstart : s₀.Kept := by
    rw [Service.Kept, hlaunched.phase]
    exact ⟨hlaunched.connected, hlaunched.lockdown⟩
  have hkept : s.Kept := hrun.invariant hstart fun _ _ _ h hsurvives hstep =>
    h.step hproxy hkill hsurvives hstep
  intro hconnected hover
  rw [Service.Kept, hover.ended] at hkept
  obtain habsent | hfinished := hover.teardown
  · exact absurd habsent (hkept.1 hconnected)
  · exact hkept.2 hfinished

/-- A profile with the kill switch on that starts a dead engine once. -/
def guardedProfile (backend : TransportBackend) : ConnectionProfile where
  backend := backend
  proxyMode := false
  lanShare := false
  blocksApps := false
  killSwitch := true
  strictKillSwitch := false
  smartReconnect := true
  reconnectRetryLimit := 1

/-- A plain session whose engine dies for good ends in the lockdown. -/
theorem killSwitch_holds_plain :
    ∃ s, Run (step (guardedProfile .aether)) (Survives (guardedProfile .aether))
        Service.initial
        [.connectFlow 1, .attempt true, .port true, .bringUp ⟨true, true, true, true⟩,
          .selfTest true, .restart true false false, .restart false false false, .lockdownStop,
          .lockdownTun true, .finish] s ∧
      s.connected = true ∧ s.Over ∧ s.KillSwitchHolds := by
  refine Run.exists_and (.snoc (.snoc (.snoc (.snoc (.snoc (.snoc (.snoc (.snoc (.snoc (.snoc .nil
    trivial rfl) trivial rfl) trivial rfl) trivial rfl) trivial rfl) ?_ rfl) ?_ rfl) trivial rfl)
    trivial rfl) trivial rfl) fun hrun => ?_
  · exact fun _ _ _ => rfl
  · -- the last retry is behind it
    intro attempt hphase hretry
    cases hphase
    exact absurd hretry (by decide)
  · exact ⟨rfl, ⟨rfl, .inr rfl⟩, killSwitch_holds rfl rfl ⟨rfl, rfl, rfl, rfl⟩ hrun⟩

/-- A chained session whose engine dies ends in the catch block, and the interface is closed. -/
theorem chained_session_leaks :
    ∃ s, Run (step (guardedProfile .aetherPsiphon)) (fun _ _ => True) Service.initial
        [.connectFlow 1, .attempt true, .port true, .stage true, .second true,
          .bringUp ⟨true, true, true, true⟩, .selfTest true, .pipeline false true .notDue,
          .cleanup] s ∧
      s.connected = true ∧ s.Over ∧ s.tun = false ∧ s.refused = false ∧ ¬ s.KillSwitchHolds := by
  refine ⟨_, .of_perform .nil rfl, rfl, ⟨rfl, .inl rfl⟩, rfl, rfl, ?_⟩
  intro hholds
  obtain htun | hrefused := hholds rfl ⟨rfl, .inl rfl⟩
  · cases htun
  · cases hrefused

end Aether.Vpn
