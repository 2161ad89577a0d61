/-
The retry limit of the supervisor, when nothing succeeds any more.

The counter of the supervisor is set back where the engine is found alive.  An engine that dies,
or that is stopped behind its self-test, is found dead, so every engine that was started is
counted.  One that lives on without opening its port is found alive: it is forgotten, and there
is no limit.
-/
import Aether.Proofs.Vpn.Service

namespace Aether.Vpn

open Machine

theorem maxRetries_pos (profile : ConnectionProfile) : 0 < maxRetries profile := by
  unfold maxRetries
  split <;> omega

/-! ### Engines that are counted -/

/-- Since `first` engines were started every other one was counted, and none of them is found
alive. -/
structure Supervised.Counted (profile : ConnectionProfile) (first : Nat) (x : Supervised) :
    Prop where
  alive : x.alive = true → x.started = first
  counted : ∀ attempt, x.service.phase = .supervising attempt → x.started ≤ first + attempt
  bound : (x.started : Int) ≤ first + maxRetries profile

variable {profile : ConnectionProfile} {s : Service} {attempt : Nat} {spawned opened healthy : Bool}

/-- Behind a failing restart the loop goes on with one more attempt, if an engine was started. -/
theorem restart_phase (hfails : (opened && healthy) = false) {next : Nat}
    (hnext : (s.restart profile attempt spawned opened healthy).phase = .supervising next) :
    (attempt : Int) < maxRetries profile ∧ spawned = true ∧ next = attempt + 1 := by
  unfold Service.restart at hnext
  grind [Service.enterLockdown]

/-- A process that lives behind a failing restart has not opened its port. -/
theorem dead_of_failing (hfailing : (opened && healthy) = false) {lives : Bool}
    (hport : portless (.restart spawned opened healthy, lives) = false)
    (hspares : lives = true → s.spares (.restart spawned opened healthy) = true) :
    lives = false := by
  unfold portless at hport
  unfold Service.spares at hspares
  grind

theorem Supervised.Counted.round {first : Nat} {x x' : Supervised} {l : Label × Bool}
    (h : x.Counted profile first) (hfailing : failing l = true) (hport : portless l = false)
    (hround : x.round profile l = .ok x') : x'.Counted profile first := by
  obtain ⟨s, alive, started⟩ := x
  obtain ⟨l, lives⟩ := l
  unfold Supervised.round at hround
  split at hround
  · next hfinds =>
      obtain ⟨s', hstep, hx'⟩ := bind_eq_ok.mp hround
      cases hx'
      cases l <;> try cases hfinds.1
      · -- the engine that lives is the one from which the count begins
        cases hphase : s.phase <;> simp only [step, hphase] at hstep <;> cases hstep
        have hfirst : started = first := h.alive rfl
        simp only [Service.starts, hphase, Nat.add_zero]
        refine ⟨fun _ => hfirst, fun _ _ => ?_, h.bound⟩
        exact Nat.le_add_right_of_le (Nat.le_of_eq hfirst)
      · cases hphase : s.phase <;> simp only [step, hphase] at hstep <;> cases hstep
        next attempt =>
          have hcounted : started ≤ first + attempt := h.counted attempt hphase
          have hbound : (started : Int) ≤ first + maxRetries profile := h.bound
          simp only [failing, Bool.not_eq_true'] at hfailing
          simp only [Service.starts, hphase]
          refine ⟨fun hlives => ?_, fun next hnext => ?_, ?_⟩
          · -- no engine that was started lives on
            exact nomatch hlives.symm.trans (dead_of_failing hfailing hport hfinds.2)
          · obtain ⟨hretry, hspawned, rfl⟩ := restart_phase hfailing hnext
            show started + (if _ then 1 else 0) ≤ first + (attempt + 1)
            split <;> omega
          · show ((started + if _ then 1 else 0 : Nat) : Int) ≤ first + maxRetries profile
            split <;> omega
  · cases hround

/-! ### Engines that are forgotten -/

/-- Engines without a port are started again and again. -/
theorem starts_again (profile : ConnectionProfile) (hphase : s.phase = .supervising 0)
    (n : Nat) :
    ∃ ls x, Run (Supervised.round profile) (fun _ l => failing l = true) ⟨s, false, 0⟩ ls x ∧
      x.service.phase = .supervising 0 ∧ x.alive = false ∧ x.started = n := by
  induction n with
  | zero => exact ⟨[], _, .nil, hphase, rfl, rfl⟩
  | succ n ih =>
    obtain ⟨ls, ⟨t, alive, started⟩, hrun, ht, rfl, rfl⟩ := ih
    replace ht : t.phase = .supervising 0 := ht
    have hretry : ((0 : Nat) : Int) < maxRetries profile := maxRetries_pos profile
    have hup : Supervised.round profile ⟨t, false, started⟩ (.restart true false false, true) =
        .ok ⟨{ t with engine := true, phase := .supervising 1 }, true, started + 1⟩ := by
      have hstep : step profile t (.restart true false false) =
          .ok { t with engine := true, phase := .supervising 1 } := by
        simp only [step, ht, Service.restart, if_neg (Int.not_le.mpr hretry)]
        rfl
      simp only [Supervised.round, hstep, Service.starts, ht, if_pos (And.intro hretry trivial)]
      rfl
    exact ⟨_, _, (hrun.snoc rfl hup).snoc (l := (.watch false false false, false)) rfl rfl,
      rfl, rfl, rfl⟩

/-- **The supervisor keeps its limit when nothing succeeds any more, if every engine that is
started dies or opens its port**; and with engines that live on without their port it keeps
none. -/
theorem retries_limited (profile : ConnectionProfile) :
    (∀ (x x' : Supervised) (ls : List (Label × Bool)),
      (∃ attempt, x.service.phase = .supervising attempt) →
      Run (Supervised.round profile) (fun _ l => failing l = true ∧ portless l = false) x ls x' →
      (x'.started : Int) ≤ x.started + (maxRetries profile + 1)) ∧
    ∀ s : Service, s.phase = .supervising 0 → ∀ n : Nat, ∃ ls x,
      Run (Supervised.round profile) (fun _ l => failing l = true) ⟨s, false, 0⟩ ls x ∧
        x.started = n := by
  constructor
  · rintro x x' ls - hrun
    have hpos := maxRetries_pos profile
    have hcounted : x'.Counted profile x.started := hrun.invariant
      ⟨fun _ => rfl, fun _ _ => Nat.le_add_right _ _, by omega⟩
      fun _ _ _ h hok hround => h.round hok.1 hok.2 hround
    have hbound := hcounted.bound
    omega
  · intro s hphase n
    obtain ⟨ls, x, hrun, -, -, hstarted⟩ := starts_again profile hphase n
    exact ⟨ls, x, hrun, hstarted⟩

/-- Behind a session that was connected the engine dies, the one that is started instead opens
its port and is stopped behind its self-test, and that was the last one. -/
theorem retries_limited_stopped :
    ∃ s x, Run (step (guardedProfile .aether)) (fun _ _ => True) Service.initial
        [.connectFlow 1, .attempt true, .port true, .bringUp ⟨true, true, true, true⟩,
          .selfTest true] s ∧
      Run (Supervised.round (guardedProfile .aether))
        (fun _ l => failing l = true ∧ portless l = false) ⟨s, true, 0⟩
        [(.watch false false false, false), (.restart true true false, false),
          (.restart true true false, false)] x ∧
      x.started = 1 ∧ (x.started : Int) ≤ 0 + (maxRetries (guardedProfile .aether) + 1) := by
  obtain ⟨s, x, hconnected, hphase, hrun, hstarted⟩ : ∃ s x,
      Run (step (guardedProfile .aether)) (fun _ _ => True) Service.initial
        [.connectFlow 1, .attempt true, .port true, .bringUp ⟨true, true, true, true⟩,
          .selfTest true] s ∧
      s.phase = .supervising 0 ∧
      Run (Supervised.round (guardedProfile .aether))
        (fun _ l => failing l = true ∧ portless l = false) ⟨s, true, 0⟩
        [(.watch false false false, false), (.restart true true false, false),
          (.restart true true false, false)] x ∧
      x.started = 1 :=
    ⟨_, _, .of_perform .nil rfl, rfl, .of_perform .nil rfl, rfl⟩
  exact ⟨s, x, hconnected, hrun, hstarted,
    (retries_limited (guardedProfile .aether)).1 _ _ _ ⟨0, hphase⟩ hrun⟩

/-- A profile that starts a dead engine once: behind a session that was connected, three engines
without a port are started, and it goes on. -/
theorem portless_engines_forgotten :
    ∃ s x, Run (step (guardedProfile .aether)) (fun _ _ => True) Service.initial
        [.connectFlow 1, .attempt true, .port true, .bringUp ⟨true, true, true, true⟩,
          .selfTest true] s ∧
      Run (Supervised.round (guardedProfile .aether)) (fun _ l => failing l = true)
        ⟨s, true, 0⟩
        [(.watch false false false, false),
          (.restart true false false, true), (.watch true false false, true),
          (.watch true false false, false),
          (.restart true false false, true), (.watch true false false, true),
          (.watch true false false, false), (.restart true false false, false)] x ∧
      x.service.phase = .supervising 1 ∧
      ¬ (x.started : Int) ≤ 0 + (maxRetries (guardedProfile .aether) + 1) :=
  ⟨_, _, .of_perform .nil rfl, .of_perform .nil rfl, rfl, by decide⟩

end Aether.Vpn
