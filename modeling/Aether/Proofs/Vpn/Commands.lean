/-
Whose profile a session runs.

A connect intent brings its profile along.  A restart brings none, and `decode` answers that with
the defaults, whatever the user had chosen.
-/
import Aether.Vpn.Commands

namespace Aether.Vpn

open List

open Machine (Run)
open Profile (encode decode Platform)

variable {P : Platform} {store : SecretStore}

/-- The profile of a session came with an earlier connect intent. -/
def Start.Chosen (P : Platform) (x : Start) : Prop :=
  ∃ p ∈ x.connects, x.profile = decode P (some (encode p))

/-- Before every restart of the events, some connect intent carried what decodes to the
defaults. -/
def DefaultsChosen (P : Platform) (events : List Event) : Prop :=
  ∀ before after, events = before ++ .restart :: after →
    ∃ p, Event.connect p ∈ before ∧ decode P (some (encode p)) = {}

/-! ### One event -/

/-- What an event does to the profiles: a connect intent starts its own, a restart the defaults, and
nothing else starts any. -/
inductive Advances (P : Platform) (t t' : History) : Event → Prop
  | connect (p : Profile.ConnectionProfile) (hconnects : t'.connects = t.connects ++ [p])
      (hstarted : t'.started = t.started ++ [⟨decode P (some (encode p)), t.connects ++ [p]⟩]) :
      Advances P t t' (.connect p)
  | restart (hconnects : t'.connects = t.connects)
      (hstarted : t'.started = t.started ++ [⟨{}, t.connects⟩]) : Advances P t t' .restart
  | other {e : Event} (hrestart : e ≠ .restart) (hconnect : ∀ p, e ≠ .connect p)
      (hconnects : t'.connects = t.connects) (hstarted : t'.started = t.started) :
      Advances P t t' e

theorem onStartCommand_disconnect (s : Instance) :
    ∀ profile, (onStartCommand P store s (some ⟨true, none⟩)).2.1 ≠ .startTunnel profile := by
  intro profile
  rw [onStartCommand, Option.any_some, if_pos rfl]
  cases s.lockdownTunActive with
  | true => exact fun h => nomatch h
  | false =>
    cases s.lastProfile with
    | none => exact fun h => nomatch h
    | some last =>
      cases hstrict : last.strictKillSwitch with
      | true => simp [hstrict]
      | false => simp [hstrict]

theorem deliver_disconnect (t : History) (s : Instance) :
    (t.deliver P store s (some ⟨true, none⟩)).connects = t.connects ∧
      (t.deliver P store s (some ⟨true, none⟩)).started = t.started := by
  refine ⟨rfl, ?_⟩
  have hnot := @onStartCommand_disconnect P store s
  unfold History.deliver
  split
  next service command mode hcommand =>
    rw [hcommand] at hnot
    cases command with
    | startTunnel profile => exact absurd rfl (hnot profile)
    | stopEverything | enterLockdown => rfl

theorem step_advances {t t' : History} {e : Event} (h : History.step P store t e = .ok t') :
    Advances P t t' e := by
  cases e with
  | connect p =>
    cases h
    exact .connect p rfl rfl
  | disconnect =>
    obtain ⟨hconnects, hstarted⟩ := @deliver_disconnect P store t t.service
    cases h
    exact .other (by simp) (by simp) hconnects hstarted
  | restart =>
    rw [History.step] at h
    by_cases hsticky : t.returned = some .sticky
    · rw [if_pos hsticky] at h
      cases h
      exact .restart rfl rfl
    · rw [if_neg hsticky] at h
      exact nomatch h
  | lockdown active =>
    cases h
    exact .other (by simp) (by simp) rfl rfl

theorem defaultsChosen_nil : DefaultsChosen P [] := fun before after hnil =>
  absurd hnil.symm (by simp)

/-- Only a restart asks for something. -/
theorem defaultsChosen_snoc {events : List Event} {e : Event} :
    DefaultsChosen P (events ++ [e]) ↔ DefaultsChosen P events ∧
      (e = .restart → ∃ p, Event.connect p ∈ events ∧ decode P (some (encode p)) = {}) := by
  constructor
  · intro h
    refine ⟨fun before after hevents => ?_, ?_⟩
    · exact h before (after ++ [e]) (by simp [hevents])
    · rintro rfl
      exact h events [] rfl
  · rintro ⟨h, hlast⟩ before after hevents
    obtain ⟨rfl, he⟩ | ⟨rest, hevents⟩ := Machine.append_singleton_eq hevents
    · exact hlast he
    · exact h before rest hevents

/-! ### Whole histories -/

theorem mem_connects {events : List Event} {h : History}
    (hrun : Run (History.step P store) (fun _ _ => True) {} events h)
    (p : Profile.ConnectionProfile) : p ∈ h.connects ↔ Event.connect p ∈ events := by
  induction hrun with
  | nil => simp
  | @snoc events t t' e hrun _ hstep ih =>
    rw [mem_append, mem_singleton, ← ih]
    cases step_advances hstep with
    | connect q hconnects => simp [hconnects]
    | restart hconnects => simp [hconnects]
    | other _ hconnect hconnects =>
      rw [hconnects]
      exact (or_iff_left (hconnect p).symm).symm

/-- **The profiles of all sessions are the user's, as long as the defaults are when the system
restarts the service.** -/
theorem started_chosen_iff {events : List Event} {h : History}
    (hrun : Run (History.step P store) (fun _ _ => True) {} events h) :
    (∀ x ∈ h.started, x.Chosen P) ↔ DefaultsChosen P events := by
  induction hrun with
  | nil =>
    exact iff_of_true (fun x hx => absurd hx not_mem_nil) defaultsChosen_nil
  | @snoc events t t' e hrun _ hstep ih =>
    rw [defaultsChosen_snoc, ← ih]
    cases step_advances hstep with
    | connect p _ hstarted =>
      have hown : Start.Chosen P ⟨decode P (some (encode p)), t.connects ++ [p]⟩ :=
        ⟨p, by simp, rfl⟩
      rw [hstarted, forall_mem_append, forall_mem_singleton]
      exact and_congr_right fun _ => iff_of_true hown (by simp)
    | restart _ hstarted =>
      rw [hstarted, forall_mem_append, forall_mem_singleton]
      refine and_congr_right fun _ => ?_
      constructor
      · rintro ⟨p, hp, hdefault⟩ -
        exact ⟨p, (mem_connects hrun p).mp hp, hdefault.symm⟩
      · intro hlast
        obtain ⟨p, hp, hdefault⟩ := hlast rfl
        exact ⟨p, (mem_connects hrun p).mpr hp, hdefault.symm⟩
    | other hrestart _ _ hstarted =>
      rw [hstarted]
      exact (and_iff_left fun he => absurd he hrestart).symm

/-- The user connects with the defaults, and the service is restarted. -/
theorem started_chosen_defaults :
    ∃ h, Run (History.step .ascii ⟨[], []⟩) (fun _ _ => True) {} [.connect {}, .restart] h ∧
      ∀ x ∈ h.started, x.Chosen .ascii := by
  have hdecode : decode .ascii (some (encode {})) = {} := by decide +kernel
  have hchosen : DefaultsChosen .ascii ([] ++ [.connect {}] ++ [.restart]) := by
    rw [defaultsChosen_snoc, defaultsChosen_snoc]
    exact ⟨⟨defaultsChosen_nil, by simp⟩, fun _ => ⟨{}, by simp, hdecode⟩⟩
  have hnil : Run (History.step .ascii ⟨[], []⟩) (fun _ _ => True) {} [] {} := .nil
  have hconnect := hnil.snoc (l := .connect {}) trivial rfl
  have hrestart := hconnect.snoc (l := .restart) trivial rfl
  exact ⟨_, hrestart, (started_chosen_iff hrestart).mpr hchosen⟩

/-- Plain Tor with a strict kill switch. -/
def careful : Profile.ConnectionProfile :=
  { backend := .tor, strictKillSwitch := true, routeBlock := "ads.example".toList }

/-- After a restart, the service runs the defaults in place of the profile that was chosen. -/
theorem restart_forgets :
    (History.step .ascii ⟨[], []⟩ {} (.connect careful) >>=
        fun h => History.step .ascii ⟨[], []⟩ h .restart).toOption.map
      (fun h => h.started.map (·.profile)) = some [careful, {}] ∧
      ({} : Profile.ConnectionProfile) ≠ careful := by
  decide +kernel

end Aether.Vpn
