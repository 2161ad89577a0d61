/-
What a disconnect leaves behind, and what a lockdown does on its way.

Sessions bring up the engine and the interface, everybody takes them down, and nobody knows of the
others.  Under an order of the steps that bring something up (`Orderly`) the field `engine` knows
every process that runs, and a stop that has passed a field finds nobody behind it (`Inv`).
-/
import Aether.Vpn.Coroutines

namespace Aether.Vpn

open List

namespace Coroutines

open Machine (Run)

/-! ### What a step of a session can do -/

/-- The session starts the engine. -/
def Session.startsEngine (x : Session) : Answer → Bool
  | .call true =>
    match x.place with
    | .starting _ | .restarting _ => true
    | _ => false
  | _ => false

/-- The session establishes the interface. -/
def Session.establishes (x : Session) : Answer → Bool
  | .call true =>
    match x.place with
    | .raising _ | .raisingChain => !x.profile.proxyMode
    | _ => false
  | _ => false

/-- The place is between `engine?.stop()` and `engine = null` of a cleanup. -/
def Place.clearsEngine : Place → Bool
  | .cleaning .clearEngine _ => true
  | _ => false

/-- What a step does and where it leads, as far as the engine and the interface go. -/
structure Acts (x : Session) (a : Answer) (effect : Effect) (place : Place) : Prop where
  starts : effect = .startEngine → x.startsEngine a = true
  establishes : effect = .establish → x.establishes a = true
  clears : effect = .exec .clearEngine → x.place.clearsEngine = true
  stops : place.clearsEngine = true → effect = .exec .stopEngine

section Acts

variable {x : Session} {s : State} {a : Answer} {effect : Effect} {place : Place}

/-- A step that leaves the engine and the interface alone. -/
theorem acts_of_other (hstart : effect ≠ .startEngine) (hestablish : effect ≠ .establish)
    (hexec : effect ≠ .exec .clearEngine) (hplace : place.clearsEngine = false) :
    Acts x a effect place :=
  ⟨fun h => absurd h hstart, fun h => absurd h hestablish, fun h => absurd h hexec,
    fun h => absurd (hplace.symm.trans h) Bool.false_ne_true⟩

theorem acts_of_none (h : place.clearsEngine = false) : Acts x a .none place :=
  acts_of_other nofun nofun nofun h

theorem acts_awaited {suspended : Bool} {p : Place} (h : x.awaited suspended p = (effect, place))
    (hp : p.clearsEngine = false) : Acts x a effect place := by
  unfold Session.awaited at h
  split at h
  · cases h
    exact acts_of_none rfl
  · cases h
    exact acts_of_none hp

theorem acts_supervise {attempt : Nat} (h : x.supervise s attempt = (effect, place)) :
    Acts x a effect place := by
  unfold Session.supervise at h
  repeat' split at h
  all_goals cases h
  all_goals exact acts_of_other nofun nofun nofun rfl

theorem clearsEngine_connectFlow (profile : ConnectionProfile) :
    (connectFlow profile).clearsEngine = false := by
  unfold connectFlow
  split
  · rfl
  · rfl

/-- A cleanup is at `engine = null` right behind `engine?.stop()`. -/
theorem acts_cleaning {now next : Statement} {after : After} (hx : x.place = .cleaning now after)
    (hnext : now.next = some next) : Acts x a (.exec now) (.cleaning next after) := by
  refine ⟨nofun, nofun, ?_, ?_⟩
  · intro h
    cases h
    rw [hx]
    rfl
  · intro h
    cases now with
    | stopEngine => rfl
    | clearEngine | closeTun =>
      cases hnext
      exact absurd h Bool.false_ne_true
    | clearTun => exact nomatch hnext

theorem acts_cleaned {now : Statement} {after : After} (hnext : now.next = none) :
    Acts x a (.exec now) after.place := by
  refine acts_of_other nofun nofun ?_ (by cases after <;> rfl)
  intro h
  cases h
  exact nomatch hnext

theorem acts_start (hx : x.startsEngine a = true) (hplace : place.clearsEngine = false) :
    Acts x a .startEngine place :=
  ⟨fun _ => hx, nofun, nofun, fun h => absurd (hplace.symm.trans h) Bool.false_ne_true⟩

theorem acts_establish (hx : x.establishes a = true) (hplace : place.clearsEngine = false) :
    Acts x a .establish place :=
  ⟨nofun, fun _ => hx, nofun, fun h => absurd (hplace.symm.trans h) Bool.false_ne_true⟩

theorem act_acts (h : x.act s a = .ok (effect, place)) : Acts x a effect place := by
  unfold Session.act at h
  all_goals repeat' split at h
  -- most steps only move the session
  all_goals first
    | contradiction
    | exact acts_awaited (Except.ok.inj h) rfl
    | exact acts_supervise (Except.ok.inj h)
    | cases h
  all_goals first
    | exact acts_cleaning ‹_› ‹_›
    | exact acts_cleaned ‹_›
    | exact acts_start (by simp_all [Session.startsEngine]) rfl
    | exact acts_establish (by simp_all [Session.establishes]) rfl
    | exact acts_of_none (clearsEngine_connectFlow x.profile)
    | exact acts_of_other (by simp) (by simp) (by simp) rfl

end Acts

/-! ### Order -/

namespace State

/-- Some coroutine is between `engine?.stop()` and `engine = null`. -/
def Between (s : State) : Prop :=
  (∃ x ∈ s.sessions, x.place.clearsEngine = true) ∨
    ∃ x ∈ s.teardowns, x.place = .cleaning .clearEngine

/-- The teardown of a disconnect, as long as no other command has come. -/
def LastStop (s : State) (x : Teardown) : Prop := ∃ j, s.last = .stop j ∧ s.teardowns[j]? = some x

/-- An engine is started while none runs in the field, nobody is about to clear it, and no stop
has passed it. -/
structure EngineFree (s : State) : Prop where
  idle : s.alive = false
  apart : ¬ s.Between
  ahead : ∀ x, s.LastStop x → x.place = .cleaning .stopEngine

/-- No stop has passed the interface. -/
def TunFree (s : State) : Prop := ∀ x, s.LastStop x → ∃ now, x.place = .cleaning now

end State

/-- What is brought up is brought up in order. -/
def Orderly (s : State) : Label → Prop
  | .session i a => ∀ x, s.sessions[i]? = some x →
      (x.startsEngine a = true → s.EngineFree) ∧ (x.establishes a = true → s.TunFree)
  | .teardown j true => ∀ x, s.teardowns[j]? = some x → x.place = .establishing → s.TunFree
  | _ => True

namespace State

/-- Nothing may run: somebody is about to clear the field, or the last stop is behind it. -/
def EnginePassed (s : State) : Prop :=
  s.Between ∨ ∃ x, s.LastStop x ∧ x.place ≠ .cleaning .stopEngine

/-- The last stop is behind the interface. -/
def TunPassed (s : State) : Prop := ∃ x, s.LastStop x ∧ ∀ now, x.place ≠ .cleaning now

end State

/-- The field knows the engine that runs, and behind the last stop there is nothing. -/
structure Inv (s : State) : Prop where
  owned : ∀ e ∈ s.running, s.engine = some e
  launched : ∀ j, s.last = .stop j → j < s.teardowns.length
  stopped : s.EnginePassed → s.running = []
  cleared : s.TunPassed → s.tun = .null

variable {i k : Nat} {s t : State} {established : Bool}

/-! ### Places that change -/

theorem mem_of_mem_modify {α : Type} {l : List α} {f : α → α} {y : α} (h : y ∈ l.modify i f) :
    y ∈ l ∨ ∃ x, l[i]? = some x ∧ y = f x := by
  obtain ⟨n, hn⟩ := mem_iff_getElem?.mp h
  rw [List.getElem?_modify] at hn
  obtain ⟨x, hx, rfl⟩ := Option.map_eq_some_iff.mp hn
  by_cases hi : i = n
  · subst hi
    rw [if_pos rfl]
    exact .inr ⟨x, hx, rfl⟩
  · rw [if_neg hi]
    exact .inl (mem_iff_getElem?.mpr ⟨n, hx⟩)

/-- Sessions are where others were, or get between where nothing runs. -/
theorem Inv.sessions (h : Inv s) {sessions : List Session}
    (hplaces : ∀ y ∈ sessions, y.place.clearsEngine = true →
      s.running = [] ∨ ∃ x ∈ s.sessions, x.place = y.place) : Inv { s with sessions } := by
  refine ⟨h.owned, h.launched, ?_, h.cleared⟩
  rintro ((⟨y, hy, hclears⟩ | hbetween) | hlast)
  · obtain hnil | ⟨x, hx, hxy⟩ := hplaces y hy hclears
    · exact hnil
    · exact h.stopped (.inl (.inl ⟨x, hx, hxy ▸ hclears⟩))
  · exact h.stopped (.inl (.inr hbetween))
  · exact h.stopped (.inr hlast)

theorem Inv.move (h : Inv s) {place : Place}
    (hplace : place.clearsEngine = true → s.running = []) : Inv (s.move i place) := by
  refine h.sessions fun y hy hclears => ?_
  obtain hy | ⟨x, -, rfl⟩ := mem_of_mem_modify hy
  · exact .inr ⟨y, hy, rfl⟩
  · exact .inl (hplace hclears)

/-- Cancelling a session leaves it where it is. -/
theorem Inv.cancel (h : Inv s) (i : Nat) : Inv (s.cancel i) := by
  refine h.sessions fun y hy _ => .inr ?_
  obtain hy | ⟨x, hx, rfl⟩ := mem_of_mem_modify hy
  · exact ⟨y, hy, rfl⟩
  · exact ⟨x, mem_of_getElem? hx, rfl⟩

/-- A teardown moves on: behind a field only where nothing is left of it. -/
theorem Inv.moveTeardown (h : Inv s) {x : Teardown} {place : TeardownPlace}
    (hx : s.teardowns[k]? = some x)
    (hengine : x.place = .cleaning .stopEngine ∨ place = .cleaning .clearEngine → s.running = [])
    (htun : (∃ now, x.place = .cleaning now) → (∀ now, place ≠ .cleaning now) → s.tun = .null) :
    Inv (s.moveTeardown k place) := by
  have hlast {z} (hz : (s.moveTeardown k place).LastStop z) :
      s.LastStop z ∨ s.LastStop x ∧ z.place = place := by
    obtain ⟨j, hj, hget⟩ := hz
    rw [State.moveTeardown, List.getElem?_modify] at hget
    obtain ⟨y, hy, rfl⟩ := Option.map_eq_some_iff.mp hget
    by_cases hk : k = j
    · subst hk
      rw [if_pos rfl]
      exact .inr ⟨⟨k, hj, hx⟩, rfl⟩
    · rw [if_neg hk]
      exact .inl ⟨j, hj, hy⟩
  refine ⟨h.owned, fun j hj => ?_, ?_, ?_⟩
  · rw [State.moveTeardown, length_modify]
    exact h.launched j hj
  · rintro ((hsessions | ⟨y, hy, hclears⟩) | ⟨z, hz, hplace⟩)
    · exact h.stopped (.inl (.inl hsessions))
    · obtain hy | ⟨z, -, rfl⟩ := mem_of_mem_modify hy
      · exact h.stopped (.inl (.inr ⟨y, hy, hclears⟩))
      · exact hengine (.inr hclears)
    · obtain hz | ⟨hx, -⟩ := hlast hz
      · exact h.stopped (.inr ⟨z, hz, hplace⟩)
      · by_cases hstop : x.place = .cleaning .stopEngine
        · exact hengine (.inl hstop)
        · exact h.stopped (.inr ⟨x, hx, hstop⟩)
  · rintro ⟨z, hz, hplace⟩
    obtain hz | ⟨hx, rfl⟩ := hlast hz
    · exact h.cleared ⟨z, hz, hplace⟩
    · by_cases hclean : ∃ now, x.place = .cleaning now
      · exact htun hclean hplace
      · exact h.cleared ⟨x, hx, fun now hnow => hclean ⟨now, hnow⟩⟩

/-! ### Statements of a cleanup -/

/-- The field knows the engine, so that nothing runs behind `engine?.stop()`. -/
theorem running_stopEngine (h : Inv s) : (s.exec .stopEngine).running = [] := by
  refine filter_eq_nil_iff.mpr fun e he => ?_
  simp [h.owned e he]

/-- The field is cleared only where nothing runs. -/
theorem Inv.exec (h : Inv s) {now : Statement} (hclear : now = .clearEngine → s.running = []) :
    Inv (s.exec now) := by
  cases now with
  | stopEngine =>
    have hnil := running_stopEngine h
    refine ⟨fun e he => ?_, h.launched, fun _ => hnil, h.cleared⟩
    rw [hnil] at he
    cases he
  | clearEngine =>
    refine ⟨fun e he => ?_, h.launched, h.stopped, h.cleared⟩
    have hmem : e ∈ s.running := he
    rw [hclear rfl] at hmem
    cases hmem
  | closeTun =>
    refine ⟨h.owned, h.launched, h.stopped, fun hpassed => ?_⟩
    simp [State.exec, h.cleared hpassed]
  | clearTun => exact ⟨h.owned, h.launched, h.stopped, fun _ => rfl⟩

theorem teardowns_exec (s : State) (now : Statement) : (s.exec now).teardowns = s.teardowns := by
  cases now <;> rfl

/-! ### Steps that bring something up -/

/-- An engine is started where none runs. -/
theorem Inv.startEngine (h : Inv s) (hfree : s.EngineFree) : Inv (s.apply .startEngine) := by
  have hnil : s.running = [] := by
    refine eq_nil_iff_forall_not_mem.mpr fun e he => ?_
    have halive : s.alive = true := by
      rw [State.alive, h.owned e he]
      simpa using he
    exact absurd (hfree.idle.symm.trans halive) Bool.false_ne_true
  refine ⟨fun e he => ?_, h.launched, ?_, h.cleared⟩
  · have he : e ∈ s.running ++ [s.spawned] := he
    rw [hnil, nil_append, mem_singleton] at he
    rw [he]
    rfl
  · rintro (hbetween | ⟨x, hx, hplace⟩)
    · exact absurd hbetween hfree.apart
    · exact absurd (hfree.ahead x hx) hplace

/-- An interface is established where no stop has passed. -/
theorem Inv.establish (h : Inv s) (hfree : s.TunFree) : Inv { s with tun := .held } := by
  refine ⟨h.owned, h.launched, h.stopped, ?_⟩
  rintro ⟨x, hx, hplace⟩
  obtain ⟨now, hnow⟩ := hfree x hx
  exact absurd hnow (hplace now)

/-! ### Commands -/

theorem Inv.connect (h : Inv s) (profile : ConnectionProfile) :
    Inv { s.startTunnel profile with last := .connect } := by
  have hlast : Inv { s with
      lastProfile := some profile, runJob := some s.sessions.length, last := .connect } := by
    refine ⟨h.owned, nofun, ?_, ?_⟩
    · rintro (hbetween | ⟨x, ⟨j, hj, -⟩, -⟩)
      · exact h.stopped (.inl hbetween)
      · exact nomatch hj
    · rintro ⟨x, ⟨j, hj, -⟩, -⟩
      exact nomatch hj
  refine hlast.sessions fun y hy hclears => ?_
  obtain hy | hy := mem_append.mp hy
  · exact .inr ⟨y, hy, rfl⟩
  · rw [mem_singleton.mp hy] at hclears
    exact absurd hclears Bool.false_ne_true

/-- A teardown begins ahead of everything, the last one if a command has launched it. -/
theorem Inv.launch (h : Inv s) {x : Teardown} {runJob stopJob : Option Nat} {last : LastCommand}
    (hx : x.place = .cleaning .stopEngine)
    (hlast : last = s.last ∨ ∀ j, last = .stop j → j = s.teardowns.length) :
    Inv { s with teardowns := s.teardowns ++ [x], runJob, stopJob, last } := by
  have hstop {z : Teardown} (hz : ∃ j, last = .stop j ∧ (s.teardowns ++ [x])[j]? = some z) :
      s.LastStop z ∨ z.place = .cleaning .stopEngine := by
    obtain ⟨j, hj, hget⟩ := hz
    obtain rfl | hlast := hlast
    · rw [List.getElem?_append_left (h.launched j hj)] at hget
      exact .inl ⟨j, hj, hget⟩
    · rw [hlast j hj, List.getElem?_concat_length] at hget
      exact .inr (Option.some.inj hget ▸ hx)
  refine ⟨h.owned, fun j hj => ?_, ?_, ?_⟩
  · rw [length_append]
    obtain rfl | hlast := hlast
    · exact Nat.lt_add_right _ (h.launched j hj)
    · simp [hlast j hj]
  · rintro ((hsessions | ⟨y, hy, hclears⟩) | ⟨z, hz, hplace⟩)
    · exact h.stopped (.inl (.inl hsessions))
    · obtain hy | hy := mem_append.mp hy
      · exact h.stopped (.inl (.inr ⟨y, hy, hclears⟩))
      · rw [mem_singleton.mp hy, hx] at hclears
        exact nomatch hclears
    · obtain hz | hz := hstop hz
      · exact h.stopped (.inr ⟨z, hz, hplace⟩)
      · exact absurd hz hplace
  · rintro ⟨z, hz, hplace⟩
    obtain hz | hz := hstop hz
    · exact h.cleared ⟨z, hz, hplace⟩
    · exact absurd hz (hplace _)

theorem Inv.launchTeardown (h : Inv s) {lockdown : Bool} {last : LastCommand}
    (hlast : last = s.last ∨ ∀ j, last = .stop j → j = s.teardowns.length) :
    Inv { s.launchTeardown lockdown with last := last } := by
  unfold State.launchTeardown
  cases s.runJob with
  | none => exact h.launch rfl hlast
  | some i => exact (h.cancel i).launch rfl hlast

/-! ### Runs -/

theorem Inv.session (h : Inv s) {x : Session} {a : Answer} {effect : Effect} {place : Place}
    (hx : s.sessions[i]? = some x) (hact : x.act s a = .ok (effect, place))
    (hstart : x.startsEngine a = true → s.EngineFree)
    (hestablish : x.establishes a = true → s.TunFree) : Inv ((s.apply effect).move i place) := by
  have hacts := act_acts hact
  have happly : Inv (s.apply effect) := by
    cases effect with
    | startEngine => exact h.startEngine (hstart (hacts.starts rfl))
    | establish => exact h.establish (hestablish (hacts.establishes rfl))
    | exec now =>
      refine h.exec fun hnow => h.stopped (.inl (.inl ⟨x, mem_of_getElem? hx, ?_⟩))
      exact hacts.clears (hnow ▸ rfl)
    | none => exact h
    | cancel i => exact h.cancel i
    | leaveLockdown => exact ⟨h.owned, h.launched, h.stopped, h.cleared⟩
    | enterLockdown =>
      have hlaunched : Inv { s.launchTeardown true with last := s.last } :=
        h.launchTeardown (.inl rfl)
      have hlast : { s.launchTeardown true with last := s.last } = s.launchTeardown true := by
        unfold State.launchTeardown
        cases s.runJob <;> rfl
      rw [hlast] at hlaunched
      exact hlaunched
  refine happly.move fun hclears => ?_
  cases hacts.stops hclears
  exact running_stopEngine h

theorem Inv.teardown (h : Inv s) {x : Teardown} {place : TeardownPlace}
    (hx : s.teardowns[k]? = some x) (hact : x.act s established = .ok (t, place))
    (hestablish : established = true → x.place = .establishing → s.TunFree) :
    Inv (t.moveTeardown k place) := by
  unfold Teardown.act at hact
  cases hplace : x.place with
  | cleaning now =>
    have hx : (s.exec now).teardowns[k]? = some x := by rwa [teardowns_exec]
    have hexec : Inv (s.exec now) := h.exec fun hnow =>
      h.stopped (.inl (.inr ⟨x, teardowns_exec s now ▸ mem_of_getElem? hx, hnow ▸ hplace⟩))
    rw [hplace] at hact
    cases now with
    | stopEngine =>
      cases hact
      exact hexec.moveTeardown hx (fun _ => running_stopEngine h) (by simp)
    | clearEngine | closeTun =>
      cases hact
      exact hexec.moveTeardown hx (by simp [hplace]) (by simp)
    | clearTun =>
      cases hact
      exact hexec.moveTeardown hx (by cases x.lockdown <;> simp [hplace]) (fun _ _ => rfl)
  | establishing =>
    rw [hplace] at hact
    cases hact
    cases established with
    | true =>
      exact (h.establish (hestablish rfl hplace)).moveTeardown hx (by simp [hplace])
        (by simp [hplace])
    | false =>
      have hnull : Inv { s with tun := .null } := ⟨h.owned, h.launched, h.stopped, fun _ => rfl⟩
      exact hnull.moveTeardown hx (by simp [hplace]) (by simp [hplace])
  | activating =>
    rw [hplace] at hact
    cases hact
    have hactive : Inv { s with lockdownTunActive := true } :=
      ⟨h.owned, h.launched, h.stopped, h.cleared⟩
    exact hactive.moveTeardown hx (by simp [hplace]) (by simp [hplace])
  | joining =>
    rw [hplace] at hact
    dsimp only at hact
    split at hact
    · cases hact
      exact h.moveTeardown hx (by simp [hplace]) (by simp [hplace])
    · exact nomatch hact
  | finished =>
    rw [hplace] at hact
    exact nomatch hact

theorem Inv.disconnect (h : Inv s) : Inv s.disconnect := by
  have hstop : Inv { s.stopEverything with last := .stop s.teardowns.length } :=
    h.launchTeardown (.inr fun j hj => (LastCommand.stop.inj hj).symm)
  unfold State.disconnect
  split
  · exact hstop
  · split
    · split
      · exact h.launchTeardown (.inr nofun)
      · exact hstop
    · exact hstop

theorem stepSession_ok {a : Answer} (h : s.stepSession i a = .ok t) :
    ∃ x effect place, s.sessions[i]? = some x ∧ x.act s a = .ok (effect, place) ∧
      t = (s.apply effect).move i place := by
  unfold State.stepSession at h
  split at h
  · exact nomatch h
  · next x hx =>
      cases hact : x.act s a with
      | error e =>
        rw [hact] at h
        exact nomatch h
      | ok next =>
        rw [hact] at h
        exact ⟨x, next.1, next.2, hx, hact, (Except.ok.inj h).symm⟩

theorem stepTeardown_ok (h : s.stepTeardown k established = .ok t) :
    ∃ x u place, s.teardowns[k]? = some x ∧ x.act s established = .ok (u, place) ∧
      t = u.moveTeardown k place := by
  unfold State.stepTeardown at h
  split at h
  · exact nomatch h
  · next x hx =>
      cases hact : x.act s established with
      | error e =>
        rw [hact] at h
        exact nomatch h
      | ok next =>
        rw [hact] at h
        exact ⟨x, next.1, next.2, hx, hact, (Except.ok.inj h).symm⟩

theorem Inv.step {l : Label} (h : Inv s) (hok : Orderly s l) (hstep : Coroutines.step s l = .ok t) :
    Inv t := by
  cases l with
  | connect profile =>
    cases hstep
    exact h.connect profile
  | disconnect =>
    cases hstep
    exact h.disconnect
  | session i a =>
    obtain ⟨x, effect, place, hx, hact, rfl⟩ := stepSession_ok hstep
    exact h.session hx hact (hok x hx).1 (hok x hx).2
  | teardown k established =>
    obtain ⟨x, t, place, hx, hact, rfl⟩ := stepTeardown_ok hstep
    refine h.teardown hx hact fun hestablished => ?_
    subst hestablished
    exact hok x hx
  | engineExits e =>
    cases hstep
    refine ⟨fun e' he' => h.owned e' (mem_filter.mp he').1, h.launched, fun hpassed => ?_,
      h.cleared⟩
    show s.running.filter _ = []
    rw [h.stopped hpassed, filter_nil]

/-! ### Checking the order -/

instance (s : State) : Decidable s.Between :=
  inferInstanceAs (Decidable ((∃ x ∈ s.sessions, x.place.clearsEngine = true) ∨
    ∃ x ∈ s.teardowns, x.place = .cleaning .clearEngine))

instance (place : TeardownPlace) : Decidable (∃ now, place = .cleaning now) :=
  match place with
  | .cleaning now => isTrue ⟨now, rfl⟩
  | .establishing | .activating | .joining | .finished => isFalse fun h => nomatch h.choose_spec

instance (s : State) (p : Teardown → Prop) [DecidablePred p] :
    Decidable (∀ x, s.LastStop x → p x) :=
  match hlast : s.last with
  | .stop j =>
    decidable_of_iff (∀ x ∈ s.teardowns[j]?, p x)
      ⟨fun h x ⟨i, hi, hx⟩ => h x (by rw [hlast] at hi; cases hi; exact hx),
        fun h x hx => h x ⟨j, hlast, hx⟩⟩
  | .none | .connect | .lockdown => isTrue fun x ⟨i, hi, _⟩ => nomatch hlast.symm.trans hi

instance (s : State) : Decidable s.EngineFree :=
  decidable_of_iff (s.alive = false ∧ ¬ s.Between ∧
      ∀ x, s.LastStop x → x.place = .cleaning .stopEngine)
    ⟨fun h => ⟨h.1, h.2.1, h.2.2⟩, fun h => ⟨h.idle, h.apart, h.ahead⟩⟩

instance (s : State) : Decidable s.TunFree :=
  inferInstanceAs (Decidable (∀ x, s.LastStop x → ∃ now, x.place = .cleaning now))

instance (s : State) (l : Label) : Decidable (Orderly s l) :=
  match l with
  | .session i a => inferInstanceAs (Decidable (∀ x ∈ s.sessions[i]?,
      (x.startsEngine a = true → s.EngineFree) ∧ (x.establishes a = true → s.TunFree)))
  | .teardown j true =>
    inferInstanceAs (Decidable (∀ x ∈ s.teardowns[j]?, x.place = .establishing → s.TunFree))
  | .teardown _ false | .connect _ | .disconnect | .engineExits _ => isTrue trivial

instance (s : State) : Decidable s.Quiet :=
  decidable_of_iff ((∀ x ∈ s.sessions, x.place = .finished) ∧
      ∀ x ∈ s.teardowns, x.place = .finished)
    ⟨fun h => ⟨h.1, h.2⟩, fun h => ⟨h.sessions, h.teardowns⟩⟩

/-! ### After a disconnect -/

/-- **What was stopped stays stopped, if everything is brought up in order.** -/
theorem stop_holds {ls : List Label} {s : State} (hrun : Run step Orderly {} ls s) :
    s.StopHolds := by
  have hinv : Inv s := hrun.invariant ⟨nofun, nofun, fun _ => rfl, fun _ => rfl⟩
    fun _ _ _ h hok hstep => h.step hok hstep
  intro j hlast hquiet
  obtain ⟨x, hx⟩ : ∃ x, s.teardowns[j]? = some x :=
    ⟨_, List.getElem?_eq_getElem (hinv.launched j hlast)⟩
  have hfinished := hquiet.teardowns x (mem_of_getElem? hx)
  exact ⟨hinv.stopped (.inr ⟨x, ⟨j, hlast, hx⟩, by simp [hfinished]⟩),
    hinv.cleared ⟨x, ⟨j, hlast, hx⟩, by simp [hfinished]⟩⟩

/-- A plain session without a kill switch. -/
def plain : ConnectionProfile where
  backend := .aether
  proxyMode := false
  lanShare := false
  blocksApps := false
  killSwitch := false
  strictKillSwitch := false
  smartReconnect := true
  reconnectRetryLimit := 5

/-- A session up to `awaitClosed` of its only attempt. -/
def attempting (profile : ConnectionProfile) : List Label :=
  [.connect profile, .session 0 .go, .session 0 .go, .session 0 (.plan false 1), .session 0 .go,
    .session 0 .go, .session 0 .go, .session 0 .go, .session 0 .go, .session 0 .go,
    .session 0 (.await true true)]

/-- A session that comes up, and is stopped. -/
def stopped : List Label :=
  attempting plain ++
    [.session 0 (.call true), .session 0 (.await true true), .session 0 (.call true),
      .session 0 (.call true), .session 0 (.await true true), .session 0 .go, .disconnect,
      .teardown 0 false, .teardown 0 false, .teardown 0 false, .teardown 0 false,
      .session 0 (.await false true), .session 0 .go, .teardown 0 false]

theorem stop_holds_stopped :
    ∃ s, Run step Orderly {} stopped s ∧ (s.last = .stop 0 ∧ s.Quiet) ∧ s.running = [] ∧
      s.tun = .null := by
  obtain ⟨s, hrun, hstop⟩ : ∃ s, Run step Orderly {} stopped s ∧
      decide (s.last = .stop 0 ∧ s.Quiet) = true :=
    Machine.exists_run_of_perform (by decide +kernel)
  have hstop := of_decide_eq_true hstop
  exact ⟨s, hrun, hstop, stop_holds hrun 0 hstop.1 hstop.2⟩

/-- A session that is stopped between `awaitClosed` and the start of the engine. -/
def overtaken : List Label :=
  attempting plain ++
    [.disconnect, .teardown 0 false, .teardown 0 false, .teardown 0 false, .teardown 0 false,
      .session 0 (.call true), .session 0 (.await true false), .teardown 0 false]

/-- The engine is started right behind the teardown of a disconnect, and nobody is left to stop
it. -/
theorem engine_left_behind :
    (Machine.perform step (fun _ _ => True) {} overtaken).map
      (fun s => (s.last, s.running, s.sessions.map (·.place), s.teardowns.map (·.place))) =
    some (.stop 0, [0], [.finished], [.finished]) := by
  decide +kernel

/-! ### The way into a lockdown -/

/-- Every state on the way holds an interface, and the flag is up only with a descriptor. -/
def NoGap (s₀ : State) (ls : List Label) : Prop :=
  ∀ done t, done <+: ls → Run step (fun _ _ => True) s₀ done t →
    t.tun = .held ∧ (t.lockdownTunActive = true → t.tun ≠ .null)

/-- A place with `tun?.close()` still ahead. -/
def TeardownPlace.beforeClose : TeardownPlace → Bool
  | .cleaning .clearTun => false
  | .cleaning _ => true
  | .establishing | .activating | .joining | .finished => false

section Lockdown

variable {s t u : State} {l : Label} {j : Nat} {x : Teardown}

theorem teardowns_act {established : Bool} {place : TeardownPlace}
    (h : x.act s established = .ok (t, place)) : t.teardowns = s.teardowns := by
  unfold Teardown.act at h
  repeat' split at h
  all_goals cases h
  all_goals first
    | exact teardowns_exec s _
    | rfl

theorem getElem?_launchTeardown (hx : s.teardowns[j]? = some x) (lockdown : Bool) :
    (s.launchTeardown lockdown).teardowns[j]? = some x := by
  show (s.teardowns ++ _)[j]? = some x
  rw [List.getElem?_append_left (List.getElem?_eq_some_iff.mp hx).1, hx]

/-- A teardown moves by its own steps only. -/
theorem getElem?_of_step (hx : s.teardowns[j]? = some x)
    (hl : ∀ established, l ≠ .teardown j established) (hstep : step s l = .ok t) :
    t.teardowns[j]? = some x := by
  cases l with
  | connect profile =>
    cases hstep
    exact hx
  | disconnect =>
    cases hstep
    unfold State.disconnect
    repeat' split
    all_goals exact getElem?_launchTeardown hx _
  | session i a =>
    obtain ⟨y, effect, place, -, -, rfl⟩ := stepSession_ok hstep
    cases effect with
    | exec now =>
      show (s.exec now).teardowns[j]? = some x
      rw [teardowns_exec, hx]
    | enterLockdown => exact getElem?_launchTeardown hx true
    | none | startEngine | establish | cancel | leaveLockdown => exact hx
  | teardown k established =>
    obtain ⟨y, v, place, -, hact, rfl⟩ := stepTeardown_ok hstep
    have hne : k ≠ j := by
      rintro rfl
      exact hl established rfl
    show (v.teardowns.modify k _)[j]? = some x
    rw [List.getElem?_modify, teardowns_act hact, hx]
    simp [hne]
  | engineExits e =>
    cases hstep
    exact hx

/-- A teardown that is still before `tun?.close()` stays there, or leaves no open interface
behind. -/
theorem beforeClose_of_step (hx : s.teardowns[j]? = some x) (hbefore : x.place.beforeClose = true)
    (hstep : step s l = .ok t) :
    (∃ y, t.teardowns[j]? = some y ∧ y.place.beforeClose = true) ∨ t.tun ≠ .held := by
  by_cases hl : ∃ established, l = .teardown j established
  · obtain ⟨established, rfl⟩ := hl
    obtain ⟨x', v, place, hx', hact, rfl⟩ := stepTeardown_ok hstep
    cases hx.symm.trans hx'
    have hmoved : (v.moveTeardown j place).teardowns[j]? = some { x with place := place } := by
      show (v.teardowns.modify j _)[j]? = _
      rw [List.getElem?_modify, teardowns_act hact, hx]
      simp
    unfold Teardown.act at hact
    match hplace : x.place with
    | .cleaning .stopEngine | .cleaning .clearEngine =>
      rw [hplace] at hact
      cases hact
      exact .inl ⟨_, hmoved, rfl⟩
    | .cleaning .closeTun =>
      rw [hplace] at hact
      cases hact
      refine .inr ?_
      show (if s.tun = .held then Tun.closed else s.tun) ≠ .held
      split
      · nofun
      · assumption
    | .cleaning .clearTun | .establishing | .activating | .joining | .finished =>
      rw [hplace] at hbefore
      exact nomatch hbefore
  · exact .inl ⟨x, getElem?_of_step hx (fun established h => hl ⟨established, h⟩) hstep, hbefore⟩

/-- Along a run a teardown is before `tun?.close()`, or there has been a gap. -/
theorem beforeClose_or_gap {ls : List Label} (hx : u.teardowns[j]? = some x)
    (hbefore : x.place.beforeClose = true) (hrun : Run step (fun _ _ => True) u ls s) :
    (∃ y, s.teardowns[j]? = some y ∧ y.place.beforeClose = true) ∨
      ∃ done t, done <+: ls ∧ Run step (fun _ _ => True) u done t ∧ t.tun ≠ .held := by
  induction hrun with
  | nil => exact .inl ⟨x, hx, hbefore⟩
  | @snoc ls s s' l hrun hok hstep ih =>
    obtain ⟨y, hy, hyBefore⟩ | ⟨done, t, hpre, hdone, hgap⟩ := ih
    · obtain hnext | hgap := beforeClose_of_step hy hyBefore hstep
      · exact .inl hnext
      · exact .inr ⟨_, s', prefix_rfl, hrun.snoc hok hstep, hgap⟩
    · exact .inr ⟨done, t, hpre.trans (prefix_append ls [l]), hdone, hgap⟩

end Lockdown

/-- **A lockdown opens a gap whatever the schedule.**  Its teardown closes the interface that is up
before it establishes its own. -/
theorem lockdown_opens_gap {u s : State} {ls : List Label}
    (hrun : Run step (fun _ _ => True) u.enterLockdown ls s)
    (hfinished : s.teardownFinished u.teardowns.length = true) : ¬ NoGap u.enterLockdown ls := by
  intro hnoGap
  have hlaunched : u.enterLockdown.teardowns[u.teardowns.length]? =
      some ⟨true, .cleaning .stopEngine, u.runJob⟩ := by
    show (u.teardowns ++ _)[u.teardowns.length]? = _
    simp
  obtain ⟨y, hy, hbefore⟩ | ⟨done, t, hpre, hdone, hgap⟩ :=
    beforeClose_or_gap hlaunched rfl hrun
  · have hplace : y.place = .finished := by
      simpa [State.teardownFinished, hy] using hfinished
    rw [hplace] at hbefore
    exact nomatch hbefore
  · exact hgap (hnoGap done t hpre hdone).1

/-- A service that forwards, and whose session has just given up. -/
def forwarding : State where
  tun := .held
  runJob := some 0
  lastProfile := some plain
  sessions := [⟨plain, .finished, false⟩]

/-- The whole teardown of a lockdown. -/
def lockingDown (established : Bool) : List Label := List.replicate 7 (.teardown 0 established)

theorem lockdown_opens_gap_forwarding :
    forwarding.tun = .held ∧
    ∃ s, Run step (fun _ _ => True) forwarding.enterLockdown (lockingDown true) s ∧
      ¬ NoGap forwarding.enterLockdown (lockingDown true) := by
  obtain ⟨s, hrun, hfinished⟩ := Machine.exists_run_of_perform
    (p := fun s : State => s.teardownFinished 0)
    (show (Machine.perform step (fun _ _ => True) forwarding.enterLockdown
      (lockingDown true)).any _ = true by decide +kernel)
  exact ⟨rfl, s, hrun, lockdown_opens_gap hrun hfinished⟩

/-- The field and the flag behind every step of the lockdown: the interface is gone before the next
one is there, and where none can be established the flag is up without one. -/
theorem lockdown_without_interface :
    ((lockingDown true).inits.map fun done =>
        (Machine.perform step (fun _ _ => True) forwarding.enterLockdown done).map
          fun s => (s.tun, s.lockdownTunActive)) =
      [some (.held, false), some (.held, false), some (.held, false), some (.closed, false),
        some (.null, false), some (.held, false), some (.held, true), some (.held, true)] ∧
    (Machine.perform step (fun _ _ => True) forwarding.enterLockdown (lockingDown false)).map
      (fun s => (s.tun, s.lockdownTunActive)) = some (.null, true) := by
  decide +kernel

end Coroutines

end Aether.Vpn
