/-
The limit on the connections of the share.

The counter is the number of the connections being served as long as no session begins over
connections of an earlier one: `startSync` sets it to zero, and their threads decrement it later.
A loop that has read it below the limit holds a place, and keeps it until it increments the
counter, if no other loop holds one and no connection is left out of the count.
-/
import Aether.Share.Connections

namespace Aether.Share

open Function Machine

variable {s s' : Connections} {l : ConnLabel} {upstreamPort : Nat}

/-- New listeners are bound by a `startSync` that finds none. -/
theorem bound_of_step {b b' : Bridge} {l : Label} (h : step b l = .ok b')
    (hnew : b'.bound ≠ b.bound) :
    (∃ localOnly upstreamPort minted, l = .startSync localOnly upstreamPort minted) ∧
      b.isUp = false := by
  cases l with
  | startSync localOnly upstreamPort minted =>
    refine ⟨⟨_, _, _, rfl⟩, ?_⟩
    by_contra hup
    rw [Bool.not_eq_false] at hup
    have hback : b.startSync localOnly upstreamPort minted =
        { b with upstreamPort := upstreamPort.getD b.upstreamPort } := if_pos hup
    cases h
    rw [hback] at hnew
    exact hnew rfl
  | flag call | number call | spawn call =>
    simp only [step] at h
    split at h <;> cases h
    exact absurd rfl hnew
  | close call =>
    simp only [step] at h
    split at h <;> cases h
    refine absurd ?_ hnew
    show (Bridge.closeStale _ _ _).bound = _
    unfold Bridge.closeStale
    split <;> rfl

/-- The counter counts, and a loop that is about to increment it is the only one and has a place
for its connection. -/
structure Connections.Kept (s : Connections) : Prop where
  counts : s.liveConnections = s.serving
  capped : (s.live : Int) ≤ maxLiveConnections
  room : ∀ listener, s.loops listener = .allowed → (s.live : Int) < maxLiveConnections
  one : ∀ i j, s.loops i = .allowed → s.loops j = .allowed → i = j

namespace Connections.Kept

theorem initial : (Connections.initial upstreamPort).Kept where
  counts := rfl
  capped := Int.zero_le_ofNat 96
  room listener h := by cases h
  one i j h := by cases h

/-- A loop that goes anywhere but in front of its increment leaves the others as they are. -/
theorem setLoop (h : s.Kept) (listener : Nat) {place : AcceptLoop}
    (hplace : place ≠ .allowed) :
    Kept { s with loops := update s.loops listener place } := by
  have hother : ∀ i, update s.loops listener place i = .allowed → s.loops i = .allowed := by
    intro i hi
    by_cases heq : i = listener
    · rw [heq, update_self] at hi
      exact absurd hi hplace
    · rwa [update_of_ne heq] at hi
  exact { h with
    room := fun i hi => h.room i (hother i hi)
    one := fun i j hi hj => h.one i j (hother i hi) (hother j hj) }

/-- A counter that was read below the limit. -/
theorem allow (h : s.Kept) {listener : Nat} (hbelow : s.liveConnections < maxLiveConnections)
    (hfinishing : s.finishing = 0) (hother : ∀ other, s.loops other ≠ .allowed) :
    Kept { s with loops := update s.loops listener .allowed } := by
  have hplace : (s.live : Int) < maxLiveConnections := by
    have hcounts := h.counts
    unfold Connections.live
    omega
  have hself : ∀ i, update s.loops listener .allowed i = .allowed → i = listener := by
    intro i hi
    by_contra heq
    rw [update_of_ne heq] at hi
    exact hother i hi
  exact { h with
    room := fun _ _ => hplace
    one := fun i j hi hj => (hself i hi).trans (hself j hj).symm }

theorem increment (h : s.Kept) {listener : Nat} (hallowed : s.loops listener = .allowed) :
    Kept { s with
      liveConnections := s.liveConnections + 1
      serving := s.serving + 1
      loops := update s.loops listener .accepting } := by
  have hcounts := h.counts
  have hroom := h.room listener hallowed
  unfold Connections.live at hroom
  -- the place was the only one that was held
  have hnone : ∀ i, update s.loops listener .accepting i ≠ .allowed := by
    intro i hi
    by_cases heq : i = listener
    · rw [heq, update_self] at hi
      cases hi
    · rw [update_of_ne heq] at hi
      exact heq (h.one i listener hi hallowed)
  refine ⟨?_, ?_, fun i hi => absurd hi (hnone i), fun i _ hi => absurd hi (hnone i)⟩
  · show s.liveConnections + 1 = ((s.serving + 1 : Nat) : Int)
    omega
  · show ((s.serving + 1 + s.finishing : Nat) : Int) ≤ maxLiveConnections
    omega

/-- A new session that begins over no connection. -/
theorem reset (h : s.Kept) (hserving : s.serving = 0) (bridge : Bridge) :
    Kept { s with bridge, liveConnections := 0 } :=
  { h with counts := by rw [hserving]; rfl }

/-- **Every step keeps it.** -/
theorem step (h : s.Kept) (hapart : s.Apart l) (hstep : connStep s l = .ok s') : s'.Kept := by
  cases l with
  | bridge l =>
    obtain ⟨b, hb, hs'⟩ := bind_eq_ok.mp hstep
    cases hs'
    by_cases hbound : b.bound = s.bridge.bound
    · simp only [if_pos hbound]
      exact { h with }
    · simp only [if_neg hbound]
      obtain ⟨⟨_, _, _, rfl⟩, hdown⟩ := bound_of_step hb hbound
      have hserving : s.serving = 0 := hapart.resolve_left (by simp [hdown])
      exact h.reset hserving b
  | startUnbound localOnly upstreamPort minted =>
    simp only [connStep] at hstep
    split at hstep <;> cases hstep
    exact h.reset hapart _
  | accept listener inetAddress =>
    simp only [connStep] at hstep
    split at hstep
    · split at hstep <;> cases hstep
      · exact h.setLoop listener (by decide)
      · exact h
    · cases hstep
  | get listener =>
    obtain ⟨hfinishing, hother⟩ := hapart
    simp only [connStep] at hstep
    split at hstep <;> cases hstep
    split
    · exact h.setLoop listener (by decide)
    · next hbelow => exact h.allow (Int.not_le.mp hbelow) hfinishing hother
  | increment listener =>
    simp only [connStep] at hstep
    split at hstep <;> cases hstep
    next hallowed => exact h.increment hallowed
  | decrement =>
    simp only [connStep] at hstep
    split at hstep <;> cases hstep
    next hserving =>
    have hcounts := h.counts
    have hlive : s.serving - 1 + (s.finishing + 1) = s.serving + s.finishing := by omega
    refine ⟨?_, ?_, fun i hi => ?_, h.one⟩
    · show s.liveConnections - 1 = ((s.serving - 1 : Nat) : Int)
      omega
    · show ((s.serving - 1 + (s.finishing + 1) : Nat) : Int) ≤ maxLiveConnections
      rw [hlive]
      exact h.capped
    · show ((s.serving - 1 + (s.finishing + 1) : Nat) : Int) < maxLiveConnections
      rw [hlive]
      exact h.room i hi
  | finish =>
    simp only [connStep] at hstep
    split at hstep <;> cases hstep
    have hless : s.serving + (s.finishing - 1) ≤ s.live := by
      unfold Connections.live
      omega
    have hcapped := h.capped
    refine ⟨h.counts, ?_, fun i hi => ?_, h.one⟩
    · show ((s.serving + (s.finishing - 1) : Nat) : Int) ≤ maxLiveConnections
      omega
    · have hroom := h.room i hi
      show ((s.serving + (s.finishing - 1) : Nat) : Int) < maxLiveConnections
      omega

end Connections.Kept

/-- **The cap is a cap, and the counter the number of the live connections**, in every run in
which no session begins over connections of an earlier one and the counter is read while no
thread is finishing and no other loop is about to increment it. -/
theorem connections_capped {ls : List ConnLabel}
    (hrun : Run connStep Connections.Apart (.initial upstreamPort) ls s) :
    (s.live : Int) ≤ maxLiveConnections ∧ (s.Quiet → s.liveConnections = s.live) := by
  have hkept : s.Kept :=
    hrun.invariant .initial fun _ _ _ h hapart hstep => h.step hapart hstep
  refine ⟨hkept.capped, fun hquiet => ?_⟩
  rw [hkept.counts, Connections.live, hquiet.2, Nat.add_zero]

/-- A client at each listener is admitted, the first one leaves, and one connection is counted. -/
theorem connections_capped_left :
    ∃ s, Run connStep Connections.Apart (.initial 0)
        [.bridge (.startSync false none []), .accept 0 (some (.v4 0xc0a80102)), .get 0,
          .increment 0, .accept 1 (some (.v4 0xc0a80103)), .get 1, .increment 1, .decrement,
          .finish] s ∧
      s.Quiet ∧ s.live = 1 ∧ s.liveConnections = s.live := by
  let loops := update (fun _ => AcceptLoop.accepting) 0 .admitting
  have hfirst : ∀ other, loops other ≠ .allowed := by
    intro other
    simp only [loops, update_apply]
    split <;> decide
  let loops' := update (update (update loops 0 .allowed) 0 .accepting) 1 .admitting
  have hsecond : ∀ other, loops' other ≠ .allowed := by
    intro other
    simp only [loops', loops, update_apply]
    split_ifs <;> decide
  have hquiet : ∀ listener, update (update loops' 1 .allowed) 1 .accepting listener =
      .accepting := by
    intro listener
    simp only [loops', loops, update_apply]
    split_ifs <;> rfl
  refine Run.exists_and (.snoc (.snoc (.snoc (.snoc (.snoc (.snoc (.snoc (.snoc (.snoc .nil
    (.inr rfl) rfl) trivial rfl) ⟨rfl, hfirst⟩ rfl) trivial rfl) trivial rfl) ⟨rfl, hsecond⟩ rfl)
    trivial rfl) trivial rfl) trivial rfl) fun hrun => ?_
  exact ⟨⟨hquiet, rfl⟩, rfl, (connections_capped hrun).2 ⟨hquiet, rfl⟩⟩

/-- A connection of the first session is still being served when the second one begins, and the
counter says that there is none. -/
theorem counter_forgets :
    ∃ s, Run connStep (fun _ _ => True) (.initial 0)
        [.bridge (.startSync false none []), .accept 0 (some (.v4 0xc0a80102)), .get 0,
          .increment 0, .bridge (.flag 0), .bridge (.number 0), .bridge (.spawn 0),
          .bridge (.close 0), .bridge (.startSync false none [])] s ∧
      s.Quiet ∧ s.live = 1 ∧ s.liveConnections = 0 := by
  refine Run.exists_and (.performed rfl) fun _ => ⟨⟨fun listener => ?_, rfl⟩, rfl, rfl⟩
  show update (update (update (fun _ => AcceptLoop.accepting) 0 .admitting) 0 .allowed) 0
    .accepting listener = .accepting
  simp [update_apply]

end Aether.Share
