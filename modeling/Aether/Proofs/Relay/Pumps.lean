/-
The download survives the end of the upload, if the upload's thread waits for it.

As long as neither socket is closed, the download's pump passes on what the remote side
sends and leaves its loop only when that stream has ended: then everything has arrived.
So what matters is who closes the sockets first.  The rest of the upload's thread closes
them, in the Psiphon front at once and in the bridge after a second at most, whether or
not the download's pump is still at work.
-/
import Aether.Relay.Pumps

namespace Aether.Pumps

open Machine

/-! ### Places -/

/-- The thread is past its loop. -/
def Place.left : Place → Bool
  | .finishing _ => true
  | _ => false

def Action.closes : Action → Bool
  | .closeUpstream => true
  | .closeClient => true
  | _ => false

/-- The next thing the thread does is to close a socket. -/
def Place.closing : Place → Bool
  | .finishing (a :: _) => a.closes
  | _ => false

/-- The upload's thread closes no socket while the download's pump is in its loop. -/
def Waits (s : State) : Label → Prop
  | .act .up _ => s.up.pump.closing = true → s.down.pump.left = true
  | _ => True

instance (s : State) : (l : Label) → Decidable (Waits s l)
  | .act .up _ => inferInstanceAs (Decidable (_ → _))
  | .act .down _ => isTrue trivial
  | .send _ _ => isTrue trivial
  | .finish _ => isTrue trivial
  | .turn _ _ => isTrue trivial

/-! ### What a step does -/

variable {c' c : Channel} {rest : List Action} {timedOut : Bool}

theorem send_cases {bytes : Bytes} (h : c.send bytes = .ok c') :
    c.ended = false ∧ c' = { c with sent := c.sent ++ bytes, pending := c.pending ++ bytes } := by
  unfold Channel.send at h
  split at h
  · cases h
  · next hended =>
      cases h
      exact ⟨Bool.eq_false_iff.mpr hended, rfl⟩

/-- An action leaves the streams alone, and closes a socket only if that is what it is for. -/
theorem act_cases {s s' : State} {a : Action} (h : act s timedOut a = .ok s') :
    s'.down = s.down ∧ (a.closes = true ∨ s' = s) := by
  cases a with
  | closeUpstream | closeClient =>
    cases h
    exact ⟨rfl, .inl rfl⟩
  | shutdownOutput | shutdownInput =>
    cases h
    exact ⟨rfl, .inr rfl⟩
  | join =>
    simp only [act] at h
    split at h
    · cases h
      exact ⟨rfl, .inr rfl⟩
    · cases h

theorem actNext_cases {s s' : State} {d : Direction} (h : actNext s d timedOut = .ok s') :
    ∃ a todo, (s.channel d).pump = .finishing (a :: todo) ∧
      act (s.setChannel { s.channel d with pump := .finishing todo } d) timedOut a = .ok s' := by
  unfold actNext at h
  split at h
  · next a todo hpump => exact ⟨a, todo, hpump, h⟩
  · cases h

/-! ### The download -/

/-- The sockets are open until the download's pump is past its loop; until then it has passed
on all it took, and after that all there was. -/
def Place.Keeps : Place → State → Prop
  | .reading, s =>
    (s.upstreamClosed = false ∧ s.clientClosed = false) ∧
      s.down.delivered ++ s.down.pending = s.down.sent
  | .writing held, s =>
    (s.upstreamClosed = false ∧ s.clientClosed = false) ∧
      s.down.delivered ++ (held ++ s.down.pending) = s.down.sent
  | .finishing _, s => s.down.ended = true ∧ s.down.delivered = s.down.sent

def Whole (s : State) : Prop := s.down.pump.Keeps s

namespace Whole

variable {relay : Relay} {s s' : State}

/-- What concerns only the upload changes nothing. -/
theorem setUp (h : Whole s) (c : Channel) : Whole { s with up := c } := by
  unfold Whole at h ⊢
  cases hpump : s.down.pump <;> rw [hpump] at h <;> exact h

theorem send (h : Whole s) {c : Channel} {bytes : Bytes} (hsend : s.down.send bytes = .ok c) :
    Whole { s with down := c } := by
  obtain ⟨hended, rfl⟩ := send_cases hsend
  unfold Whole at h ⊢
  cases hpump : s.down.pump with
  | reading =>
    rw [hpump] at h
    exact ⟨h.1, by rw [← h.2, List.append_assoc]⟩
  | writing held =>
    rw [hpump] at h
    exact ⟨h.1, by rw [← h.2, List.append_assoc, List.append_assoc]⟩
  | finishing todo =>
    -- the stream has ended by then
    rw [hpump] at h
    cases hended.symm.trans h.1

theorem finish (h : Whole s) : Whole { s with down := { s.down with ended := true } } := by
  unfold Whole at h ⊢
  cases hpump : s.down.pump with
  | finishing todo =>
    rw [hpump] at h
    exact ⟨rfl, h.2⟩
  | _ =>
    rw [hpump] at h
    exact h

theorem turn (h : Whole s) {c : Channel} {size n : Nat} {rest : List Action}
    (hturn : s.down.turn size rest s.upstreamClosed s.clientClosed n = .ok c) :
    Whole { s with down := c } := by
  unfold Whole at h
  revert hturn
  fun_cases Channel.turn s.down size rest s.upstreamClosed s.clientClosed n <;>
    intro hturn <;> cases hturn
  case case1 hpump hclosed =>
    rw [hpump] at h
    cases hclosed.symm.trans h.1.1
  case case2 hpump _ _ _ =>
    rw [hpump] at h
    exact ⟨h.1, by rw [List.take_append_drop, ← h.2]⟩
  case case4 hpump _ hpending hended =>
    rw [hpump] at h
    exact ⟨hended, by rw [← h.2, not_not.mp hpending, List.append_nil]⟩
  case case6 held hpump hclosed =>
    rw [hpump] at h
    cases hclosed.symm.trans h.1.2
  case case7 held hpump _ =>
    rw [hpump] at h
    exact ⟨h.1, by rw [← h.2, List.append_assoc]⟩

/-- An action that leaves the streams alone is harmless if it closes nothing or comes after
the download. -/
theorem act (h : Whole s) {timedOut : Bool} {a : Action} (hact : act s timedOut a = .ok s')
    (hwaits : a.closes = true → s.down.pump.left = true) : Whole s' := by
  obtain ⟨hdown, hcloses | rfl⟩ := act_cases hact
  · have hleft := hwaits hcloses
    unfold Whole at h ⊢
    rw [hdown]
    cases hpump : s.down.pump with
    | finishing todo =>
      rw [hpump] at h
      simpa only [Place.Keeps, hdown] using h
    | _ =>
      rw [hpump] at hleft
      cases hleft
  · exact h

/-- **A step keeps it, if the upload's thread waits.** -/
theorem step {l : Label} (h : Whole s) (hok : Waits s l) (hstep : step relay s l = .ok s') :
    Whole s' := by
  cases l with
  | send d bytes =>
    cases d with
    | up =>
      obtain ⟨c, -, heq⟩ := bind_eq_ok.mp hstep
      cases heq
      exact h.setUp c
    | down =>
      obtain ⟨c, hsend, heq⟩ := bind_eq_ok.mp hstep
      cases heq
      exact h.send hsend
  | finish d =>
    cases d with
    | up =>
      cases hstep
      exact h.setUp _
    | down =>
      cases hstep
      exact h.finish
  | turn d n =>
    cases d with
    | up =>
      obtain ⟨c, -, heq⟩ := bind_eq_ok.mp hstep
      cases heq
      exact h.setUp c
    | down =>
      obtain ⟨c, hturn, heq⟩ := bind_eq_ok.mp hstep
      cases heq
      exact h.turn hturn
  | act d timedOut =>
    obtain ⟨a, todo, hpump, hact⟩ := actNext_cases hstep
    cases d with
    | up =>
      refine (h.setUp _).act hact fun hcloses => hok ?_
      show s.up.pump.closing = true
      rw [show s.up.pump = .finishing (a :: todo) from hpump]
      exact hcloses
    | down =>
      have hpump : s.down.pump = .finishing (a :: todo) := hpump
      rw [Whole, hpump] at h
      exact act (s := s.setChannel { s.down with pump := .finishing todo } .down) h hact
        fun _ => rfl

end Whole

/-- **When the client's socket is closed, everything the remote side has sent has been
delivered**, in every run in which the upload's thread closes no socket while the
download's pump is in its loop. -/
theorem download_whole (relay : Relay) {ls : List Label} {s : State}
    (h : Run (step relay) Waits {} ls s) (hclosed : s.clientClosed = true) :
    s.down.delivered = s.down.sent := by
  have hwhole : Whole s := h.invariant ⟨⟨rfl, rfl⟩, rfl⟩ fun _ _ _ hw hok hstep => hw.step hok hstep
  unfold Whole at hwhole
  cases hpump : s.down.pump with
  | finishing todo =>
    rw [hpump] at hwhole
    exact hwhole.2
  | _ =>
    rw [hpump] at hwhole
    cases hclosed.symm.trans hwhole.1.2

/-- The client asks and shuts down its side, the remote side answers in two parts, and the
upload's thread goes on to its rest when both have arrived. -/
def patientRun : List Label :=
  [.send .up [1], .finish .up, .turn .up 9, .turn .up 9, .turn .up 9, .act .up false,
    .act .up false, .send .down [2, 3], .turn .down 1, .turn .down 1, .send .down [4],
    .finish .down, .turn .down 9, .turn .down 9, .turn .down 9, .act .down false,
    .act .down false, .act .up false, .act .up false, .act .up false]

theorem download_whole_patient :
    ∃ s, Run (step .share) Waits {} patientRun s ∧ s.clientClosed = true ∧
      s.down.sent = [2, 3, 4] ∧ s.down.delivered = s.down.sent := by
  obtain ⟨s, hrun, hs⟩ : ∃ s, Run (step .share) Waits {} patientRun s ∧
      (s.clientClosed && decide (s.down.sent = [2, 3, 4])) = true :=
    exists_run_of_perform (by decide)
  rw [Bool.and_eq_true, decide_eq_true_eq] at hs
  exact ⟨s, hrun, hs.1, hs.2, download_whole .share hrun hs.1⟩

/-- Both relays close the client's socket on an answer that comes late. -/
theorem download_cut :
    (perform (step .psiphon) (fun _ _ => True) {}
        [.finish .up, .turn .up 9, .act .up false, .act .up false, .send .down [2],
          .finish .down]).any
      (fun s => s.clientClosed && s.down.ended && decide (s.down.sent = [2]) &&
        decide (s.down.delivered = [])) = true ∧
    (perform (step .share) (fun _ _ => True) {}
        [.finish .up, .turn .up 9, .act .up false, .act .up false, .act .up true,
          .act .up false, .act .up false, .send .down [2], .finish .down]).any
      (fun s => s.clientClosed && s.down.ended && decide (s.down.sent = [2]) &&
        decide (s.down.delivered = [])) = true :=
  ⟨by decide, by decide⟩

end Aether.Pumps
