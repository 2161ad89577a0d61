/-
The flags of a flow and what happened to it.

A flow is marked for removal only once its app was found gone, it is established
once its connect call was answered with success, and an established flow's socket is
past its handshake.
-/
import Aether.Proofs.Netstack.Flow
import Aether.Proofs.Netstack.History

namespace Aether

variable {σ υ : Type} {m : Smoltcp σ υ} {tun : Tuning} {T : TurnCond σ} {id : Nat}

structure Lifecycle (m : Smoltcp σ υ) (id : Nat) (st : TcpState) (sock : σ)
    (trace : List Event) : Prop where
  aborted : st.aborted = true → Event.flow id .appGone ∈ trace
  answered : Event.flow id (.answered none) ∈ trace → st.established = true
  handshake : st.established = true → (m.state sock).pastHandshake = true

theorem Tcp.State.pastHandshake_afterClose {s : Tcp.State} (h : s.pastHandshake = true) :
    s.afterClose.pastHandshake = true := by
  revert h
  cases s <;> decide

theorem Tcp.State.pastHandshake_leadsTo {s s' : Tcp.State} (h : s.pastHandshake = true)
    (hs : s.leadsTo s' = true) : s'.pastHandshake = true := by
  revert h hs
  cases s <;> cases s' <;> decide

/-! ### One turn -/

/-- The same in the middle of a turn that began with `est` as the flow's `established`. -/
structure LifecycleRun (m : Smoltcp σ υ) (est : Bool) (f : FlowRun σ) : Prop where
  aborted : f.st.aborted = true → FlowEvent.appGone ∈ f.log
  answered : est = true ∨ FlowEvent.answered none ∈ f.log → f.st.established = true
  handshake : f.st.established = true → (m.state f.sock).pastHandshake = true

variable {now : Nat} {env : FlowEnv} {st : TcpState} {sock : σ} {t : List Event}
  {limits : TcpLimits}

theorem lifecycle_down (hs : m.States) (est : Bool) :
    DownRule m (LifecycleRun m est : FlowRun σ → Prop) := by
  intro f g hedit h
  refine ⟨fun ha => ?_, fun ha => ?_, fun he => ?_⟩
  · cases hedit with
    | aborted hgone => exact hgone
    | _ => simp [FlowRun.close, FlowRun.emit, h.aborted ha]
  · cases hedit <;> exact h.answered (by simpa [FlowRun.close, FlowRun.emit] using ha)
  · cases hedit with
    | close =>
      have hpast := Tcp.State.pastHandshake_afterClose (h.handshake he)
      rwa [← hs.close] at hpast
    | toApp _ hr =>
      have hpast := h.handshake he
      rwa [← hs.recv, hr] at hpast
    | recvNone _ hk _ =>
      have hpast := h.handshake he
      rwa [← hs.recv, hk] at hpast
    | abort =>
      change (m.state (m.abort _)).pastHandshake = true
      rw [hs.abort]
      rfl
    | _ => exact h.handshake he

theorem lifecycle_rule (hs : m.States) (est : Bool) :
    TurnRule m tun (LifecycleRun m est : FlowRun σ → Prop) := by
  intro f g hedit h
  cases hedit with
  | down hdown => exact lifecycle_down hs est hdown h
  | established hstate =>
    refine ⟨h.aborted, fun _ => rfl, fun _ => ?_⟩
    rcases hstate with hst | hst
    · simp only [hst]
      rfl
    · simp only [hst]
      rfl
  | answered hest =>
    exact ⟨fun ha => List.mem_append_left _ (h.aborted ha), fun _ => hest, h.handshake⟩
  | flapped =>
    refine ⟨fun ha => List.mem_append_left _ (h.aborted ha), fun ha => h.answered ?_, fun _ => ?_⟩
    · simpa [FlowRun.resetFlapping] using ha
    · change (m.state (m.abort _)).pastHandshake = true
      rw [hs.abort]
      rfl
  | _ =>
    refine ⟨fun ha => ?_, fun ha => h.answered ?_, fun he => ?_⟩
    · simp [FlowRun.emit, h.aborted ha]
    · simpa [FlowRun.emit] using ha
    · simpa [FlowRun.emit, hs.sendSlice] using h.handshake he

/-! ### Every run -/

/-- Events that leave the flags alone. -/
theorem Lifecycle.quiet (h : Lifecycle m id st sock t) (es : List Event)
    (hes : Event.flow id (.answered none) ∉ es) :
    Lifecycle m id st sock (t ++ es) where
  aborted ha := List.mem_append_left _ (h.aborted ha)
  answered ha := by
    rcases List.mem_append.mp ha with ha | ha
    · exact h.answered ha
    · exact absurd ha hes
  handshake := h.handshake

theorem Lifecycle.turn (hs : m.States) {st' : TcpState} {sock' : σ} (h : Lifecycle m id st sock t)
    (hnext : (serviceFlow m tun limits now env st sock).next = some (st', sock')) :
    Lifecycle m id st' sock'
      (t ++ (serviceFlow m tun limits now env st sock).log.map (.flow id)) := by
  have hab : st.aborted = true → False := by
    intro ha
    rw [serviceFlow_aborted ha] at hnext
    cases hnext
  have hrun := serviceFlow_kept (lifecycle_rule hs st.established)
    ⟨fun ha => (hab ha).elim, fun ha => by simpa using ha, h.handshake⟩ hnext
  refine ⟨fun ha => ?_, fun ha => hrun.answered ?_, hrun.handshake⟩
  · exact List.mem_append_right _ (List.mem_map_of_mem (hrun.aborted ha))
  · rcases List.mem_append.mp ha with ha | ha
    · exact Or.inl (h.answered ha)
    · obtain ⟨e, he, heq⟩ := List.mem_map.mp ha
      cases heq
      exact Or.inr he

theorem lifecycleView_rule (hs : m.States) :
    LiveRule m tun T id (fun _ => False) fun st sock _ => Lifecycle m id st sock where
  excused _ h := h
  other _ hes h := h.quiet _ (flow_notMem_of_other hes)
  opened _ hfresh _ _ := by
    refine ⟨fun ha => (by cases ha), fun ha => ?_, fun he => (by cases he)⟩
    rcases List.mem_append.mp ha with ha | ha
    · exact absurd ha (hfresh _)
    · simp at ha
  turn _ _ hnext _ h := h.turn hs hnext
  polled {_ _ _ _ _ arrived state} _ hpolled _ _ h := by
    have hold := h.quiet [.polled arrived state] (by simp)
    refine ⟨hold.aborted, hold.answered, fun he => ?_⟩
    exact Tcp.State.pastHandshake_leadsTo (hold.handshake he) (hs.polled _ _ hpolled)
  arrived _ _ h := h.quiet _ (by simp)
  handled hd h := by
    obtain ⟨st, hconn, hsame⟩ := hd.frame
    cases hconn
    rw [hsame]
    exact ⟨h.aborted, h.answered, h.handshake⟩
  reset _ _ h := by
    have hold := h.quiet [.flow id .abort] (by simp)
    refine ⟨hold.aborted, hold.answered, fun _ => ?_⟩
    rw [hs.abort]
    rfl

theorem lifecycle_of_run (hs : m.States) {w : World σ υ} {iface : List IpCidr} {mtu : Nat}
    {steps : List (Step σ υ)} (hrun : RunsWith m tun T (.spawn iface mtu limits) steps w)
    (hconn : w.stack.conn id = some (st, sock)) : Lifecycle m id st sock w.stack.trace :=
  ((flow_invariant id hrun (.init id _ _)
    (fun _ _ hstep hv => (lifecycleView_rule hs).step hstep hv)).live st sock hconn).2 not_false

end Aether
