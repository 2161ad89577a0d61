/-
A reset and the removal that follows it.

`abort()` only marks the socket: the RST leaves with the next poll, so the socket has
to stay in the set until then.  Three of the four resets see to that.  The two of
`reap_wedged` run after the pass that removes, and the orphan's leaves the flow for
the next pass.  The reset of a flow that keeps stalling does not: the rest of the
same turn finds the socket closed and removes it, unless the app is gone as well and
the orphan's reset ends the turn.
-/
import Aether.Proofs.Netstack.Lifecycle

namespace Aether

open List

variable {σ υ : Type} {m : Smoltcp σ υ} {tun : Tuning} {limits : TcpLimits} {now : Nat}
  {env : FlowEnv}

/-! ### One turn -/

/-- The turn resets the flow for stalling again. -/
def FlapReset (m : Smoltcp σ υ) (env : FlowEnv) (st : TcpState) (sock : σ) : Prop :=
  ((FlowRun.establish m { st, sock, log := [] }).pushPending m env).flaps m env = true

/-- The turn finds the app gone and resets the orphan. -/
def OrphanReset (m : Smoltcp σ υ) (tun : Tuning) (limits : TcpLimits) (now : Nat) (env : FlowEnv)
    (st : TcpState) (sock : σ) : Prop :=
  let f := (FlowRun.establish m { st, sock, log := [] }).upload m tun env
  let r := (f.halfClose m).deliver m env.tryReserve maxRecvChunks 0
  r.2 = .closed ∧ (r.1.orphan now).orphanExpired m limits now = true

variable {d : FlowRun σ × FlowRun.Stop} {f : FlowRun σ} {e : FlowEvent} {st : TcpState} {sock : σ}
  {t es : List Event} {arrived : Nat → Bytes} {state : Nat → Option Tcp.State}
  {steps' steps : List (Step σ υ)} {w' w : World σ υ}

theorem afterDelivery_abort (hest : d.1.st.established = true)
    (h : FlowEvent.abort ∈ (FlowRun.afterDelivery m limits now d).log) :
    FlowEvent.abort ∈ d.1.log ∨
      (d.2 = .closed ∧ (d.1.orphan now).orphanExpired m limits now = true) := by
  simp only [FlowRun.afterDelivery] at h
  split at h
  · rename_i hclosed
    split at h
    · rename_i hexpired
      exact Or.inr ⟨hclosed, hexpired⟩
    · have hmem := FlowRun.mem_finish (by exact hest) (by simp) (by simp) h
      exact Or.inl (by simpa [FlowRun.close, FlowRun.emit, FlowRun.orphan] using hmem)
  · exact Or.inl (FlowRun.mem_finish hest (by simp) (by simp) h)

/-- An orphan that is reset stays for the next pass. -/
theorem afterDelivery_orphan (hclosed : d.2 = .closed)
    (hexpired : (d.1.orphan now).orphanExpired m limits now = true)
    (h : FlowEvent.removed ∉ d.1.log) :
    FlowEvent.removed ∉ (FlowRun.afterDelivery m limits now d).log := by
  simp only [FlowRun.afterDelivery, hclosed, if_true, hexpired]
  simp only [FlowRun.keep, FlowRun.resetOrphan]
  split
  · simpa [FlowRun.emit, FlowRun.orphan] using h
  · exact h

theorem halfClose_mem (he : ∀ p, e ≠ .close p) : e ∈ (f.halfClose m).log ↔ e ∈ f.log := by
  unfold FlowRun.halfClose
  split
  · simp [FlowRun.close, FlowRun.emit, he]
  · exact Iff.rfl

/-- The delivery loop logs chunks and, at its end, that the app is gone. -/
theorem deliver_mem {answers : Nat → TryReserve} {budget delivered : Nat} (he : ∀ c, e ≠ .toApp c)
    (hgone : e ≠ .appGone) : e ∈ (f.deliver m answers budget delivered).1.log ↔ e ∈ f.log := by
  obtain ⟨-, chunks, hlog⟩ := FlowRun.deliver_spec m answers budget delivered f
  rw [hlog, mem_append, mem_append]
  constructor
  · rintro ((h | h) | h)
    · exact h
    · obtain ⟨c, -, hc⟩ := mem_map.mp h
      exact absurd hc.symm (he c)
    · split at h
      · exact absurd (mem_singleton.mp h) hgone
      · simp at h
  · exact fun h => Or.inl (Or.inl h)

theorem upload_mem (hacc : ∀ b, e ≠ .accepted b) (h : e ∈ (f.upload m tun env).log) :
    e ∈ f.log ∨ (e = .abort ∧ (f.pushPending m env).flaps m env = true) := by
  have hpush : e ∈ (f.pushPending m env).log → e ∈ f.log := by
    simp only [FlowRun.pushPending]
    split
    · exact id
    · split
      · split
        · simp [hacc]
        · exact id
      · exact id
  simp only [FlowRun.upload] at h
  split at h
  · rename_i hflaps
    rcases mem_append.mp h with h | h
    · exact Or.inl (hpush h)
    · exact Or.inr ⟨mem_singleton.mp h, hflaps⟩
  · exact Or.inl (hpush h)

theorem establish_mem (he : e ≠ .answered none) : e ∈ (f.establish m).log ↔ e ∈ f.log := by
  simp only [FlowRun.establish]
  split
  · split
    · simp [he]
    · exact Iff.rfl
  · exact Iff.rfl

/-- The first half of a turn logs what the socket took, that the flow is up, and its reset. -/
theorem uploaded_mem (hacc : ∀ b, e ≠ .accepted b) (hup : e ≠ .answered none)
    (h : e ∈ ((FlowRun.establish m { st, sock, log := [] }).upload m tun env).log) :
    e = .abort ∧ FlapReset m env st sock := by
  rcases upload_mem hacc h with h | h
  · cases (establish_mem hup).mp h
  · exact h

/-- A turn that resets its flow does it for stalling or for being an orphan. -/
theorem serviceFlow_abort (h : FlowEvent.abort ∈ (serviceFlow m tun limits now env st sock).log) :
    FlapReset m env st sock ∨
      (OrphanReset m tun limits now env st sock ∧
        FlowEvent.appGone ∈ (serviceFlow m tun limits now env st sock).log) := by
  obtain ⟨hab, hest⟩ := established_of_mem (by simp) (by simp) h
  rw [serviceFlow_established hab hest] at h ⊢
  have hestd := FlowRun.deliver_established m env
    ((FlowRun.upload_established m tun env _).trans hest)
  rcases afterDelivery_abort hestd h with h | ⟨hclosed, hexpired⟩
  · rw [deliver_mem (by simp) (by simp), halfClose_mem (by simp)] at h
    exact Or.inl (uploaded_mem (by simp) (by simp) h).2
  · refine Or.inr ⟨⟨hclosed, hexpired⟩, ?_⟩
    exact (FlowRun.afterDelivery_log hclosed hestd).subset (FlowRun.deliver_gone hclosed)

/-- An orphan's reset leaves the flow in the table. -/
theorem serviceFlow_orphan (hab : st.aborted = false)
    (hest : (FlowRun.establish m { st, sock, log := [] }).st.established = true)
    (h : OrphanReset m tun limits now env st sock) :
    FlowEvent.removed ∉ (serviceFlow m tun limits now env st sock).log := by
  rw [serviceFlow_established hab hest]
  refine afterDelivery_orphan h.1 h.2 fun hc => ?_
  rw [deliver_mem (by simp) (by simp), halfClose_mem (by simp)] at hc
  cases (uploaded_mem (by simp) (by simp) hc).1

/-- The flow is not reset for stalling, or it is an orphan that is reset anyway. -/
def flapsOnlyOrphans (m : Smoltcp σ υ) (tun : Tuning) : TurnCond σ := fun limits now env st sock =>
  FlapReset m env st sock → OrphanReset m tun limits now env st sock

/-- Under that condition no turn both resets and removes. -/
theorem serviceFlow_reset_stays (hT : flapsOnlyOrphans m tun limits now env st sock)
    (h : FlowEvent.abort ∈ (serviceFlow m tun limits now env st sock).log) :
    FlowEvent.removed ∉ (serviceFlow m tun limits now env st sock).log := by
  obtain ⟨hab, hest⟩ := established_of_mem (by simp) (by simp) h
  rcases serviceFlow_abort h with hflap | ⟨horphan, -⟩
  · exact serviceFlow_orphan hab hest (hT hflap)
  · exact serviceFlow_orphan hab hest horphan

/-! ### The history of a run -/

/-- Between a reset of flow `id` and its removal there is a poll. -/
def RstOut (id : Nat) (trace : List Event) : Prop :=
  ∀ before after, trace = before ++ .flow id .removed :: after →
    ∀ early late, before = early ++ .flow id .abort :: late →
      ∃ arrived state, Event.polled arrived state ∈ late

variable {id : Nat}

/-- Events without a removal add no prefix that ends before one. -/
theorem beforeRemoval_append {Q : List Event → Prop}
    (h : ∀ before after, t = before ++ .flow id .removed :: after → Q before)
    (hes : Event.flow id .removed ∉ es) :
    ∀ before after, t ++ es = before ++ .flow id .removed :: after → Q before := by
  intro before after heq
  rcases append_split heq with ⟨c, hc⟩ | ⟨c, -, hc⟩
  · exact h before c hc
  · exact absurd (by rw [hc]; simp) hes

theorem RstOut.append (h : RstOut id t) (hes : Event.flow id .removed ∉ es) :
    RstOut id (t ++ es) := beforeRemoval_append h hes

/-- Right after a poll, events that remove the flow only if they do not reset it. -/
theorem RstOut.afterPoll (h : RstOut id (t ++ [.polled arrived state]))
    (hes : Event.flow id .abort ∈ es → Event.flow id .removed ∉ es) :
    RstOut id (t ++ [.polled arrived state] ++ es) := by
  intro before after heq early late hsplit
  rcases append_split heq with ⟨c, hc⟩ | ⟨c, rfl, rfl⟩
  · exact h before c hc early late hsplit
  · have hno : Event.flow id .abort ∉ c := fun hc => hes (by simp [hc]) (by simp)
    rw [append_assoc] at hsplit
    rcases append_eq_append_iff.mp hsplit with ⟨x, rfl, hx⟩ | ⟨x, rfl, hx⟩
    · -- The reset would come after the poll, in `c`.
      have hmem : Event.flow id .abort ∈ [Event.polled arrived state] ++ c := by rw [hx]; simp
      simp [hno] at hmem
    · cases x with
      | nil => simp at hx
      | cons e x =>
        injection hx with _ hx
        exact ⟨arrived, state, by rw [hx]; simp⟩

/-- Nothing but a turn removes a flow. -/
theorem flowSteps_noRemoval {v v' : FlowView σ}
    (h : FlowSteps m tun (fun _ _ _ _ _ => False) id v v') :
    ∃ es, v'.trace = v.trace ++ es ∧ Event.flow id .removed ∉ es := by
  induction h with
  | refl => exact ⟨[], (append_nil _).symm, not_mem_nil⟩
  | @tail u u' _ hstep ih =>
    obtain ⟨es, htrace, hes⟩ := ih
    have hmore : ∀ es', Event.flow id .removed ∉ es' → ∃ es'',
        u.trace ++ es' = v.trace ++ es'' ∧ Event.flow id .removed ∉ es'' := fun es' hes' =>
      ⟨es ++ es', by rw [htrace, append_assoc], by simp [hes, hes']⟩
    cases hstep with
    | other hother => exact hmore _ (flow_notMem_of_other hother)
    | turn _ hT => exact hT.elim
    | handled _ _ | purged _ => exact ⟨es, htrace, hes⟩
    | _ => exact hmore _ (by simp)

/-- Of the calls only `service_tcp` does. -/
theorem step_noRemoval {l : Step σ υ} (hw : Sound w) (hv : l.Valid m w)
    (hl : ∀ ids now env, l ≠ .serviceTcp ids now env) (hstep : step m tun w l = .ok w') (id : Nat) :
    ∃ es, w'.stack.trace = w.stack.trace ++ es ∧ Event.flow id .removed ∉ es := by
  have hT : l.Turns (fun _ _ _ _ _ => False) w := by
    cases l with
    | serviceTcp ids now env => exact absurd rfl (hl ids now env)
    | _ => trivial
  exact flowSteps_noRemoval ((step_flow hw hv hT hstep).2 id)

/-! ### The order of the loop -/

/-- Every `service_tcp` comes directly after a poll. -/
def Paced (steps : List (Step σ υ)) : Prop :=
  ∀ before ids now env after, steps = before ++ .serviceTcp ids now env :: after →
    ∃ before' tcp udp device panicked, before = before' ++ [.poll tcp udp device panicked]

theorem Paced.append (h : Paced steps) (h' : Paced steps') : Paced (steps ++ steps') := by
  intro before ids now env after heq
  rcases append_split heq with ⟨c, hc⟩ | ⟨c, rfl, hc⟩
  · exact h before ids now env c hc
  · obtain ⟨before', tcp, udp, device, panicked, rfl⟩ := h' _ _ _ _ _ hc
    exact ⟨steps ++ before', tcp, udp, device, panicked, by simp⟩

theorem Paced.front (h : Paced steps') (hpre : steps <+: steps') : Paced steps := by
  obtain ⟨rest, rfl⟩ := hpre
  intro before ids now env after heq
  exact h before ids now env (after ++ rest) (by rw [heq]; simp)

theorem LoopPass.paced (p : LoopPass σ υ) : Paced p.steps := by
  intro before ids now env after heq
  match before, heq with
  | [], heq => simp [LoopPass.steps] at heq
  | [l], heq =>
    simp only [LoopPass.steps, cons_append, nil_append, List.cons.injEq] at heq
    exact ⟨[], _, _, _, _, by rw [← heq.1]; rfl⟩
  | l₀ :: l₁ :: before, heq =>
    -- Past its first two calls a pass serves no TCP flow.
    exfalso
    simp only [LoopPass.steps, cons_append, nil_append, List.cons.injEq] at heq
    have hmem : Step.serviceTcp ids now env ∈ .serviceUdp p.udpIds p.udpAnswers ::
        .flushTx p.flushAnswers :: .drainBacklog ::
        .reapWedged p.reapIds p.blockedIds p.stallAt p.wedgeAt ::
        p.queues.filter Step.fromQueue := by
      rw [heq.2.2]
      simp
    simp [Step.fromQueue] at hmem

theorem loop_paced (passes : List (LoopPass σ υ)) : Paced (passes.flatMap LoopPass.steps) := by
  induction passes with
  | nil =>
    intro before ids now env after heq
    simp at heq
  | cons p rest ih =>
    rw [flatMap_cons]
    exact p.paced.append ih

/-! ### Runs of the loop -/

theorem serviceTcp_rstOut {ids : List Nat} {env : Nat → FlowEnv} (hw : Sound w)
    (hv : Step.Valid m w (.serviceTcp ids now env))
    (hT : Step.Turns (flapsOnlyOrphans m tun) w (.serviceTcp ids now env))
    (hstep : step m tun w (.serviceTcp ids now env) = .ok w')
    (hpoll : w.stack.trace = t ++ [.polled arrived state]) (h : RstOut id w.stack.trace) :
    RstOut id w'.stack.trace := by
  obtain ⟨htrace, hmem⟩ := serviceTcp_newEvents id hw hv hstep
  rw [htrace, hpoll]
  rw [hpoll] at h
  refine h.afterPoll fun habort hremoved => ?_
  obtain ⟨st, sock, hconn, ha⟩ := (hmem _).mp habort
  obtain ⟨st', sock', hconn', hr⟩ := (hmem _).mp hremoved
  rw [hconn] at hconn'
  cases hconn'
  exact serviceFlow_reset_stays (hT id st sock hconn) ha hr

/-- **A reset gets its RST out.**  In every run of the loop in which no flow is reset for
stalling except orphans that are reset anyway, no flow is removed before a poll has
followed its reset. -/
theorem reset_polled_before_removal {w : World σ υ} {iface : List IpCidr} {mtu : Nat}
    {limits : TcpLimits} {passes : List (LoopPass σ υ)} {steps : List (Step σ υ)}
    (hloop : steps <+: passes.flatMap LoopPass.steps)
    (hrun : RunsWith m tun (flapsOnlyOrphans m tun) (.spawn iface mtu limits) steps w) :
    ∀ id, RstOut id w.stack.trace := by
  intro id
  have hpaced := (loop_paced passes).front hloop
  clear hloop
  induction hrun with
  | nil =>
    intro before after heq
    simp [World.spawn, NetStack.spawn] at heq
  | @snoc ls w₁ w₂ l hrun hok hstep ih =>
    have ih' := ih (hpaced.front (prefix_append _ _))
    have hw : Sound w₁ := RunsWith.sound (T := flapsOnlyOrphans m tun) hrun
    cases l with
    | serviceTcp ids now env =>
      obtain ⟨before, tcp, udp, device, panicked, rfl⟩ := hpaced ls ids now env [] rfl
      obtain ⟨w₀, -, -, hpoll⟩ := Machine.Run.of_snoc hrun
      cases hpoll
      exact serviceTcp_rstOut hw hok.1 hok.2 hstep rfl ih'
    | _ =>
      obtain ⟨es, htrace, hes⟩ := step_noRemoval hw hok.1 (by simp) hstep id
      rw [htrace]
      exact ih'.append hes

/-- A flow with `n` unacknowledged bytes. -/
private def unacked (n : Nat) : Simple.Socket := { Simple.idle .established with queued := n }

/-- An upload of two bytes of which the first is acknowledged only after four seconds. -/
private def flapping : List Solo.Pass :=
  [⟨unacked 0, 0, [1, 2]⟩, ⟨unacked 0, 0, []⟩, ⟨unacked 2, secs 3, []⟩, ⟨unacked 1, secs 4, []⟩]

/-- A pass whose turn finds the app gone, with a byte that nobody will read. -/
private def abandoned : LoopPass Simple.Socket Unit :=
  { Solo.Pass.loop ⟨{ unacked 0 with rx := [9] }, 0, []⟩ with
    env := fun _ => { Simple.calm with tryReserve := fun _ => .closed }
    queues := [] }

/-- The app writes two bytes and is gone when the flow's next turn comes: the orphan is reset, the
next pass polls, and its turn removes the flow. -/
theorem reset_polled_before_removal_orphan :
    ∃ (passes : List (LoopPass Simple.Socket Unit)) (steps : List (Step Simple.Socket Unit))
      (w : World Simple.Socket Unit),
      steps <+: passes.flatMap LoopPass.steps ∧
      RunsWith Simple.tcp Simple.tuning (flapsOnlyOrphans Simple.tcp Simple.tuning)
        (.spawn [] 1280 Simple.limits) steps w ∧
      Event.flow 1 .abort ∈ w.stack.trace ∧ Event.flow 1 .removed ∈ w.stack.trace ∧
      ∀ id, RstOut id w.stack.trace := by
  let closing : FlowEnv := { Simple.calm with tryReserve := fun _ => .closed }
  let sock : Simple.Socket := { unacked 0 with rx := [9] }
  let c : Solo := Solo.wrote { Solo.up with
    trace := (Solo.first.polled (unacked 0)).trace ++ [.flow 1 (.answered none)] } [1, 2]
  have hopened : RunsWith Simple.tcp Simple.tuning (flapsOnlyOrphans Simple.tcp Simple.tuning)
      (.spawn [] 1280 Simple.limits)
      (Solo.openPass.steps ++ (Solo.Pass.loop ⟨unacked 0, 0, [1, 2]⟩).steps) c.world :=
    (Solo.run_open _).append (Solo.run_pass (c := Solo.first) rfl (fun hflap => nomatch hflap) rfl)
  -- the turn of the third pass resets the orphan and keeps it
  have hstays : (serviceFlow Simple.tcp Simple.tuning Simple.limits 0 closing c.st sock).next.any
      (fun r => r.1.aborted && r.1.handle == 0 &&
        !((FlowRun.establish Simple.tcp { st := r.1, sock := r.2, log := [] }).pushPending
          Simple.tcp Simple.calm).flaps Simple.tcp Simple.calm) = true := by decide +kernel
  have hlog : (serviceFlow Simple.tcp Simple.tuning Simple.limits 0 closing c.st sock).log =
      [.accepted [1, 2], .appGone, .abort] := by decide +kernel
  obtain ⟨⟨st, sock'⟩, hnext, hreset⟩ := (Option.any_eq_true _ _).mp hstays
  simp only [Bool.and_eq_true, beq_iff_eq, Bool.not_eq_true'] at hreset
  obtain ⟨⟨haborted, hhandle⟩, hcalm⟩ := hreset
  have hheld := hopened.append (Solo.run_idle (Solo.run_turn
    (Solo.step_serve (c := c.polled sock) 0 (fun _ => closing) rfl (Solo.serve_of_next hnext hlog))
    rfl ⟨⟨[9], rfl⟩, le_refl _, rfl⟩ (fun hflap => nomatch hflap)))
  -- the next turn finds it aborted
  have hremoved := hheld.append (Solo.run_remove 0 Simple.calm haborted hhandle
    (fun hflap => absurd (hcalm.symm.trans hflap) nofun))
  have hloop : Solo.openPass.steps ++ (Solo.Pass.loop ⟨unacked 0, 0, [1, 2]⟩).steps ++
      abandoned.steps ++ [Solo.pollStep sock', .serviceTcp [1] 0 fun _ => Simple.calm] <+:
      [Solo.openPass, Solo.Pass.loop ⟨unacked 0, 0, [1, 2]⟩, abandoned,
        Solo.Pass.loop ⟨sock', 0, []⟩].flatMap LoopPass.steps := by
    simp only [flatMap_cons, append_assoc, prefix_append_right_inj]
    exact ⟨_, rfl⟩
  refine ⟨_, _, _, hloop, hremoved, ?_, ?_, reset_polled_before_removal hloop hremoved⟩
  · simp [Solo.gone, Solo.polled, Solo.world, Solo.stack, NetStack.log, NetStack.dropTcp]
  · simp [Solo.gone, Solo.polled, Solo.world, Solo.stack, NetStack.log, NetStack.dropTcp]

/-- The loop resets a flow at its second stall and removes it in the same turn. -/
theorem flap_reset_without_rst :
    ∃ (passes : List (LoopPass Simple.Socket Unit)) (steps : List (Step Simple.Socket Unit))
      (w : World Simple.Socket Unit),
      steps <+: passes.flatMap LoopPass.steps ∧
        Runs Simple.tcp Simple.tuning (.spawn [] 1280 Simple.limits) steps w ∧
        ¬ RstOut 1 w.stack.trace := by
  obtain ⟨c, hpasses, hpoll, hnext, hlog⟩ : ∃ c, Solo.first.passes flapping = some c ∧
      (c.st.handle = 0 ∧ Simple.tcp.polled c.sock (unacked 1)) ∧
      (serviceFlow Simple.tcp Simple.tuning Simple.limits (secs 7) (Simple.calmAt (secs 7))
        c.st (unacked 1)).next = none ∧
      (serviceFlow Simple.tcp Simple.tuning Simple.limits (secs 7) (Simple.calmAt (secs 7))
        c.st (unacked 1)).log = [.abort, .removed] :=
    ⟨_, rfl, ⟨rfl, prefix_rfl, le_refl _, rfl⟩, rfl, rfl⟩
  let last : Solo.Pass := ⟨unacked 1, secs 7, []⟩
  refine ⟨Solo.openPass :: (flapping ++ [last]).map Solo.Pass.loop,
    Solo.openPass.steps ++ (flapping.map Solo.Pass.loop).flatMap LoopPass.steps ++
      [Solo.pollStep (unacked 1), .serviceTcp [1] (secs 7) fun _ => Simple.calmAt (secs 7)],
    (c.polled (unacked 1)).gone [.abort, .removed], ?_, ?_, ?_⟩
  · simp only [flatMap_cons, map_append, flatMap_append, append_assoc,
      prefix_append_right_inj]
    exact ⟨_, rfl⟩
  · have hrun : Runs Simple.tcp Simple.tuning (.spawn [] 1280 Simple.limits) _ c.world :=
      (Solo.run_open anyTurn).runs.append (Solo.run_passes hpasses)
    exact hrun.append (Solo.run_turn (T := anyTurn) (Solo.step_serve_gone hpoll.1 hnext hlog)
      hpoll.1 hpoll.2 trivial).runs
  · intro hrst
    obtain ⟨arrived, state, hmem⟩ := hrst ((c.polled (unacked 1)).trace ++ [.flow 1 .abort]) []
      (by rw [append_assoc]; rfl) _ [] rfl
    simp at hmem

end Aether
