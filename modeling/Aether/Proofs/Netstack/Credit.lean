/-
Every byte a writer handed over is somewhere.

On the writer's side `sent` counts what was ingested, what is in the channel, and what
the writer still holds (`Gate.Balanced`).  On the netstack's side what was ingested has
been accepted by the socket, is pending, or waits in the backlog (`Conserved.bytes`),
and what the socket accepted is acknowledged or in its send queue.  The last is an
inequality between two turns, because acknowledgements arrive with a poll and are
published by a turn; right after a turn it is an equality (`serviceFlow_settles`).
-/
import Aether.Proofs.Netstack.App

namespace Aether

open List

variable {σ υ : Type} {m : Smoltcp σ υ} {tun : Tuning} {T : TurnCond σ} {W : WriterCond} {id : Nat}

/-! ### The writer's side -/

/-- What is counted as sent is ingested, in the channel, or in the writer's hand. -/
def Gate.Balanced (g : Gate) : Prop :=
  g.credit.sent = g.ingested + (stream g.channel).length + g.writer.hand.length

variable {q : List DataIn} {g g' : Gate} {now : Nat} {env : FlowEnv} {limits : TcpLimits}
  {st st' : TcpState} {sock sock' : σ} {t : List Event} {v' v : FlowView σ}

theorem stream_eq_nil_of_noTcp (h : ∀ i data, DataIn.tcp i data ∉ q) : stream q = [] := by
  rw [stream, flatMap_eq_nil_iff]
  intro d hd
  cases d with
  | tcp i data => exact absurd hd (h i data)
  | _ => rfl

theorem Gate.Fresh.balanced (h : g.Fresh tun) : g.Balanced := by
  unfold Gate.Balanced
  rw [h.sent, h.ingested, stream_eq_nil_of_noTcp h.channel, h.writer]
  rfl

/-- Only `fetch_add` fills the writer's hand. -/
theorem ReserveStep.next_hand {c : Option FlowCredit} {r : ReserveStep} {p : Writer} (hr : r ≠ .add)
    (h : r.Enabled c p) : (r.next p).hand = [] ∧ p.hand = [] := by
  cases r with
  | add => exact absurd rfl hr
  | _ =>
    cases p <;> first
      | exact ⟨rfl, rfl⟩
      | exact absurd h id

theorem balanced_step (hstep : GateStep tun W id g g') (h : g.Balanced) : g'.Balanced := by
  unfold Gate.Balanced at h ⊢
  cases hstep with
  | published hsent _ _ => rw [← h]; exact hsent
  | delivered hchannel =>
    rw [hchannel, stream_cons, length_append] at h
    simp only
    omega
  | @posted d hd =>
    have hpayload : d.payload = [] := by
      cases d with
      | tcp i data => exact absurd rfl (hd i data)
      | _ => rfl
    simp [h, hpayload]
  | called hidle _ =>
    rw [hidle] at h
    exact h
  | reserved hr henabled _ =>
    obtain ⟨hnext, hhand⟩ := ReserveStep.next_hand hr henabled
    rw [hhand] at h
    simp only
    rw [hnext]
    exact h
  | added hwriter =>
    rw [hwriter] at h
    simp only [FlowCredit.addSent, Writer.hand, length_nil] at h ⊢
    omega
  | pushed hwriter =>
    rw [hwriter] at h
    simp only [Writer.hand, stream_append, stream_cons, stream_nil, DataIn.payload,
      length_append, length_nil, append_nil] at h ⊢
    omega

/-! ### The netstack's side -/

/-- A flow in the middle of its turn, with `n` bytes to account for. -/
structure Ledger (m : Smoltcp σ υ) (n : Nat) (f : FlowRun σ) : Prop where
  bytes : f.st.acceptedTotal + f.st.pending.length = n
  unacked : f.st.credit.acked + m.sendQueue f.sock ≤ f.st.acceptedTotal

/-- Everything accepted is acknowledged or queued. -/
def Settled (m : Smoltcp σ υ) (f : FlowRun σ) : Prop :=
  f.st.credit.acked + m.sendQueue f.sock = f.st.acceptedTotal

/-- The second half of a turn leaves the counters and the send queue alone, resets apart. -/
theorem DownEdit.counters (hq : m.SendQueue) {f g : FlowRun σ} (h : DownEdit m f g)
    (hlog : FlowEvent.abort ∉ g.log) :
    g.st.acceptedTotal = f.st.acceptedTotal ∧ g.st.pending = f.st.pending ∧
      g.st.credit = f.st.credit ∧ m.sendQueue g.sock = m.sendQueue f.sock := by
  cases h with
  | close => exact ⟨rfl, rfl, rfl, hq.close _⟩
  | toApp _ hrecv =>
    have hqueue := hq.recv f.sock
    rw [hrecv] at hqueue
    exact ⟨rfl, rfl, rfl, hqueue⟩
  | recvNone _ hsock _ =>
    rw [← hsock]
    exact ⟨rfl, rfl, rfl, hq.recv f.sock⟩
  | abort => exact absurd (by simp [FlowRun.emit]) hlog
  | _ => exact ⟨rfl, rfl, rfl, rfl⟩

theorem ledger_rule (hq : m.SendQueue) (n : Nat) :
    TurnRule m tun (fun f : FlowRun σ => FlowEvent.abort ∉ f.log → Ledger m n f) := by
  refine TurnRule.unreset fun {f g} hedit hlog h => ?_
  -- What the socket takes moves from `pending` into its queue.
  have hqueue := hq.sendSlice f.sock f.st.pending
  have hle := hq.getD_le f.sock f.st.pending
  have hbytes := h.bytes
  have hunacked := h.unacked
  cases hedit with
  | down hdown =>
    obtain ⟨hacc, hpend, hcredit, hsame⟩ := hdown.counters hq hlog
    refine ⟨?_, ?_⟩
    · rw [hacc, hpend]
      exact hbytes
    · rw [hcredit, hsame, hacc]
      exact hunacked
  | sent _ hn =>
    refine ⟨?_, ?_⟩
    · simp only [length_drop]
      omega
    · simp only [hqueue]
      omega
  | unsent hnone =>
    refine ⟨hbytes, ?_⟩
    simp only [hqueue]
    omega
  | accounted =>
    refine ⟨hbytes, ?_⟩
    simp only [FlowCredit.publish]
    split <;> omega
  | flapped => exact absurd (by simp [FlowRun.resetFlapping]) hlog
  | _ => exact ⟨hbytes, hunacked⟩

/-- The bookkeeping settles the account. -/
theorem account_settles {n : Nat} {f : FlowRun σ} (h : Ledger m n f) :
    Settled m (f.account m tun env) := by
  obtain ⟨_, _, _, _, _, hnote⟩ := FlowRun.noteDrain_frame m env f
  have hunacked := h.unacked
  simp only [Settled, FlowRun.account, hnote, FlowCredit.publish]
  split <;> omega

/-- **After its turn, all that a flow's socket accepted is acknowledged or queued.** -/
theorem serviceFlow_settles (hq : m.SendQueue)
    (hunacked : st.credit.acked + m.sendQueue sock ≤ st.acceptedTotal)
    (hconnecting : st.established = false → st.acceptedTotal = 0)
    (hnext : (serviceFlow m tun limits now env st sock).next = some (st', sock'))
    (hlog : FlowEvent.abort ∉ (serviceFlow m tun limits now env st sock).log) :
    st'.credit.acked + m.sendQueue sock' = st'.acceptedTotal := by
  rcases serviceFlow_cases hnext with ⟨hnew, rfl, rfl⟩ | ⟨hab, hest⟩
  · have hzero := hconnecting hnew
    omega
  · rw [serviceFlow_established hab hest] at hnext hlog
    obtain ⟨hup, hupload⟩ := upload_unreset hest hlog
    -- The ledger is right before the bookkeeping, so it is settled after it.
    have rule : TurnRule m tun _ := ledger_rule hq (st.acceptedTotal + st.pending.length)
    have hledger := rule.pushPending env
      (rule.establish (f := { st, sock, log := [] }) fun _ => ⟨rfl, hunacked⟩)
    have hsettled : Settled m
        ((FlowRun.establish m { st, sock, log := [] }).upload m tun env) := by
      have heq := upload_of_no_abort hupload
      rw [heq] at hupload ⊢
      exact account_settles (hledger hupload)
    have hdown : DownRule m (fun f : FlowRun σ => FlowEvent.abort ∉ f.log → Settled m f) := by
      intro f g hedit h hlog
      obtain ⟨hacc, -, hcredit, hqueue⟩ := hedit.counters hq hlog
      unfold Settled at h ⊢
      rw [hcredit, hqueue, hacc]
      exact h fun hc => hlog (hedit.log_extends.subset hc)
    have hends : (FlowRun.download m limits now env _).Ends _ :=
      hdown.download (fun _ => hsettled) hup
    unfold FlowTurn.Ends at hends
    rw [hnext] at hends
    exact hends hlog

/-! ### One flow over a run -/

/-- A flow that was never reset. -/
structure Conserved (m : Smoltcp σ υ) (id : Nat) (st : TcpState) (sock : σ)
    (waiting : List DataIn) (trace : List Event) : Prop where
  bytes : st.acceptedTotal + st.pending.length + (stream waiting).length =
    (stream (messages id trace)).length
  unacked : st.credit.acked + m.sendQueue sock ≤ st.acceptedTotal
  connecting : st.established = false → st.acceptedTotal = 0

def ConservedView (m : Smoltcp σ υ) (id : Nat) : FlowView σ → Prop :=
  FlowView.Live id (Event.flow id .abort ∈ ·) (Conserved m id)

theorem Conserved.quiet {es : List Event} (h : Conserved m id st sock q t)
    (hopen : Event.openedTcp id ∈ t) (hes : ∀ d, Event.ingested d ∈ es → d.id ≠ id) :
    Conserved m id st sock q (t ++ es) :=
  { h with bytes := by rw [messages_other hopen hes]; exact h.bytes }

theorem Conserved.turn (hq : m.SendQueue) (h : Conserved m id st sock q t)
    (hnext : (serviceFlow m tun limits now env st sock).next = some (st', sock'))
    (hlog : FlowEvent.abort ∉ (serviceFlow m tun limits now env st sock).log) :
    Conserved m id st' sock' q t := by
  have hledger : Ledger m (st.acceptedTotal + st.pending.length)
      { st := st', sock := sock', log := (serviceFlow m tun limits now env st sock).log } :=
    serviceFlow_kept (ledger_rule hq _) (fun _ => ⟨rfl, h.unacked⟩) hnext hlog
  refine ⟨?_, hledger.unacked, fun hest' => ?_⟩
  · rw [← h.bytes]
    exact congrArg (· + (stream q).length) hledger.bytes
  · obtain ⟨rfl, rfl⟩ := serviceFlow_unestablished hnext hest'
    exact h.connecting hest'

theorem conserved_rule (hq : m.SendQueue) :
    LiveRule m tun T id (Event.flow id .abort ∈ ·) (Conserved m id) where
  excused es := mem_append_left es
  other hopen hes h := h.quiet hopen fun d => about_ingested hes
  opened hnew _ _ hconnect := by
    refine ⟨?_, ?_, fun _ => rfl⟩
    · rw [messages_open hnew]
      rfl
    · rw [hq.connect _ _ _ _ _ _ _ _ hconnect]
      exact le_rfl
  turn hopen _ hnext hreset h := by
    rw [mem_append, not_or] at hreset
    exact (h.turn hq hnext fun hc => hreset.2 (mem_map_of_mem hc)).quiet hopen (by simp)
  polled hopen hpolled _ _ h := by
    refine Conserved.quiet { h with unacked := ?_ } hopen (by simp)
    exact le_trans (Nat.add_le_add_left (hq.polled _ _ hpolled) _) h.unacked
  arrived hopen hd h := by
    refine { h with bytes := ?_ }
    rw [messages_ingested hopen hd, stream_append, stream_append, length_append,
      length_append, ← h.bytes]
    exact (Nat.add_assoc _ _ _).symm
  handled {_ _ _ _ _ q _ _} hd h := by
    have hbytes := h.bytes
    have hpending := congrArg length (hd.bytes q)
    obtain ⟨st, hconn, hsame⟩ := hd.frame
    cases hconn
    rw [length_append, length_append] at hpending
    rw [hsame]
    exact ⟨by dsimp only; omega, h.unacked, h.connecting⟩
  reset _ hreset _ := absurd (by simp) hreset

/-! ### The two sides together -/

theorem acked_step (hstep : GateStep tun W id g g') : g.credit.acked ≤ g'.credit.acked := by
  cases hstep with
  | published _ hacked _ => exact hacked
  | _ => exact le_rfl

theorem acked_steps (h : Relation.ReflTransGen (GateStep tun W id) g g') :
    g.credit.acked ≤ g'.credit.acked := by
  induction h with
  | refl => exact le_rfl
  | tail _ hlast ih => exact ih.trans (acked_step hlast)

section

variable {w w' : AppWorld σ υ} {iface : List IpCidr} {mtu : Nat} {limits : TcpLimits}
  {steps : List (AppStep σ υ)}

theorem AppRuns.conserved (hq : m.SendQueue)
    (h : AppRuns m tun (.start iface mtu limits) steps w) (id : Nat) :
    Sound w.world ∧ ConservedView m id (w.world.view id) :=
  h.invariant (P := fun w => Sound w.world ∧ ConservedView m id (w.world.view id))
    ⟨Sound.spawn iface mtu limits, by exact .init id _ _⟩
    (fun t l t' ht hv hstep => by
      obtain ⟨hs, hflow⟩ := appStep_flow ht.1 hv hstep
      exact ⟨hs, (conserved_rule hq).app
        (fun _ h => ⟨h.bytes, h.unacked, h.connecting⟩) (hflow id) ht.2⟩)

variable {st st' : TcpState}

theorem AppRuns.balanced (hq : m.SendQueue) (h : AppRuns m tun (.start iface mtu limits) steps w)
    (hst : w.stack.tcpConns id = some st) :
    st.credit.sent = (stream (messages id w.stack.trace)).length +
      (stream (w.inChannel id)).length + (w.writer id).hand.length :=
  gate_invariant (P := Gate.Balanced) hq.toSendBound id h.any (fun _ hf => hf.balanced)
    (fun _ _ => balanced_step) _ (AppWorld.gate_of_live hst)

/-- What was acknowledged was accepted, and what was accepted was sent. -/
theorem AppRuns.acked_le_sent (hq : m.SendQueue)
    (h : AppRuns m tun (.start iface mtu limits) steps w) (hst : w.stack.tcpConns id = some st) :
    st.credit.acked ≤ st.credit.sent := by
  have hcount := ((h.any.sound hq.toSendBound).live hst).2
  have hacked := hcount.acked
  have hheld := hcount.held
  have hsent := h.balanced hq hst
  omega

theorem appStep_acked (hb : m.SendBound) (hw : AppSound tun w) {l : AppStep σ υ}
    (hv : l.Valid m w) (hstep : appStep m tun w l = .ok w') (hst : w.stack.tcpConns id = some st)
    (hst' : w'.stack.tcpConns id = some st') : st.credit.acked ≤ st'.credit.acked := by
  obtain ⟨-, hgate⟩ := appStep_gate hb hw hv l.writes_any hstep
  have hold := AppWorld.gate_of_live hst
  rcases hgate id _ (AppWorld.gate_of_live hst') with ⟨hnone, -⟩ | ⟨g, hg, hsteps⟩
  · rw [hold] at hnone
    cases hnone
  · rw [hold] at hg
    cases hg
    exact acked_steps hsteps

/-- A pass of `service_tcp` settles every flow it does not reset. -/
theorem serviceTcp_settles (hq : m.SendQueue) (hw : Sound w.world)
    (hview : ConservedView m id (w.world.view id)) {ids : List Nat} {now : Nat}
    {env : Nat → FlowEnv} (hv : AppStep.Valid m w (.stack (.serviceTcp ids now env)))
    (hstep : appStep m tun w (.stack (.serviceTcp ids now env)) = .ok w') {sock' : σ}
    (hconn' : w'.stack.conn id = some (st', sock'))
    (hreset : Event.flow id .abort ∉ w'.stack.trace) :
    st'.credit.acked + m.sendQueue sock' = st'.acceptedTotal := by
  obtain ⟨world, hworld, heq⟩ := Machine.bind_eq_ok.mp hstep
  cases heq
  obtain ⟨r, hr, heq⟩ := Machine.bind_eq_ok.mp hworld
  cases heq
  obtain ⟨hconn, es, hes⟩ | ⟨st, sock, hconn, hnext, es, es', htrace, -, -⟩ :=
    serviceTcp_cases (a := (w.stack, false)) id hv.2 hw.stack hr
  · rw [hes.conn, hconn] at hconn'
    cases hconn'
  · rw [hnext] at hconn'
    have hquiet : Event.flow id .abort ∉ r.1.trace := hreset
    simp only [htrace, mem_append, not_or] at hquiet
    have hold := (hview.live st sock hconn).2 hquiet.1.1.1
    exact serviceFlow_settles hq hold.unacked hold.connecting hconn'
      fun hc => hquiet.1.2 (mem_map_of_mem hc)

/-- **Uplink credit is conserved.**  What is outstanding after a pass of `service_tcp` is
in the channel, in the backlog, pending, or in the socket's send queue; a `send` that is
between its `fetch_add` and the channel holds the rest, which is nothing when sends run
to completion. -/
theorem credit_conserved (hq : m.SendQueue)
    (h : AppRuns m tun (.start iface mtu limits) steps w) :
    (∀ id st, w.stack.tcpConns id = some st → st.credit.acked ≤ st.credit.sent) ∧
    (∀ l w', l.Valid m w → appStep m tun w l = .ok w' →
      ∀ id st st', w.stack.tcpConns id = some st → w'.stack.tcpConns id = some st' →
        st.credit.acked ≤ st'.credit.acked) ∧
    (∀ ids now env w', AppStep.Valid m w (.stack (.serviceTcp ids now env)) →
      appStep m tun w (.stack (.serviceTcp ids now env)) = .ok w' →
      ∀ id st' sock', w'.stack.conn id = some (st', sock') →
        Event.flow id .abort ∉ w'.stack.trace →
        st'.credit.sent - st'.credit.acked =
          (w'.writer id).hand.length + (stream (w'.inChannel id)).length +
          (stream (KeyedQueue.ofKey DataIn.id id w'.world.backlog.queue)).length +
          st'.pending.length + m.sendQueue sock') := by
  refine ⟨fun id st hst => h.acked_le_sent hq hst, fun l w' hv hstep id st st' hst hst' =>
    appStep_acked hq.toSendBound (h.any.sound hq.toSendBound) hv hstep hst hst', ?_⟩
  intro ids now env w' hv hstep id st' sock' hconn' hreset
  have h' : AppRuns m tun (.start iface mtu limits)
      (steps ++ [.stack (.serviceTcp ids now env)]) w' :=
    h.snoc hv hstep
  obtain ⟨hsound, hview⟩ := h.conserved hq id
  have hconserved := ((h'.conserved hq id).2.live st' sock' hconn').2 hreset
  have hbytes : st'.acceptedTotal + st'.pending.length +
      (stream (KeyedQueue.ofKey DataIn.id id w'.world.backlog.queue)).length =
      (stream (messages id w'.stack.trace)).length := hconserved.bytes
  have hsent := h'.balanced hq (NetStack.slot_of_conn hconn').1
  have hsettled := serviceTcp_settles hq hsound hview hv hstep hconn' hreset
  omega

/-- The flow once three bytes have gone through `send` and the channel. -/
private def uploading : Solo := (Solo.up.counting 3).wrote [1, 2, 3]

/-- The pass that hands them to the socket leaves them all in its send queue. -/
theorem credit_conserved_upload :
    ∃ c, uploading.serve Simple.tuning 0 Simple.calm = some c ∧
      c.st.credit.sent - c.st.credit.acked = c.st.pending.length + c.sock.queued ∧
      c.sock.queued = 3 := by
  obtain ⟨c, hc, hh, hqueued, hlog⟩ :
      ∃ c, uploading.serve Simple.tuning 0 Simple.calm = some c ∧ c.st.handle = 0 ∧
        c.sock.queued = 3 ∧ flowLog 1 c.trace = [.answered none, .accepted [1, 2, 3]] :=
    ⟨_, rfl, rfl, rfl, rfl⟩
  obtain ⟨steps, hsent⟩ := Solo.app_sent (W := anyWriter) trivial fun _ _ _ => trivial
  have hrun : AppRuns Simple.tcp Simple.tuning (.start [] 1280 Simple.limits) _
      (uploading.app [] .idle) :=
    (hsent.weaken fun _ _ hok => hok.1).snoc (show AppStep.Valid _ _ .deliver from trivial)
      (Machine.bind_eq_ok.mpr ⟨_, Solo.step_wrote (by decide) (by decide), rfl⟩)
  obtain ⟨-, -, hpass⟩ := credit_conserved Simple.sendQueue hrun
  have hstep := Solo.step_serve (c := uploading) 0 (fun _ => Simple.calm) rfl hc
  have hconn : (c.app [] .idle).stack.conn 1 = some (c.st, c.sock) := by
    rw [AppWorld.stack]
    exact (Solo.conn_eq c hh 1).trans (if_pos rfl)
  have hout := hpass [1] 0 (fun _ => Simple.calm) (c.app [] .idle) ⟨by simp, Solo.keys _⟩
    (Machine.bind_eq_ok.mpr ⟨_, hstep, rfl⟩) 1 c.st c.sock hconn
    (fun hc => by
      have hmem := mem_flowLog.mpr hc
      change FlowEvent.abort ∈ flowLog 1 c.trace at hmem
      rw [hlog] at hmem
      simp at hmem)
  refine ⟨c, hc, ?_, hqueued⟩
  simpa [Solo.app, AppWorld.inChannel, Solo.world, Backlog.empty, Writer.hand,
    Simple.tcp] using hout

end

end Aether
