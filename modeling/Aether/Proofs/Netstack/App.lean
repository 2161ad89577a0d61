/-
What the netstack and the writers do to a flow's gate.

A step of the netstack leaves `sent` alone and only ever raises `acked`, it ingests
nothing but the message it was given, and a flow that was not there before is one
nobody has a sender for.  With that every step of the two sides together is a step of
the gate (`appStep_gate`), and a property of gates that survives `GateStep` holds in
every run (`gate_invariant`).
-/
import Aether.Proofs.Netstack.Flow
import Aether.Proofs.Netstack.History

namespace Aether

open KeyedQueue

open Machine

open List Function

variable {σ υ : Type} {m : Smoltcp σ υ} {tun : Tuning} {T : TurnCond σ} {W : WriterCond} {id : Nat}

/-! ### Nothing is ingested on the side -/

/-- Nothing was ingested since the history was `t`. -/
def Unfed (t : List Event) (s : NetStack σ υ) : Prop :=
  ∃ es, s.trace = t ++ es ∧ ∀ d, Event.ingested d ∉ es

variable {t es : List Event} {w w' : AppWorld σ υ} {l : Step σ υ} {st st' : TcpState}
  {q : List DataIn} {v' v : FlowView σ} {P : Gate → Prop} {g' : Gate} {iface : List IpCidr}
  {limits : TcpLimits}

theorem Unfed.log {s s' : NetStack σ υ} (h : Unfed t s) (es : List Event)
    (htrace : s'.trace = s.trace ++ es) (hes : ∀ d, Event.ingested d ∉ es) : Unfed t s' := by
  obtain ⟨es₀, htrace₀, hes₀⟩ := h
  refine ⟨es₀ ++ es, by rw [htrace, htrace₀, append_assoc], fun d hd => ?_⟩
  rcases mem_append.mp hd with hd | hd
  · exact hes₀ d hd
  · exact hes d hd

theorem unfed_rule (m : Smoltcp σ υ) (tun : Tuning) (t : List Event) :
    StackRule m tun (Unfed t : NetStack σ υ → Prop) where
  poll _ h := h.log [_] rfl (by simp [pollEvent])
  served hs h := by
    cases hs with
    | gone _ => exact h
    | removed _ _ _ | kept _ _ _ => exact h.log _ rfl (by simp)
  servedUdp hs h := by
    cases hs <;> exact h
  handled hd h := h.log [] (by rw [hd.frame.1, append_nil]) (by simp)
  reset hr h := by
    cases hr with
    | gone _ => exact h
    | aborted _ _ => exact h.log _ rfl (by simp)
  commanded _ hc h := by
    cases hc with
    | tcpFailed | tcpOpened _ | udpFailed | udpOpened _ =>
      exact h.log _ (append_assoc _ _ _) (by simp)
    | addrsSet => exact h
  device _ h := h

/-- The message a step ingests. -/
def Step.message : Step σ υ → List DataIn
  | .ingest d => [d]
  | _ => []

/-- A step's history: its message, and then events of other kinds. -/
theorem step_trace {w w' : World σ υ} (hv : l.Valid m w) (hstep : step m tun w l = .ok w') :
    ∃ es, w'.stack.trace = w.stack.trace ++ l.message.map .ingested ++ es ∧
      ∀ d, Event.ingested d ∉ es := by
  have hunfed : Unfed (l.logged w.stack).trace w'.stack :=
    (unfed_rule m tun _).step hv hstep ⟨[], by simp, by simp⟩
  have hlogged : (l.logged w.stack).trace = w.stack.trace ++ l.message.map .ingested := by
    cases l <;> simp [Step.logged, Step.message, NetStack.log]
  rw [hlogged] at hunfed
  exact hunfed

theorem messages_append (hopen : Event.openedTcp id ∈ t) (q : List DataIn) :
    messages id (t ++ q.map .ingested) = messages id t ++ ofKey DataIn.id id q := by
  rw [messages, sinceOpened_append hopen, filterMap_append, filterMap_map]
  congr 1
  change q.filterMap (fun d => if d.id = id then some d else none) = _
  induction q with
  | nil => rfl
  | cons d rest ih =>
    by_cases hd : d.id = id
    · simp [ofKey_cons_self hd, hd, ih]
    · simp [ofKey_cons_other hd, hd, ih]

theorem sinceOpened_sublist (id : Nat) (es : List Event) : (sinceOpened id es).Sublist es := by
  induction es with
  | nil => exact .refl _
  | cons e rest ih =>
    cases e with
    | openedTcp i =>
      simp only [sinceOpened]
      split
      · exact sublist_cons_self _ _
      · exact ih.cons _
    | _ => exact ih.cons _

/-- A flow that is just there has been sent nothing. -/
theorem messages_new (hnew : Event.openedTcp id ∉ t) (hes : ∀ d, Event.ingested d ∉ es) :
    messages id (t ++ es) = [] := by
  rw [messages, sinceOpened_new hnew, filterMap_eq_nil_iff]
  intro e he
  have hmem := (sinceOpened_sublist id es).subset he
  cases e with
  | ingested d => exact absurd hmem (hes d)
  | _ => rfl

/-! ### What the netstack does to a credit -/

/-- Between two moments of a flow: its credit is the same one, or nobody can have
had a sender for it. -/
structure CreditKept (id : Nat) (v₀ v : FlowView σ) : Prop where
  trace : v₀.trace <+: v.trace
  conn : ∀ st sock, v.conn = some (st, sock) →
    (∃ st₀ sock₀, v₀.conn = some (st₀, sock₀) ∧ st.credit.sent = st₀.credit.sent ∧
      st₀.credit.acked ≤ st.credit.acked) ∨
    (Event.openedTcp id ∉ v₀.trace ∧ (∀ e, Event.flow id e ∉ v₀.trace) ∧ st.credit.sent = 0)

namespace CreditKept

variable {v₀ v v' : FlowView σ}

theorem refl (id : Nat) (v : FlowView σ) : CreditKept id v v where
  trace := prefix_refl _
  conn st sock h := Or.inl ⟨st, sock, h, rfl, le_rfl⟩

/-- A step that writes no more than the netstack's part of the credit. -/
theorem writes (h : CreditKept id v₀ v) (htrace : v.trace <+: v'.trace)
    (hconn : ∀ st' sock', v'.conn = some (st', sock') → ∃ st sock, v.conn = some (st, sock) ∧
      st'.credit.sent = st.credit.sent ∧ st.credit.acked ≤ st'.credit.acked) :
    CreditKept id v₀ v' where
  trace := h.trace.trans htrace
  conn st' sock' hst' := by
    obtain ⟨st, sock, hst, hsent, hacked⟩ := hconn st' sock' hst'
    rcases h.conn st sock hst with ⟨st₀, sock₀, h₀, hsent₀, hacked₀⟩ | ⟨hnew, hfresh, hsent₀⟩
    · exact Or.inl ⟨st₀, sock₀, h₀, hsent.trans hsent₀, hacked₀.trans hacked⟩
    · exact Or.inr ⟨hnew, hfresh, hsent.trans hsent₀⟩

/-- A step that leaves the entry alone. -/
theorem idle (h : CreditKept id v₀ v) (htrace : v.trace <+: v'.trace) (hconn : v'.conn = v.conn) :
    CreditKept id v₀ v' :=
  h.writes htrace fun st sock hst => ⟨st, sock, hconn ▸ hst, rfl, le_rfl⟩

theorem step (h : CreditKept id v₀ v) (hstep : FlowStep m tun T id v v') :
    CreditKept id v₀ v' := by
  cases hstep with
  | other _ => exact h.idle (prefix_append _ _) rfl
  | opened hconn _ hnew hfresh _ =>
    refine ⟨h.trace.trans (prefix_append _ _), fun st sock hst => ?_⟩
    cases hst
    exact Or.inr ⟨fun hc => hnew (h.trace.subset hc), fun e hc => hfresh e (h.trace.subset hc), rfl⟩
  | turn hconn _ =>
    refine h.writes (prefix_append _ _) fun st' sock' hst' => ?_
    have hsame := serviceFlow_sameFlow hst'
    exact ⟨_, _, hconn, hsame.sent, hsame.acked⟩
  | polled hconn _ _ _ =>
    refine h.writes (prefix_append _ _) fun st' sock' hst' => ?_
    cases hst'
    exact ⟨_, _, hconn, rfl, le_rfl⟩
  | polledGone _ _ _ | arrived _ => exact h.idle (prefix_append _ _) rfl
  | handled _ hd =>
    refine h.writes (prefix_refl _) fun st' sock' hst' => ?_
    simp only at hst'
    rw [hst'] at hd
    obtain ⟨st, hst, heq⟩ := hd.frame
    refine ⟨st, sock', hst, ?_⟩
    rw [heq]
    exact ⟨rfl, le_rfl⟩
  | reset hconn =>
    refine h.writes (prefix_append _ _) fun st' sock' hst' => ?_
    cases hst'
    exact ⟨_, _, hconn, rfl, le_rfl⟩
  | purged _ => exact h.idle (prefix_refl _) rfl

theorem steps (h : FlowSteps m tun T id v v') : CreditKept id v v' := by
  induction h with
  | refl => exact refl id v
  | tail _ hlast ih => exact ih.step hlast

end CreditKept

/-! ### What a flow holds -/

/-- The counts of a flow in the middle of its turn, where it has `n` bytes to account for. -/
structure Tally (tun : Tuning) (n : Nat) (f : FlowRun σ) : Prop where
  held : f.st.acceptedTotal + f.st.pending.length ≤ n
  acked : f.st.credit.acked ≤ f.st.acceptedTotal
  cap : f.st.credit.cap ≤ maxBudget tun

theorem publish_cap_le (c : FlowCredit) (acked measured : Nat) :
    (c.publish acked (FlowRun.uplinkBudget tun measured)).cap ≤ maxBudget tun := by
  simp only [FlowCredit.publish, FlowRun.uplinkBudget, maxBudget]
  omega

theorem publish_acked_le {c : FlowCredit} {n acked cap : Nat} (h : c.acked ≤ n) (h' : acked ≤ n) :
    (c.publish acked cap).acked ≤ n := by
  unfold FlowCredit.publish
  split
  · exact h'
  · exact h

theorem tally_rule (hb : m.SendBound) (n : Nat) :
    TurnRule m tun (Tally tun n : FlowRun σ → Prop) := by
  intro f g hedit h
  cases hedit with
  | down hdown => cases hdown <;> exact ⟨h.held, h.acked, h.cap⟩
  | sent _ hn =>
    have hsent := hb.getD_le f.sock f.st.pending
    have hheld := h.held
    have hacked := h.acked
    refine ⟨?_, ?_, h.cap⟩
    · simp only [length_drop]
      omega
    · simp only
      omega
  | accounted => exact ⟨h.held, publish_acked_le h.acked (Nat.sub_le _ _), publish_cap_le _ _ _⟩
  | flapped =>
    refine ⟨?_, h.acked, h.cap⟩
    exact le_trans (Nat.le_add_right _ _) h.held
  | _ => exact ⟨h.held, h.acked, h.cap⟩

/-- A flow holds no more than was ingested for it, and what is acknowledged was
accepted. -/
structure Counted (tun : Tuning) (id : Nat) (st : TcpState) (waiting : List DataIn)
    (trace : List Event) : Prop where
  held : st.acceptedTotal + st.pending.length + (stream waiting).length ≤
    (stream (messages id trace)).length
  acked : st.credit.acked ≤ st.acceptedTotal
  cap : st.credit.cap ≤ maxBudget tun

def CountedView (tun : Tuning) (id : Nat) : FlowView σ → Prop :=
  FlowView.Live id (fun _ => False) fun st _ => Counted tun id st

/-- Events that bring the flow nothing. -/
theorem Counted.quiet (h : Counted tun id st q t) (hopen : Event.openedTcp id ∈ t)
    (hes : ∀ d, Event.ingested d ∈ es → d.id ≠ id) : Counted tun id st q (t ++ es) :=
  { h with held := by rw [messages_other hopen hes]; exact h.held }

theorem counted_rule (hb : m.SendBound) :
    LiveRule m tun T id (fun _ => False) fun st _ => Counted tun id st where
  excused _ h := h
  other hopen hes h := h.quiet hopen fun d => about_ingested hes
  opened _ _ _ _ := ⟨Nat.zero_le _, le_rfl, Nat.le_max_right _ _⟩
  turn hopen _ hnext _ h := by
    have hnew := serviceFlow_kept (tally_rule hb _) ⟨le_rfl, h.acked, h.cap⟩ hnext
    refine Counted.quiet ⟨?_, hnew.acked, hnew.cap⟩ hopen (by simp)
    exact le_trans (Nat.add_le_add_right hnew.held _) h.held
  polled hopen _ _ _ h := h.quiet hopen (by simp)
  arrived hopen hd h := by
    refine { h with held := ?_ }
    have hheld := h.held
    rw [messages_ingested hopen hd]
    simp only [stream_append, length_append]
    omega
  handled {_ _ _ _ _ q _ _} hd h := by
    have hheld := h.held
    have hbytes := congrArg length (hd.bytes q)
    obtain ⟨st, hconn, hsame⟩ := hd.frame
    cases hconn
    rw [length_append, length_append] at hbytes
    rw [hsame]
    exact ⟨by dsimp only; omega, h.acked, h.cap⟩
  reset hopen _ h := by
    refine Counted.quiet ⟨?_, h.acked, h.cap⟩ hopen (by simp)
    exact le_trans (by simp [Nat.add_assoc]) h.held

/-! ### The two sides together -/

/-- A flow as the netstack and its writer change it. -/
inductive AppFlowStep (m : Smoltcp σ υ) (tun : Tuning) (id : Nat) : FlowView σ → FlowView σ → Prop
  | stack {v v' : FlowView σ} (h : FlowStep m tun anyTurn id v v') : AppFlowStep m tun id v v'
  | sent {v : FlowView σ} {st : TcpState} {sock : σ} (len : Nat)
      (hconn : v.conn = some (st, sock)) :
      AppFlowStep m tun id v
        { v with conn := some ({ st with credit := st.credit.addSent len }, sock) }

abbrev AppFlowSteps (m : Smoltcp σ υ) (tun : Tuning) (id : Nat) : FlowView σ → FlowView σ → Prop :=
  Relation.ReflTransGen (AppFlowStep m tun id)

theorem FlowSteps.app (h : FlowSteps m tun anyTurn id v v') : AppFlowSteps m tun id v v' :=
  Relation.ReflTransGen.mono (fun _ _ => AppFlowStep.stack) _ _ h

theorem AppFlowSteps.trace (h : AppFlowSteps m tun id v v') : v.trace <+: v'.trace := by
  induction h with
  | refl => exact prefix_refl _
  | tail _ hlast ih =>
    cases hlast with
    | stack hstep => exact ih.trans ((CreditKept.refl id _).step hstep).trace
    | sent _ _ => exact ih

/-- What survives the steps of the netstack and a `fetch_add` survives both sides. -/
theorem LiveRule.app {R : List Event → Prop} {P : TcpState → σ → List DataIn → List Event → Prop}
    (r : LiveRule m tun anyTurn id R P)
    (hsent : ∀ {st sock q t} (len : Nat), P st sock q t →
      P { st with credit := st.credit.addSent len } sock q t)
    (hsteps : AppFlowSteps m tun id v v') (h : v.Live id R P) : v'.Live id R P := by
  induction hsteps with
  | refl => exact h
  | tail _ hlast ih =>
    cases hlast with
    | stack hstep => exact r.step hstep ih
    | sent len hconn =>
      refine ⟨ih.fresh, fun st sock hst => ?_⟩
      cases hst
      obtain ⟨hopen, hP⟩ := ih.live _ _ hconn
      exact ⟨hopen, fun hR => hsent len (hP hR)⟩

/-- What holds of the two sides together; before a connection is handed out nobody
writes to it. -/
structure AppSound (tun : Tuning) (w : AppWorld σ υ) : Prop where
  sound : Sound w.world
  counted : ∀ id, CountedView tun id (w.world.view id)
  unborn : ∀ id, Event.flow id (.answered none) ∉ w.stack.trace →
    w.writer id = .idle ∧ ∀ i data, DataIn.tcp i data ∉ w.inChannel id

theorem AppSound.start (iface : List IpCidr) (mtu : Nat) (limits : TcpLimits) :
    AppSound tun (AppWorld.start iface mtu limits : AppWorld σ υ) where
  sound := Sound.spawn iface mtu limits
  counted id := FlowView.Live.init id _ _
  unborn _ _ := ⟨rfl, by simp [AppWorld.inChannel, AppWorld.start, ofKey]⟩

/-- The counts of a flow that is there. -/
theorem CountedView.live {w : World σ υ} (h : CountedView tun id (w.view id)) (hw : Sound w)
    (hst : w.stack.tcpConns id = some st) : Event.openedTcp id ∈ w.stack.trace ∧
      Counted tun id st (ofKey DataIn.id id w.backlog.queue) w.stack.trace := by
  obtain ⟨sock, hconn⟩ := hw.stack.toTables.conn hst
  obtain ⟨hopen, hcounted⟩ := FlowView.Live.live h st sock hconn
  exact ⟨hopen, hcounted not_false⟩

theorem AppSound.live (hw : AppSound tun w) (hst : w.stack.tcpConns id = some st) :
    Event.openedTcp id ∈ w.stack.trace ∧
      Counted tun id st (ofKey DataIn.id id w.world.backlog.queue) w.stack.trace :=
  (hw.counted id).live hw.sound hst

/-- What a step of the netstack does to the flow behind a gate. -/
theorem step_credit {w w' : World σ υ} (hw : Sound w) (hv : l.Valid m w)
    (hstep : step m tun w l = .ok w') (hst' : w'.stack.tcpConns id = some st')
    (hopen : ∀ st, w.stack.tcpConns id = some st → Event.openedTcp id ∈ w.stack.trace) :
    (∃ st, w.stack.tcpConns id = some st ∧ st'.credit.sent = st.credit.sent ∧
      st.credit.acked ≤ st'.credit.acked ∧ messages id w'.stack.trace =
        messages id w.stack.trace ++ ofKey DataIn.id id l.message) ∨
    (w.stack.tcpConns id = none ∧ Event.flow id (.answered none) ∉ w.stack.trace ∧
      st'.credit.sent = 0 ∧ messages id w'.stack.trace = []) := by
  obtain ⟨hw', hflow⟩ := step_flow (T := anyTurn) hw hv (l.turns_any w) hstep
  have hkept := CreditKept.steps (hflow id)
  obtain ⟨es, htrace, hes⟩ := step_trace hv hstep
  obtain ⟨sock', hconn'⟩ := hw'.stack.toTables.conn hst'
  rcases hkept.conn st' sock' hconn' with
    ⟨st, sock, hconn, hsent, hacked⟩ | ⟨hnew, hfresh, hsent⟩
  · have hst := (NetStack.slot_of_conn hconn).1
    refine Or.inl ⟨st, hst, hsent, hacked, ?_⟩
    rw [htrace, messages_other (mem_append_left _ (hopen st hst))
      (fun d hd => absurd hd (hes d)), messages_append (hopen st hst)]
  · have hgone : w.stack.tcpConns id = none :=
      Option.eq_none_iff_forall_ne_some.mpr fun st hst => hnew (hopen st hst)
    refine Or.inr ⟨hgone, hfresh _, hsent, ?_⟩
    rw [htrace]
    refine messages_new (fun hc => ?_) hes
    rcases mem_append.mp hc with hc | hc
    · exact hnew hc
    · simp at hc

/-! ### `fetch_add` on the shared credit -/

namespace AppWorld

variable {w : AppWorld σ υ}

theorem addSent_frame (w : AppWorld σ υ) (i len : Nat) :
    (w.addSent i len).writer = w.writer ∧ (w.addSent i len).channel = w.channel ∧
      (w.addSent i len).stack.trace = w.stack.trace := by
  unfold addSent
  split <;> exact ⟨rfl, rfl, rfl⟩

theorem addSent_sound (hw : Sound w.world) (i len : Nat) : Sound (w.addSent i len).world := by
  unfold addSent
  split
  · exact hw
  · rename_i st hst
    have ht : Tables (w.stack.setTcp i { st with credit := st.credit.addSent len }) :=
      hw.stack.toTables.setTcp hst rfl
    exact hw.setStack (hw.stack.same ht rfl rfl) le_rfl

theorem addSent_flow (hw : Sound w.world) (i len id : Nat) :
    AppFlowSteps m tun id (w.world.view id) ((w.addSent i len).world.view id) := by
  unfold addSent
  split
  · exact .refl
  · rename_i st hst
    by_cases hid : id = i
    · subst hid
      obtain ⟨sock, hconn⟩ := hw.stack.toTables.conn hst
      have hconn' : (w.stack.setTcp id { st with credit := st.credit.addSent len }).conn id =
          some ({ st with credit := st.credit.addSent len }, sock) :=
        Tables.conn_setTcp hconn rfl
      refine .single ?_
      rw [World.view, World.view, view_eq hconn' rfl, view_eq hconn rfl]
      exact .sent len rfl
    · rw [World.view, World.view, view_eq (Tables.conn_setTcp_other _ hid) rfl]
      exact .refl

theorem gate_addSent (w : AppWorld σ υ) (i len id : Nat) :
    (w.addSent i len).gate id =
      (w.gate id).map fun g => if id = i then { g with credit := g.credit.addSent len } else g := by
  unfold addSent
  split
  · rename_i hst
    by_cases hid : id = i
    · simp [gate, hid, hst]
    · simp [hid]
  · rename_i st hst
    by_cases hid : id = i
    · subst hid
      simp only [gate, hst, if_true, Option.map_some]
      simp [AppWorld.stack, NetStack.setTcp, inChannel]
    · simp only [gate, hid, if_false]
      simp [AppWorld.stack, NetStack.setTcp, inChannel, hid, comp_def]

theorem gate_setWriter (w : AppWorld σ υ) (i : Nat) (p : Writer) (id : Nat) :
    (w.setWriter i p).gate id =
      (w.gate id).map fun g => if id = i then { g with writer := p } else g := by
  by_cases hid : id = i
  · simp [gate, hid, setWriter, comp_def, AppWorld.stack, inChannel]
  · simp [gate, hid, setWriter, comp_def, AppWorld.stack, inChannel]

/-! ### Gates -/

theorem gate_of_live {st : TcpState} (h : w.stack.tcpConns id = some st) :
    w.gate id = some
      { credit := st.credit
        ingested := (stream (messages id w.stack.trace)).length
        channel := w.inChannel id
        writer := w.writer id } := by
  rw [gate, h]
  rfl

theorem inChannel_append (w : AppWorld σ υ) (d : DataIn) (id : Nat) :
    ofKey DataIn.id id (w.channel ++ [d]) =
      w.inChannel id ++ if d.id = id then [d] else [] := by
  rw [ofKey_append, inChannel]
  by_cases hd : d.id = id
  · rw [ofKey_cons_self hd, ofKey_nil, if_pos hd]
  · rw [ofKey_cons_other hd, ofKey_nil, if_neg hd]

theorem gate_post (w : AppWorld σ υ) (d : DataIn) (id : Nat) :
    gate { w with channel := w.channel ++ [d] } id = (w.gate id).map fun g =>
      { g with channel := g.channel ++ if d.id = id then [d] else [] } := by
  rw [gate, gate, Option.map_map, inChannel, inChannel_append]
  rfl

theorem gate_writer {g : Gate} (h : w.gate id = some g) : g.writer = w.writer id := by
  obtain ⟨st, -, rfl⟩ := Option.map_eq_some_iff.mp h
  rfl

end AppWorld

/-! ### Whole steps -/

/-- What a step of the two sides does. -/
inductive AppEdit (m : Smoltcp σ υ) (tun : Tuning) (W : WriterCond) (w : AppWorld σ υ) :
    AppWorld σ υ → Prop
  | same : AppEdit m tun W w w
  /-- A step of the netstack, with the messages it takes off the front of the channel. -/
  | world {l : Step σ υ} {world : World σ υ} {rest : List DataIn} (hv : l.Valid m w.world)
      (hstep : step m tun w.world l = .ok world) (hchannel : w.channel = l.message ++ rest) :
      AppEdit m tun W w { w with world, channel := rest }
  | posted {d : DataIn} (hd : ∀ i data, d ≠ .tcp i data) :
      AppEdit m tun W w { w with channel := w.channel ++ [d] }
  | moved {i : Nat} {p : Writer}
      (hborn : w.writer i = .idle → Event.flow i (.answered none) ∈ w.stack.trace)
      (hgate : ∀ g, w.gate i = some g → GateStep tun W i g { g with writer := p }) :
      AppEdit m tun W w (w.setWriter i p)
  | added {i : Nat} {data : Bytes} (hwriter : w.writer i = .admitted data) :
      AppEdit m tun W w ((w.addSent i data.length).setWriter i (.holding data))
  | pushed {i : Nat} {data : Bytes} (hwriter : w.writer i = .holding data) :
      AppEdit m tun W w { w.setWriter i .idle with channel := w.channel ++ [.tcp i data] }

theorem appStep_edit {l : AppStep σ υ} (hv : l.Valid m w) (hW : l.Writes W)
    (hstep : appStep m tun w l = .ok w') : AppEdit m tun W w w' := by
  cases l with
  | stack l =>
    obtain ⟨world, hworld, heq⟩ := bind_eq_ok.mp hstep
    cases heq
    refine .world hv.2 hworld ?_
    cases l with
    | ingest d => exact absurd rfl (hv.1 d)
    | _ => rfl
  | deliver =>
    simp only [appStep] at hstep
    split at hstep
    · cases hstep
      exact .same
    · rename_i d rest hchannel
      obtain ⟨world, hworld, heq⟩ := bind_eq_ok.mp hstep
      cases heq
      exact .world (l := .ingest d) trivial hworld hchannel
  | post d =>
    cases hstep
    exact .posted hv
  | send i data =>
    cases hstep
    refine .moved (fun _ => hv.2) fun g hg => .called ?_ hW
    exact (AppWorld.gate_writer hg).trans hv.1
  | reserve i r =>
    have henabled : r.Enabled (w.credit i) (w.writer i) := hv
    simp only [appStep] at hstep
    split at hstep
    · rename_i hwriter
      cases hstep
      exact .added hwriter
    · rename_i r _ _ hadd
      cases hstep
      refine .moved (fun hidle => by rw [hidle] at henabled; cases r <;> cases henabled)
        fun g hg => ?_
      obtain ⟨st, hst, rfl⟩ := Option.map_eq_some_iff.mp hg
      rw [AppWorld.credit, hst, Option.map_some] at henabled
      refine .reserved ?_ henabled hW
      rintro rfl
      -- `fetch_add` is only enabled once the writer is admitted.
      cases hw : w.writer i with
      | admitted data => exact hadd data rfl hw
      | _ => rw [hw] at henabled; exact henabled
  | push i =>
    obtain ⟨data, hwriter⟩ := hv
    simp only [appStep, hwriter] at hstep
    cases hstep
    exact .pushed hwriter

theorem AppStep.writes_any (l : AppStep σ υ) : l.Writes anyWriter := by
  cases l <;> trivial

/-- A step of the two sides is netstack steps and `fetch_add`s for every flow. -/
theorem appStep_flow {l : AppStep σ υ} (hw : Sound w.world) (hv : l.Valid m w)
    (hstep : appStep m tun w l = .ok w') :
    Sound w'.world ∧ ∀ id, AppFlowSteps m tun id (w.world.view id) (w'.world.view id) := by
  cases appStep_edit hv l.writes_any hstep with
  | world hv hworld _ =>
    obtain ⟨hs, hflow⟩ := step_flow (T := anyTurn) hw hv (Step.turns_any _ _) hworld
    exact ⟨hs, fun id => FlowSteps.app (hflow id)⟩
  | added _ => exact ⟨AppWorld.addSent_sound hw _ _, AppWorld.addSent_flow hw _ _⟩
  | _ => exact ⟨hw, fun _ => .refl⟩

/-- What becomes of a gate: the flow is new, or the gate took steps. -/
def GateAfter (tun : Tuning) (W : WriterCond) (id : Nat) (old : Option Gate) (g' : Gate) : Prop :=
  (old = none ∧ g'.Fresh tun) ∨
    ∃ g, old = some g ∧ Relation.ReflTransGen (GateStep tun W id) g g'

theorem GateAfter.keeps {old : Option Gate} (h : GateAfter tun W id old g')
    (hold : ∀ g, old = some g → P g) (hfresh : ∀ g, g.Fresh tun → P g)
    (hkeep : ∀ g g', GateStep tun W id g g' → P g → P g') : P g' := by
  rcases h with ⟨-, hnew⟩ | ⟨g, hg, hsteps⟩
  · exact hfresh g' hnew
  · have hP := hold g hg
    induction hsteps with
    | refl => exact hP
    | tail _ hlast ih => exact hkeep _ _ hlast ih

/-- A step of the netstack, with the messages it takes off the front of the channel. -/
theorem world_gate {world : World σ υ} {rest : List DataIn} (hw : AppSound tun w)
    (hv : l.Valid m w.world) (hstep : step m tun w.world l = .ok world)
    (hchannel : w.channel = l.message ++ rest) (hw' : Sound world)
    (hcounted : CountedView tun id (world.view id))
    (hg : AppWorld.gate { w with world, channel := rest } id = some g') :
    GateAfter tun W id (w.gate id) g' := by
  obtain ⟨st', hst', rfl⟩ := Option.map_eq_some_iff.mp hg
  have hcap' : st'.credit.cap ≤ maxBudget tun := (hcounted.live hw' hst').2.cap
  have hq : w.inChannel id = ofKey DataIn.id id l.message ++ ofKey DataIn.id id rest := by
    rw [AppWorld.inChannel, hchannel, ofKey_append]
  rcases step_credit hw.sound hv hstep hst' (fun st hst => (hw.live hst).1) with
    ⟨st, hst, hsent, hacked, hmessages⟩ | ⟨hgone, hnew, hsent, hmessages⟩
  · refine Or.inr ⟨_, AppWorld.gate_of_live hst, .head (.published hsent hacked hcap') ?_⟩
    have hlen : (stream (messages id world.stack.trace)).length =
        (stream (messages id w.stack.trace)).length +
          (stream (ofKey DataIn.id id l.message)).length := by
      rw [hmessages, stream_append, length_append]
    show Relation.ReflTransGen (GateStep tun W id) _
      { credit := st'.credit
        ingested := (stream (messages id world.stack.trace)).length
        channel := ofKey DataIn.id id rest
        writer := w.writer id }
    rw [hlen, hq]
    -- At most one message is taken, and it is this flow's or not.
    cases l with
    | ingest d =>
      by_cases hd : d.id = id
      · simp only [Step.message, ofKey_cons_self hd, ofKey_nil]
        refine .single ?_
        have hdelivered : GateStep tun W id _ _ := .delivered
          (g := { credit := st'.credit
                  ingested := (stream (messages id w.stack.trace)).length
                  channel := d :: ofKey DataIn.id id rest
                  writer := w.writer id }) rfl
        simpa using hdelivered
      · simp only [Step.message, ofKey_cons_other hd, ofKey_nil]
        exact .refl
    | _ => exact .refl
  · obtain ⟨hidle, hempty⟩ := hw.unborn id hnew
    refine Or.inl ⟨by rw [AppWorld.gate, hgone]; rfl, hsent, hcap', ?_, fun i data hmem => ?_,
      hidle⟩
    · show (stream (messages id world.stack.trace)).length = 0
      rw [hmessages]
      rfl
    · exact hempty i data (hq ▸ mem_append_right _ hmem)

theorem appStep_unborn {l : AppStep σ υ} (hw : AppSound tun w) (hv : l.Valid m w)
    (hstep : appStep m tun w l = .ok w') (hid : Event.flow id (.answered none) ∉ w'.stack.trace) :
    w'.writer id = .idle ∧ ∀ i data, DataIn.tcp i data ∉ w'.inChannel id := by
  have htrace : w.stack.trace <+: w'.stack.trace :=
    AppFlowSteps.trace ((appStep_flow hw.sound hv hstep).2 id)
  have hnew := fun hc => hid (htrace.subset hc)
  obtain ⟨hidle, hempty⟩ := hw.unborn id hnew
  have hother : ∀ {i p}, w.writer i = p → p ≠ .idle → id ≠ i := by
    rintro i p hwriter hp rfl
    exact hp (hwriter.symm.trans hidle)
  cases appStep_edit hv l.writes_any hstep with
  | same => exact ⟨hidle, hempty⟩
  | world _ _ hchannel =>
    refine ⟨hidle, fun i data hmem => hempty i data ?_⟩
    rw [AppWorld.inChannel, hchannel, ofKey_append]
    exact mem_append_right _ hmem
  | posted hd =>
    refine ⟨hidle, fun i data hmem => ?_⟩
    rw [AppWorld.inChannel, AppWorld.inChannel_append, mem_append] at hmem
    rcases hmem with hmem | hmem
    · exact hempty i data hmem
    · split at hmem
      · exact hd i data (mem_singleton.mp hmem).symm
      · cases hmem
  | @moved i p hborn _ =>
    have hne : id ≠ i := by
      rintro rfl
      exact hnew (hborn hidle)
    exact ⟨(update_of_ne hne _ _).trans hidle, hempty⟩
  | @added i data hwriter =>
    obtain ⟨hsame, hchannel, -⟩ := w.addSent_frame i data.length
    have hstill := (congrFun hsame id).trans hidle
    refine ⟨(update_of_ne (hother hwriter (by simp)) _ _).trans hstill, ?_⟩
    rw [AppWorld.inChannel, AppWorld.setWriter, hchannel]
    exact hempty
  | pushed hwriter =>
    have hne := hother hwriter (by simp)
    refine ⟨(update_of_ne hne _ _).trans hidle, ?_⟩
    rw [AppWorld.inChannel, AppWorld.setWriter, AppWorld.inChannel_append, DataIn.id_tcp,
      if_neg hne.symm, append_nil]
    exact hempty

/-- **A step of the netstack or of a writer is a step of every gate.** -/
theorem appStep_gate (hb : m.SendBound) {l : AppStep σ υ} (hw : AppSound tun w) (hv : l.Valid m w)
    (hW : l.Writes W) (hstep : appStep m tun w l = .ok w') :
    AppSound tun w' ∧
      ∀ id g', w'.gate id = some g' → GateAfter tun W id (w.gate id) g' := by
  obtain ⟨hs, hflow⟩ := appStep_flow hw.sound hv hstep
  have hcounted : ∀ id, CountedView tun id (w'.world.view id) := fun id =>
    (counted_rule hb).app (fun _ h => ⟨h.held, h.acked, h.cap⟩) (hflow id) (hw.counted id)
  refine ⟨⟨hs, hcounted, fun id => appStep_unborn hw hv hstep⟩, fun id g' hg => ?_⟩
  cases appStep_edit hv hW hstep with
  | same => exact Or.inr ⟨g', hg, .refl⟩
  | world hv hworld hchannel => exact world_gate hw hv hworld hchannel hs (hcounted id) hg
  | posted hd =>
    rw [AppWorld.gate_post] at hg
    obtain ⟨g, hold, rfl⟩ := Option.map_eq_some_iff.mp hg
    refine Or.inr ⟨g, hold, ?_⟩
    split
    · exact .single (.posted hd)
    · rw [append_nil]
  | @moved i p _ hgate =>
    rw [AppWorld.gate_setWriter] at hg
    obtain ⟨g, hold, rfl⟩ := Option.map_eq_some_iff.mp hg
    refine Or.inr ⟨g, hold, ?_⟩
    split
    · next hid =>
        subst hid
        exact .single (hgate g hold)
    · exact .refl
  | @added i data hwriter =>
    rw [AppWorld.gate_setWriter, AppWorld.gate_addSent, Option.map_map] at hg
    obtain ⟨g, hold, rfl⟩ := Option.map_eq_some_iff.mp hg
    refine Or.inr ⟨g, hold, ?_⟩
    by_cases hid : id = i
    · subst hid
      simp only [comp_apply, if_true]
      exact .single (.added ((AppWorld.gate_writer hold).trans hwriter))
    · simp only [comp_apply, if_neg hid]
      exact .refl
  | @pushed i data hwriter =>
    have hpost := (w.setWriter i .idle).gate_post (.tcp i data) id
    rw [AppWorld.gate_setWriter, Option.map_map] at hpost
    obtain ⟨g, hold, rfl⟩ := Option.map_eq_some_iff.mp (hpost.symm.trans hg)
    refine Or.inr ⟨g, hold, ?_⟩
    rw [comp_apply, DataIn.id_tcp]
    by_cases hid : id = i
    · subst hid
      simp only [if_true]
      exact .single (.pushed ((AppWorld.gate_writer hold).trans hwriter))
    · simp only [if_neg hid, if_neg (Ne.symm hid), append_nil]
      exact .refl

/-! ### Runs -/

theorem AppRunsWith.sound (hb : m.SendBound) {mtu : Nat} {steps : List (AppStep σ υ)}
    (h : AppRunsWith m tun W (.start iface mtu limits) steps w) : AppSound tun w :=
  h.invariant (AppSound.start iface mtu limits)
    (fun _ _ _ hw hok hstep => (appStep_gate hb hw hok.1 hok.2 hstep).1)

/-- **What holds of a fresh gate and survives its steps, holds in every run.** -/
theorem gate_invariant (hb : m.SendBound) (id : Nat) {mtu : Nat} {steps : List (AppStep σ υ)}
    (hrun : AppRunsWith m tun W (.start iface mtu limits) steps w)
    (hfresh : ∀ g, g.Fresh tun → P g) (hkeep : ∀ g g', GateStep tun W id g g' → P g → P g') :
    ∀ g, w.gate id = some g → P g := by
  have hboth : AppSound tun w ∧ ∀ g, w.gate id = some g → P g :=
    hrun.invariant (P := fun w => AppSound tun w ∧ ∀ g, w.gate id = some g → P g)
      ⟨AppSound.start iface mtu limits, fun g hg => by cases hg⟩
      (fun t l t' ht hok hstep => by
        obtain ⟨hs, hgate⟩ := appStep_gate hb ht.1 hok.1 hok.2 hstep
        exact ⟨hs, fun g' hg' => (hgate id g' hg').keeps ht.2 hfresh hkeep⟩)
  exact hboth.2

theorem AppRuns.any {w₀ : AppWorld σ υ} {steps : List (AppStep σ υ)}
    (h : AppRuns m tun w₀ steps w) : AppRunsWith m tun anyWriter w₀ steps w :=
  h.weaken fun _ l hv => ⟨hv, l.writes_any⟩

end Aether
