/-
The upload direction of one flow is a stream.

What the app wrote is in three places: taken by the socket, in `pending`, and in the
backlog.  Put together in that order they are what was ingested, byte for byte
(`Uplink.bytes`), and the backlog is the end of what was ingested, its first message
possibly cut (`Uplink.order`).  Both are kept by every step of the flow: a message
enters at the back, the front moves into `pending`, `pending` moves into the socket.
-/
import Aether.Proofs.Netstack.Flow
import Aether.Proofs.Netstack.History

namespace Aether

open List KeyedQueue

variable {σ υ : Type} {m : Smoltcp σ υ} {tun : Tuning} {T : TurnCond σ} {id : Nat}

/-! ### A turn moves the front of `pending` into the socket -/

variable {env : FlowEnv} {t : List Event} {d : DataIn} {st st' : TcpState} {q : List DataIn}
  {sock' sock : σ}

theorem uplink_rule (p : Bytes) : TurnRule m tun (fun f : FlowRun σ =>
    FlowEvent.abort ∉ f.log → accepted f.log ++ f.st.pending = p) := by
  refine TurnRule.unreset fun {f g} hedit hlog h => ?_
  cases hedit with
  | down hdown =>
    cases hdown with
    | abort => exact absurd (by simp [FlowRun.emit]) hlog
    | _ => simpa [FlowRun.close, FlowRun.emit, accepted] using h
  | @sent n =>
    have htaken : accepted [.accepted (f.st.pending.take n)] = f.st.pending.take n := by
      simp [accepted]
    rw [accepted_append, append_assoc, htaken, take_append_drop]
    exact h
  | flapped => exact absurd (by simp [FlowRun.resetFlapping]) hlog
  | _ => simpa [FlowRun.emit, accepted] using h

/-! ### The backlog is the end of what was ingested -/

/-- The same messages, the first one possibly without its beginning. -/
inductive CutFront : List DataIn → List DataIn → Prop
  | whole (q : List DataIn) : CutFront q q
  | cut (i : Nat) (taken data : Bytes) (q : List DataIn) :
      CutFront (.tcp i (taken ++ data) :: q) (.tcp i data :: q)

namespace CutFront

variable {q q' rest : List DataIn}

theorem append (h : CutFront q q') (r : List DataIn) : CutFront (q ++ r) (q' ++ r) := by
  cases h with
  | whole => exact .whole _
  | cut i taken data q => exact .cut i taken data (q ++ r)

theorem length_eq (h : CutFront q q') : q'.length = q.length := by
  cases h <;> rfl

theorem stream_suffix (h : CutFront q q') : stream q' <:+ stream q := by
  cases h with
  | whole => exact suffix_refl _
  | cut i taken data q => exact ⟨taken, by simp [DataIn.payload]⟩

/-- What a queue that is not cut, or cut, looks like from its front message. -/
theorem front {d : DataIn} (h : CutFront q (d :: rest)) :
    ∃ d', q = d' :: rest ∧
      (d' = d ∨ ∃ i taken data, d' = .tcp i (taken ++ data) ∧ d = .tcp i data) := by
  cases h with
  | whole => exact ⟨d, rfl, Or.inl rfl⟩
  | cut i taken data q => exact ⟨_, rfl, Or.inr ⟨i, taken, data, rfl, rfl⟩⟩

/-- Cutting more off the first message. -/
theorem cutMore {i : Nat} {data : Bytes} (h : CutFront q (.tcp i data :: rest)) (n : Nat) :
    CutFront q (.tcp i (data.drop n) :: rest) := by
  cases h with
  | whole =>
    have := cut i (data.take n) (data.drop n) rest
    rwa [take_append_drop] at this
  | cut _ taken _ _ =>
    have := cut i (taken ++ data.take n) (data.drop n) rest
    rwa [append_assoc, take_append_drop] at this

end CutFront

/-! ### The invariant -/

structure Uplink (id : Nat) (st : TcpState) (waiting : List DataIn) (trace : List Event) :
    Prop where
  bytes : accepted (flowLog id trace) ++ st.pending ++ stream waiting = stream (messages id trace)
  order : ∃ handled rest, messages id trace = handled ++ rest ∧ CutFront rest waiting ∧
    (st.halfClosed = true → DataIn.tcpClose id ∈ handled)

/-- A flow that is there and was never reset has its upload intact. -/
def UplinkView (id : Nat) : FlowView σ → Prop :=
  FlowView.Live id (Event.flow id .abort ∈ ·) fun st _ => Uplink id st

theorem mem_messages (h : d ∈ messages id t) : d.id = id := by
  simp only [messages, mem_filterMap] at h
  obtain ⟨e, -, he⟩ := h
  cases e with
  | ingested d' =>
    simp only [Option.ite_none_right_eq_some, Option.some.injEq] at he
    rw [← he.2]
    exact he.1
  | _ => cases he

/-- Events that do not touch the stream. -/
theorem Uplink.quiet {es : List Event} (h : Uplink id st q t) (hopen : Event.openedTcp id ∈ t)
    (hlog : flowLog id es = []) (hmsg : ∀ d, Event.ingested d ∈ es → d.id ≠ id) :
    Uplink id st q (t ++ es) where
  bytes := by
    rw [flowLog_append, hlog, append_nil, messages_other hopen hmsg]
    exact h.bytes
  order := by
    rw [messages_other hopen hmsg]
    exact h.order

theorem Uplink.arrived (h : Uplink id st q t) (hopen : Event.openedTcp id ∈ t) (hd : d.id = id) :
    Uplink id st (q ++ [d]) (t ++ [.ingested d]) where
  bytes := by
    rw [flowLog_append, flowLog_ingested, append_nil, messages_ingested hopen hd,
      stream_append, stream_append, ← append_assoc, h.bytes]
  order := by
    obtain ⟨handled, rest, hsplit, hcut, hclosed⟩ := h.order
    refine ⟨handled, rest ++ [d], ?_, hcut.append [d], hclosed⟩
    rw [messages_ingested hopen hd, hsplit, append_assoc]

/-- The front message is handled. -/
theorem Uplink.handled {back : Option DataIn} (h : Uplink id st (d :: q) t)
    (hd : FlowHandled tun (some (st, sock)) d (some (st', sock')) back) :
    Uplink id st' (back.toList ++ q) t := by
  refine ⟨?_, ?_⟩
  · rw [append_assoc, hd.bytes, ← append_assoc]
    exact h.bytes
  obtain ⟨handled, rest, hsplit, hcut, hclosed⟩ := h.order
  -- A message that is gone for good moves from `rest` to `handled`.
  have hgone : ∀ hc : st'.halfClosed = true → st.halfClosed = true ∨ ∃ i, d = .tcpClose i,
      ∃ handled' rest', messages id t = handled' ++ rest' ∧ CutFront rest' q ∧
        (st'.halfClosed = true → DataIn.tcpClose id ∈ handled') := by
    intro hc
    obtain ⟨d', rfl, hd'⟩ := hcut.front
    refine ⟨handled ++ [d'], q, by rw [hsplit]; simp, .whole q, fun hst => ?_⟩
    rcases hc hst with hold | ⟨i, rfl⟩
    · exact mem_append_left _ (hclosed hold)
    · have hd'' : d' = .tcpClose i := by
        rcases hd' with hd' | ⟨j, taken, data, -, hd'⟩
        · exact hd'
        · cases hd'
      have hid : i = id := by
        have hmem : d' ∈ messages id t := by rw [hsplit]; simp
        rw [hd''] at hmem
        exact mem_messages hmem
      rw [hd'', hid]
      simp
  cases hd with
  | foreign _ => exact hgone Or.inl
  | full _ => exact ⟨handled, rest, hsplit, hcut, hclosed⟩
  | taken _ => exact hgone Or.inl
  | @split i n data _ _ _ _ => exact ⟨handled, rest, hsplit, hcut.cutMore n, hclosed⟩
  | @halfClosed i _ _ => exact hgone fun _ => Or.inr ⟨i, rfl⟩

/-- The flow's turn. -/
theorem Uplink.turn {limits : TcpLimits} {now : Nat} (h : Uplink id st q t)
    (hopen : Event.openedTcp id ∈ t)
    (hnext : (serviceFlow m tun limits now env st sock).next = some (st', sock'))
    (hreset : FlowEvent.abort ∉ (serviceFlow m tun limits now env st sock).log) :
    Uplink id st' q (t ++ (serviceFlow m tun limits now env st sock).log.map (.flow id)) := by
  have hpending := serviceFlow_kept (uplink_rule st.pending) (fun _ => rfl) hnext hreset
  have hsame := serviceFlow_sameFlow hnext
  have hmsg : messages id (t ++ (serviceFlow m tun limits now env st sock).log.map (.flow id)) =
      messages id t := messages_other hopen (by simp)
  refine ⟨?_, ?_⟩
  · rw [hmsg, flowLog_append, flowLog_map, accepted_append, append_assoc (accepted _)]
    rw [hpending]
    exact h.bytes
  · rw [hmsg, hsame.halfClosed]
    exact h.order

/-- Every step of the flow keeps its upload intact. -/
theorem uplinkView_rule :
    LiveRule m tun T id (Event.flow id .abort ∈ ·) fun st _ => Uplink id st where
  excused es := mem_append_left es
  other hopen hes h := h.quiet hopen (flowLog_other hes) fun d => about_ingested hes
  opened hnew hfresh _ _ := by
    have hlog : flowLog id _ = [] := eq_nil_iff_forall_not_mem.mpr fun e he =>
      hfresh e (mem_flowLog.mp he)
    refine ⟨?_, [], [], messages_open hnew, .whole _, fun hc => by cases hc⟩
    rw [messages_open hnew, flowLog_append, hlog]
    rfl
  turn hopen _ hnext hreset h := by
    rw [mem_append, not_or] at hreset
    exact h.turn hopen hnext fun hc => hreset.2 (mem_map_of_mem hc)
  polled hopen _ _ _ h := h.quiet hopen rfl (by simp)
  arrived hopen hd h := h.arrived hopen hd
  handled hd h := h.handled hd
  reset _ hreset _ := absurd (by simp) hreset

/-- **What the socket took, what is pending and what waits in the backlog is what was
ingested, and the half-close is acted on only when all that came before it has left the
backlog.** -/
theorem uplink_intact {w : World σ υ} {st : TcpState} (h : Reachable m tun w)
    (hlive : w.stack.tcpConns id = some st)
    (hreset : Event.flow id .abort ∉ w.stack.trace) :
    accepted (flowLog id w.stack.trace) ++ st.pending ++
        stream (ofKey DataIn.id id w.backlog.queue) =
      stream (messages id w.stack.trace) ∧
    (st.halfClosed = true → ∃ before after,
      messages id w.stack.trace = before ++ .tcpClose id :: after ∧
      DataIn.tcpClose id ∉ before ∧
      (ofKey DataIn.id id w.backlog.queue).length ≤ after.length ∧
      stream (ofKey DataIn.id id w.backlog.queue) <:+ stream after) := by
  obtain ⟨sock, hconn⟩ := (reachable_tables h).conn hlive
  have hview : UplinkView id (w.view id) :=
    h.flow_invariant id (P := UplinkView id) (.init id _ _)
      (fun v v' hstep hv => uplinkView_rule.step hstep hv)
  obtain ⟨-, hup⟩ := hview.live st sock hconn
  have hu : Uplink id st (ofKey DataIn.id id w.backlog.queue) w.stack.trace := hup hreset
  refine ⟨hu.bytes, fun hhalf => ?_⟩
  obtain ⟨handled, rest, hsplit, hcut, hclosed⟩ := hu.order
  -- The first close among the messages that are handled is the one that counts.
  obtain ⟨before, between, hhandled, hfirst⟩ := eq_append_cons_of_mem (hclosed hhalf)
  refine ⟨before, between ++ rest, ?_, hfirst, ?_, ?_⟩
  · rw [hsplit, hhandled]
    simp
  · rw [length_append]
    exact le_trans (le_of_eq hcut.length_eq) (Nat.le_add_left _ _)
  · rw [stream_append]
    exact hcut.stream_suffix.trans (suffix_append _ _)

/-- Two bytes and a half-close on a flow that is still connecting. -/
theorem uplink_intact_connecting :
    let c := ((Solo.opened Simple.tuning).wrote [1, 2]).halfClosed
    accepted (flowLog 1 c.trace) ++ c.st.pending ++ stream [] = stream (messages 1 c.trace) ∧
      ∃ before after, messages 1 c.trace = before ++ .tcpClose 1 :: after ∧ before ≠ [] := by
  intro c
  have hreach : Reachable Simple.tcp Simple.tuning c.world :=
    (Solo.reachable_wrote (Solo.reachable_opened _) (by decide) (by decide)).step
      (l := .ingest (.tcpClose 1)) trivial Solo.step_halfClosed
  have hlive : c.world.stack.tcpConns 1 = some c.st := rfl
  obtain ⟨hbytes, hclose⟩ := uplink_intact hreach hlive (by simp [c, Solo.world, Solo.stack,
    Solo.opened, Solo.wrote, Solo.halfClosed])
  obtain ⟨before, after, hsplit, -, -⟩ := hclose rfl
  refine ⟨hbytes, before, after, hsplit, ?_⟩
  rintro rfl
  exact absurd hsplit (by simp [c, messages, sinceOpened, Solo.world, Solo.stack, Solo.opened,
    Solo.wrote, Solo.halfClosed])

end Aether
