/-
What a flow's peer sent and what its app was given.

Between turns the bytes received are the bytes delivered and the receive queue, in
that order.  A connection that is over is removed at the end of a turn without a look
at that queue, so a download is complete only if the turn that finds its socket Closed
or in TimeWait can still empty the queue: the reader has room for all of it, and it
is no more than one turn's chunks.
-/
import Aether.Proofs.Netstack.Closing

namespace Aether

open List

variable {σ υ : Type} {m : Smoltcp σ υ} {tun : Tuning} {limits : TcpLimits} {now : Nat}
  {env : FlowEnv} {id : Nat}

/-! ### One turn -/

/-- The bytes in the queue are taken out of its front. -/
theorem rx_rule (hr : m.RecvQueue) (b : Bytes) :
    TurnRule m tun (fun f : FlowRun σ => delivered f.log ++ m.rx f.sock = b) := by
  intro f g hedit h
  cases hedit with
  | down hdown =>
    cases hdown with
    | toApp hcan hrecv =>
      obtain ⟨c, hc, -, hsplit⟩ := hr.recv f.sock ((hr.canRecv _).mp hcan)
      rw [hrecv] at hc hsplit
      cases hc
      rw [hsplit] at h
      simpa [delivered] using h
    | recvNone hcan _ hnone =>
      obtain ⟨c, hc, hne, -⟩ := hr.recv f.sock ((hr.canRecv _).mp hcan)
      rw [hc] at hnone
      exact absurd hnone hne
    | _ => simpa [FlowRun.close, FlowRun.emit, delivered, hr.close, hr.abort] using h
  | _ => simpa [FlowRun.emit, FlowRun.resetFlapping, delivered, hr.sendSlice, hr.abort] using h

/-- No block of a turn removes the flow; its end does. -/
theorem noRemoval_rule : TurnRule m tun (fun f : FlowRun σ => FlowEvent.removed ∉ f.log) := by
  intro f g hedit h
  cases hedit with
  | down hdown => cases hdown <;> simpa [FlowRun.close, FlowRun.emit] using h
  | _ => simpa [FlowRun.emit, FlowRun.resetFlapping] using h

/-- Reads empty the queue: at most `budget` of them, each with room in the channel. -/
def Drains (m : Smoltcp σ υ) (answers : Nat → TryReserve) (budget delivered : Nat) (sock : σ) :
    Prop :=
  ∃ n ≤ budget, m.rx ((fun k => (m.recv k).2)^[n] sock) = [] ∧
    ∀ i < n, answers (delivered + i) = .permit

theorem deliver_drains (hr : m.RecvQueue) {answers : Nat → TryReserve} :
    ∀ (budget delivered : Nat) (f : FlowRun σ), Drains m answers budget delivered f.sock →
      m.rx (f.deliver m answers budget delivered).1.sock = [] := by
  intro budget
  induction budget with
  | zero =>
    rintro delivered f ⟨n, hn, hrx, -⟩
    obtain rfl := Nat.le_zero.mp hn
    exact hrx
  | succ budget ih =>
    rintro delivered f ⟨n, hn, hrx, hpermit⟩
    rw [FlowRun.deliver]
    by_cases hempty : m.rx f.sock = []
    · -- Nothing to read, whatever the channel says.
      have hcan : ¬ m.canRecv f.sock = true := fun hc => (hr.canRecv _).mp hc hempty
      cases answers delivered with
      | full => exact hempty
      | closed => exact hempty
      | permit =>
        simp only [if_neg hcan]
        exact hempty
    · cases n with
      | zero => exact absurd hrx hempty
      | succ n =>
        have hfirst : answers delivered = .permit := hpermit 0 (Nat.succ_pos n)
        obtain ⟨chunk, hc, hne, -⟩ := hr.recv f.sock hempty
        obtain ⟨b, chunk, rfl⟩ := exists_cons_of_ne_nil hne
        have hrecv : m.recv f.sock = (some (b :: chunk), (m.recv f.sock).2) :=
          Prod.ext hc rfl
        rw [hfirst]
        simp only [if_pos ((hr.canRecv _).mpr hempty)]
        rw [hrecv]
        refine ih (delivered + 1) _ ⟨n, Nat.le_of_succ_le_succ hn, hrx, fun i hi => ?_⟩
        rw [Nat.add_right_comm]
        exact hpermit (i + 1) (Nat.succ_lt_succ hi)

/-- The connection is over as far as the netstack is concerned. -/
def Tcp.State.over : Tcp.State → Bool
  | closed | timeWait => true
  | _ => false

variable {s s' : Tcp.State} {st : TcpState} {sock sock' : σ} {t es : List Event}
  {arrived : Nat → Bytes} {state : Nat → Option Tcp.State} {v : FlowView σ}

theorem Tcp.State.over_of_afterClose (hpast : s.pastHandshake = true)
    (h : s.afterClose.over = true) : s.over = true := by
  revert hpast h
  cases s <;> decide

theorem Tcp.State.afterClose_of_over (h : s.over = true) : s.afterClose = s := by
  revert h
  cases s <;> decide

theorem Tcp.State.over_iff : s.over = true ↔ s = .closed ∨ s = .timeWait := by
  cases s <;> decide

/-- A socket that is over takes no data and is not closed again. -/
theorem upload_sock_of_over (hs : m.States) {f : FlowRun σ}
    (hover : (m.state f.sock).over = true)
    (hlog : FlowEvent.abort ∉ (f.upload m tun env).log) :
    ((f.upload m tun env).halfClose m).sock = f.sock := by
  have hpush : (f.pushPending m env).sock = f.sock := by
    have hcan : ¬ m.canSend f.sock = true := by
      intro hc
      rcases hs.canSend _ hc with h | h <;> rw [h] at hover <;> cases hover
    simp only [FlowRun.pushPending, if_neg hcan]
    split <;> rfl
  have hupload : (f.upload m tun env).sock = f.sock := by
    rw [upload_of_no_abort hlog]
    exact hpush
  unfold FlowRun.halfClose
  split
  · change m.close (f.upload m tun env).sock = f.sock
    rw [hupload]
    exact hs.closeAgain _ (Tcp.State.afterClose_of_over hover)
  · exact hupload

/-- The turns that find a connection over can still empty its receive queue; a connect
that is refused left nothing in it. -/
def drainsFinished (m : Smoltcp σ υ) : TurnCond σ := fun _ _ env st sock =>
  (m.state sock).over = true →
    if st.established = true then Drains m env.tryReserve maxRecvChunks 0 sock else m.rx sock = []

/-- A turn that removes an attached flow found its connection over. -/
theorem serviceFlow_over (hs : m.States) (hab : st.aborted = false)
    (hpast : (m.state sock).pastHandshake = true)
    (hest : (FlowRun.establish m { st, sock, log := [] }).st.established = true)
    (happ : FlowEvent.appGone ∉ (serviceFlow m tun limits now env st sock).log)
    (hreset : FlowEvent.abort ∉ (serviceFlow m tun limits now env st sock).log)
    (hnext : (serviceFlow m tun limits now env st sock).next = none) :
    (m.state sock).over = true := by
  rw [serviceFlow_established hab hest] at happ hreset hnext
  obtain ⟨hest', hnoabort⟩ := upload_unreset hest hreset
  rw [download_attached hest' happ, FlowRun.finish_eq (FlowRun.deliver_established m env hest')]
    at hnext
  have hstate : m.state ((FlowRun.establish m { st, sock, log := [] }).upload m tun env).sock =
      m.state sock := by
    rw [upload_of_no_abort hnoabort]
    exact (pushPending_state hs).trans (congrArg m.state FlowRun.establish_sock)
  have hover : (m.state (((FlowRun.establish m { st, sock, log := [] }).upload m tun
      env).halfClose m).sock).over = true := by
    rw [← deliver_state hs env.tryReserve maxRecvChunks 0]
    split at hnext
    · cases hnext
    · split at hnext
      · rename_i hclosed
        exact Tcp.State.over_iff.mpr hclosed
      · cases hnext
  unfold FlowRun.halfClose at hover
  split at hover
  · refine Tcp.State.over_of_afterClose hpast ?_
    rw [← hstate, ← hs.close]
    exact hover
  · rwa [hstate] at hover

/-- It delivers everything that was in the queue. -/
theorem serviceFlow_drained (hs : m.States) (hr : m.RecvQueue)
    (hT : drainsFinished m limits now env st sock) (hab : st.aborted = false)
    (hpast : (m.state sock).pastHandshake = true)
    (hest : (FlowRun.establish m { st, sock, log := [] }).st.established = true)
    (happ : FlowEvent.appGone ∉ (serviceFlow m tun limits now env st sock).log)
    (hreset : FlowEvent.abort ∉ (serviceFlow m tun limits now env st sock).log)
    (hnext : (serviceFlow m tun limits now env st sock).next = none) :
    delivered (serviceFlow m tun limits now env st sock).log = m.rx sock := by
  have hover := serviceFlow_over hs hab hpast hest happ hreset hnext
  -- A connection that is over was not just established by this turn.
  have hold : st.established = true := by
    rw [FlowRun.establish_established] at hest
    rcases Tcp.State.over_iff.mp hover with h | h <;> simpa [h] using hest
  have hdrains : Drains m env.tryReserve maxRecvChunks 0 sock := by
    have := hT hover
    rwa [if_pos hold] at this
  rw [serviceFlow_established hab hest] at happ hreset hnext ⊢
  obtain ⟨hest', hnoabort⟩ := upload_unreset hest hreset
  have hover' : (m.state (FlowRun.establish m { st, sock, log := [] }).sock).over = true := by
    rw [FlowRun.establish_sock]
    exact hover
  have hsock := (upload_sock_of_over hs hover' hnoabort).trans FlowRun.establish_sock
  have hempty := deliver_drains hr maxRecvChunks 0
    (((FlowRun.establish m { st, sock, log := [] }).upload m tun env).halfClose m)
    (by rw [hsock]; exact hdrains)
  have hrule : TurnRule m tun _ := rx_rule hr (m.rx sock)
  have hbytes := hrule.down.deliver env.tryReserve maxRecvChunks 0 (hrule.down.halfClose
    (hrule.upload env (hrule.establish (f := { st, sock, log := [] }) rfl)))
  rw [hempty, append_nil] at hbytes
  rw [download_attached hest' happ, FlowRun.finish_log (FlowRun.deliver_established m env hest'),
    delivered_append, hbytes]
  -- What the end of the turn logs is no chunk.
  split
  · simp [delivered]
  · split <;> simp [delivered]

/-! ### The histories -/

/-- The peer's FIN has been seen. -/
def FinSeen (id : Nat) (trace : List Event) : Prop :=
  ∃ arrived state s, Event.polled arrived state ∈ trace ∧ state id = some s ∧
    s.finReceived = true

/-- The flow was removed, if at all, only after every byte its socket received had been
sent to the app; unless its app was gone, it was reset, or its peer sent no FIN. -/
def Untruncated (id : Nat) (trace : List Event) : Prop :=
  ∀ before after, trace = before ++ .flow id .removed :: after →
    Event.flow id .appGone ∉ before → Event.flow id .abort ∉ before → FinSeen id before →
    received id before = delivered (flowLog id before)

theorem received_append (t t' : List Event) :
    received id (t ++ t') = received id t ++ received id t' := by
  simp [received]

theorem received_polled (arrived : Nat → Bytes) (state : Nat → Option Tcp.State) :
    received id [.polled arrived state] = arrived id := by
  simp [received]

/-- Only polls bring bytes. -/
theorem received_quiet (h : ∀ arrived state, Event.polled arrived state ∉ es) :
    received id es = [] := by
  rw [received, flatMap_eq_nil_iff]
  intro e he
  cases e with
  | polled arrived state => exact absurd he (h arrived state)
  | _ => rfl

theorem FinSeen.of_append_quiet (hes : ∀ arrived state, Event.polled arrived state ∉ es)
    (h : FinSeen id (t ++ es)) : FinSeen id t := by
  obtain ⟨arrived, state, s, hmem, hstate⟩ := h
  rcases mem_append.mp hmem with hmem | hmem
  · exact ⟨arrived, state, s, hmem, hstate⟩
  · exact absurd hmem (hes arrived state)

theorem FinSeen.of_append_polled (h : FinSeen id (t ++ [.polled arrived state])) :
    FinSeen id t ∨ ∃ s, state id = some s ∧ s.finReceived = true := by
  obtain ⟨arrived', state', s, hmem, hstate⟩ := h
  rcases mem_append.mp hmem with hmem | hmem
  · exact Or.inl ⟨arrived', state', s, hmem, hstate⟩
  · cases mem_singleton.mp hmem
    exact Or.inr ⟨s, hstate⟩

theorem polled_notMem_of_other (h : ∀ e ∈ es, e.about id = false) (arrived : Nat → Bytes)
    (state : Nat → Option Tcp.State) : Event.polled arrived state ∉ es := by
  intro hc
  have := h _ hc
  cases this

theorem polled_notMem_flow (id : Nat) (es : List FlowEvent) (arrived : Nat → Bytes)
    (state : Nat → Option Tcp.State) : Event.polled arrived state ∉ es.map (Event.flow id) := by
  simp

theorem Untruncated.append (h : Untruncated id t) (hes : Event.flow id .removed ∉ es) :
    Untruncated id (t ++ es) := beforeRemoval_append h hes

/-- One more removal. -/
theorem Untruncated.removed (h : Untruncated id t)
    (hlast : Event.flow id .appGone ∉ t → Event.flow id .abort ∉ t → FinSeen id t →
      received id t = delivered (flowLog id t)) :
    Untruncated id (t ++ [.flow id .removed]) := by
  intro before after heq
  rcases append_split heq with ⟨c, hc⟩ | ⟨c, rfl, hc⟩
  · exact h before c hc
  · cases c with
    | nil =>
      rw [append_nil]
      exact hlast
    | cons e c => simp at hc

/-! ### The invariant -/

/-- The states of a socket that nobody has closed yet. -/
def Tcp.State.notClosing : Tcp.State → Bool
  | finWait1 | finWait2 | closing | lastAck | timeWait => false
  | _ => true

theorem Tcp.State.notClosing_leadsTo (h : s.notClosing = true) (hs : s.leadsTo s' = true) :
    s'.notClosing = true := by
  revert h hs
  cases s <;> cases s' <;> decide

theorem Tcp.State.ended_leadsTo (h : s = .closeWait ∨ s = .closed) (hs : s.leadsTo s' = true) :
    s' = .closeWait ∨ s' = .closed := by
  revert h hs
  cases s <;> cases s' <;> decide

theorem Tcp.State.closeWait_of_fin (h : s.notClosing = true) (hfin : s.finReceived = true) :
    s = .closeWait := by
  revert h hfin
  cases s <;> decide

structure Downlink (m : Smoltcp σ υ) (id : Nat) (st : TcpState) (sock : σ)
    (trace : List Event) : Prop where
  bytes : received id trace = delivered (flowLog id trace) ++ m.rx sock
  connecting : st.established = false → (m.state sock).notClosing = true
  ended : st.established = false → FinSeen id trace →
    m.state sock = .closeWait ∨ m.state sock = .closed

/-- Events that bring and deliver nothing. -/
theorem Downlink.quiet (h : Downlink m id st sock t) (es : List Event)
    (hlog : delivered (flowLog id es) = [])
    (hes : ∀ arrived state, Event.polled arrived state ∉ es) :
    Downlink m id st sock (t ++ es) where
  bytes := by
    rw [received_append, received_quiet hes, append_nil, flowLog_append, delivered_append,
      hlog, append_nil]
    exact h.bytes
  connecting := h.connecting
  ended hest hfin := h.ended hest (hfin.of_append_quiet hes)

theorem Downlink.turn (hr : m.RecvQueue) {st' : TcpState} (h : Downlink m id st sock t)
    (hnext : (serviceFlow m tun limits now env st sock).next = some (st', sock')) :
    Downlink m id st' sock'
      (t ++ (serviceFlow m tun limits now env st sock).log.map (.flow id)) := by
  have hbytes := serviceFlow_kept (rx_rule hr (m.rx sock)) rfl hnext
  have hquiet := polled_notMem_flow id (serviceFlow m tun limits now env st sock).log
  refine ⟨?_, fun hest => ?_, fun hest hfin => ?_⟩
  · rw [received_append, received_quiet hquiet, append_nil, flowLog_append, flowLog_map,
      delivered_append, append_assoc, hbytes]
    exact h.bytes
  · obtain ⟨rfl, rfl⟩ := serviceFlow_unestablished hnext hest
    exact h.connecting hest
  · obtain ⟨rfl, rfl⟩ := serviceFlow_unestablished hnext hest
    exact h.ended hest (hfin.of_append_quiet hquiet)

/-- The turn that removes a flow, as far as the download goes. -/
theorem Downlink.removal (hs : m.States) (hr : m.RecvQueue) (hl : Lifecycle m id st sock t)
    (h : Downlink m id st sock t) (hT : drainsFinished m limits now env st sock)
    (hnext : (serviceFlow m tun limits now env st sock).next = none)
    (happ : Event.flow id .appGone ∉ t)
    (happ' : FlowEvent.appGone ∉ (serviceFlow m tun limits now env st sock).log)
    (hreset : FlowEvent.abort ∉ (serviceFlow m tun limits now env st sock).log)
    (hfin : FinSeen id t) :
    delivered (serviceFlow m tun limits now env st sock).log = m.rx sock := by
  have hab : st.aborted = false := by
    by_contra hc
    exact happ (hl.aborted (by simpa using hc))
  cases hest : (FlowRun.establish m { st, sock, log := [] }).st.established with
  | true =>
    have hpast : (m.state sock).pastHandshake = true := by
      rw [FlowRun.establish_established] at hest
      simp only [Bool.or_eq_true, beq_iff_eq] at hest
      rcases hest with hest | hest | hest
      · exact hl.handshake hest
      · rw [hest]; rfl
      · rw [hest]; rfl
    exact serviceFlow_drained hs hr hT hab hpast hest happ' hreset hnext
  | false =>
    -- The FIN came before the connection was ever seen up, and then a reset.
    rw [FlowRun.establish_established] at hest
    simp only [Bool.or_eq_false_iff, beq_eq_false_iff_ne] at hest
    have hclosed : m.state sock = .closed := by
      rcases h.ended hest.1 hfin with hcw | hclosed
      · exact absurd hcw hest.2.2
      · exact hclosed
    have hrx := hT (by rw [hclosed]; rfl)
    rw [if_neg (by simp [hest.1])] at hrx
    have hunest : (FlowRun.establish m { st, sock, log := [] }).st.established = false := by
      rw [FlowRun.establish_established]
      simp [hest.1, hclosed]
    rw [hrx, delivered, flatMap_eq_nil_iff]
    intro e he
    rcases serviceFlow_connecting_log hab hunest he with rfl | ⟨error, rfl⟩
    · rfl
    · rfl

theorem untruncated_turn (hs : m.States) (hr : m.RecvQueue) (hl : Lifecycle m id st sock t)
    (hd : Downlink m id st sock t) (hT : Event.flow id .appGone ∉ t → Event.flow id .abort ∉ t →
      drainsFinished m limits now env st sock) (h : Untruncated id t) :
    Untruncated id (t ++ (serviceFlow m tun limits now env st sock).log.map (.flow id)) := by
  cases hnext : (serviceFlow m tun limits now env st sock).next with
  | some r =>
    have hkept := serviceFlow_kept noRemoval_rule (by simp) hnext
    exact h.append (by simpa using hkept)
  | none =>
    obtain ⟨f, hnone, hlog⟩ := serviceFlow_removed noRemoval_rule (by simp) hnext
    rw [hlog, map_append, ← append_assoc]
    refine (h.append (by simpa using hnone)).removed fun happ hreset hfin => ?_
    simp only [mem_append, not_or] at happ hreset
    have hnew : ∀ e, e ≠ .removed → Event.flow id e ∉ f.log.map (.flow id) →
        e ∉ (serviceFlow m tun limits now env st sock).log := by
      intro e hne hmem hc
      rw [hlog, mem_append] at hc
      rcases hc with hc | hc
      · exact hmem (mem_map_of_mem hc)
      · exact hne (mem_singleton.mp hc)
    have hquiet := polled_notMem_flow id f.log
    have hall := hd.removal hs hr hl (hT happ.1 hreset.1) hnext happ.1 (hnew _ (by simp) happ.2)
      (hnew _ (by simp) hreset.2) (hfin.of_append_quiet hquiet)
    rw [received_append, received_quiet hquiet, append_nil, hd.bytes, flowLog_append,
      flowLog_map, delivered_append, ← hall, hlog, delivered_append]
    simp [delivered]

theorem downlink_rule (hs : m.States) (hr : m.RecvQueue) :
    LiveRule m tun T id (fun _ => False) fun st sock _ => Downlink m id st sock where
  excused _ h := h
  other _ hes h := h.quiet _ (by rw [flowLog_other hes]; rfl) (polled_notMem_of_other hes)
  opened {t _ _ _ _ _ _} _ hfresh hunpolled hconnect := by
    have hlog : flowLog id t = [] := eq_nil_iff_forall_not_mem.mpr fun e he =>
      hfresh e (mem_flowLog.mp he)
    have hrx : received id t = [] := by
      rw [received, flatMap_eq_nil_iff]
      intro e he
      cases e with
      | polled arrived state => exact (hunpolled arrived state he).1
      | _ => rfl
    have hquiet : ∀ arrived state, Event.polled arrived state ∉ [Event.openedTcp id] := by simp
    refine ⟨?_, fun _ => ?_, fun _ hfin => ?_⟩
    · rw [received_append, hrx, received_quiet hquiet, flowLog_append, hlog,
        hr.connect _ _ _ _ _ _ _ _ hconnect]
      rfl
    · rw [hs.connect _ _ _ _ _ _ _ _ hconnect]
      rfl
    · obtain ⟨arrived, state, s, hmem, hstate, -⟩ := hfin.of_append_quiet hquiet
      cases (hunpolled arrived state hmem).2.symm.trans hstate
  turn _ _ hnext _ h := h.turn hr hnext
  polled _ hpolled harrived hstate h := by
    have hleads := hs.polled _ _ hpolled
    refine ⟨?_, fun hest => ?_, fun hest hfin => ?_⟩
    · obtain ⟨new, hnew⟩ := hr.polled _ _ hpolled
      rw [← hnew, drop_left] at harrived
      rw [received_append, received_polled, h.bytes, harrived, ← hnew, flowLog_append,
        flowLog_polled, append_nil, append_assoc]
    · exact Tcp.State.notClosing_leadsTo (h.connecting hest) hleads
    · rcases hfin.of_append_polled with hfin | ⟨s, hs', hfin⟩
      · exact Tcp.State.ended_leadsTo (h.ended hest hfin) hleads
      · cases hstate.symm.trans hs'
        exact Or.inl (Tcp.State.closeWait_of_fin
          (Tcp.State.notClosing_leadsTo (h.connecting hest) hleads) hfin)
  arrived _ _ h := h.quiet _ rfl (by simp)
  handled hd h := by
    obtain ⟨st, hconn, hsame⟩ := hd.frame
    cases hconn
    rw [hsame]
    exact ⟨h.bytes, h.connecting, h.ended⟩
  reset _ _ h := by
    have hold := h.quiet [.flow id .abort] (by simp [delivered]) (by simp)
    refine ⟨?_, fun _ => ?_, fun _ _ => Or.inr (hs.abort _)⟩
    · rw [hr.abort]
      exact hold.bytes
    · rw [hs.abort]
      rfl

/-- The turns of flow `id` meet `T`, up to the one that finds its app gone or resets it. -/
def Step.TurnsOf (T : TurnCond σ) (id : Nat) (w : World σ υ) : Step σ υ → Prop
  | .serviceTcp _ now env => ∀ st sock, w.stack.conn id = some (st, sock) →
      Event.flow id .appGone ∉ w.stack.trace → Event.flow id .abort ∉ w.stack.trace →
      T w.stack.tcpLimits now (env id) st sock
  | _ => True

theorem Step.Turns.of_all {T : TurnCond σ} {w : World σ υ} {l : Step σ υ} (h : l.Turns T w)
    (id : Nat) : l.TurnsOf T id w := by
  cases l with
  | serviceTcp ids now env => exact fun st sock hconn _ _ => h id st sock hconn
  | _ => trivial

/-- What is known of flow `id` in every run. -/
structure Downloading (m : Smoltcp σ υ) (id : Nat) (w : World σ υ) : Prop where
  sound : Sound w
  flags : (w.view id).Live id (fun _ => False) fun st sock _ => Lifecycle m id st sock
  live : (w.view id).Live id (fun _ => False) fun st sock _ => Downlink m id st sock

variable {w w' : World σ υ} {l : Step σ υ}

theorem Downloading.step (hs : m.States) (hr : m.RecvQueue) (h : Downloading m id w)
    (hv : l.Valid m w) (hstep : step m tun w l = .ok w') : Downloading m id w' := by
  obtain ⟨hsound, hsteps⟩ := step_flow (T := anyTurn) h.sound hv (l.turns_any w) hstep
  exact ⟨hsound, (lifecycleView_rule hs).flowSteps (hsteps id) h.flags,
    (downlink_rule hs hr).flowSteps (hsteps id) h.live⟩

theorem Downloading.untruncated_step (hs : m.States) (hr : m.RecvQueue) (h : Downloading m id w)
    (hv : l.Valid m w) (hT : l.TurnsOf (drainsFinished m) id w)
    (hstep : Aether.step m tun w l = .ok w') (hdone : Untruncated id w.stack.trace) :
    Untruncated id w'.stack.trace := by
  cases l with
  | serviceTcp ids now env =>
    obtain ⟨r, hr', heq⟩ := Machine.bind_eq_ok.mp hstep
    cases heq
    obtain ⟨-, es, hes⟩ | ⟨st, sock, hconn, -, es, es', htrace, hes, hes'⟩ :=
      serviceTcp_cases (a := (w.stack, false)) id hv h.sound.stack hr'
    · rw [show r.1.trace = _ from hes.trace]
      exact hdone.append (flow_notMem_of_other hes.notAbout)
    · have hflags := (h.flags.live st sock hconn).2 not_false
      have hlive := (h.live.live st sock hconn).2 not_false
      -- events of other flows stand before the turn
      have hbefore : ∀ e, Event.flow id e ∉ w.stack.trace ++ es → Event.flow id e ∉ w.stack.trace :=
        fun e hmem hold => hmem (mem_append_left _ hold)
      rw [show r.1.trace = _ from htrace]
      refine Untruncated.append ?_ (flow_notMem_of_other hes')
      exact untruncated_turn hs hr (hflags.quiet _ (flow_notMem_of_other hes))
        (hlive.quiet _ (by rw [flowLog_other hes]; rfl) (polled_notMem_of_other hes))
        (fun happ hreset => hT st sock hconn (hbefore _ happ) (hbefore _ hreset))
        (hdone.append (flow_notMem_of_other hes))
  | _ =>
    obtain ⟨es, htrace, hes⟩ := step_noRemoval h.sound hv (by simp) hstep id
    rw [htrace]
    exact hdone.append hes

/-- **A download is complete when its flow goes.**  In every run in which the turns of a flow that
is attached and was not reset can empty its receive queue once they find the connection over, the
flow is not removed with bytes its app was not given. -/
theorem download_complete (hs : m.States) (hr : m.RecvQueue) {w : World σ υ}
    {iface : List IpCidr} {mtu : Nat} {steps : List (Step σ υ)} (id : Nat)
    (hrun : Machine.Run (step m tun)
      (fun w l => l.Valid m w ∧ l.TurnsOf (drainsFinished m) id w)
      (.spawn iface mtu limits) steps w) :
    Untruncated id w.stack.trace := by
  have hboth : Downloading m id w ∧ Untruncated id w.stack.trace := by
    refine hrun.invariant (P := fun w => Downloading m id w ∧ Untruncated id w.stack.trace) ?_ ?_
    · refine ⟨⟨Sound.spawn iface mtu limits, .init id _ _, .init id _ _⟩, ?_⟩
      intro before after heq
      simp [World.spawn, NetStack.spawn] at heq
    · intro t l t' ht hok hstep
      exact ⟨ht.1.step hs hr hok.1 hstep, ht.1.untruncated_step hs hr hok.1 hok.2 hstep ht.2⟩
  exact hboth.2

/-- Three bytes of a response that has ended, in a socket in `state`. -/
private def response (state : Tcp.State) : Simple.Socket :=
  { Simple.idle state with rx := [1, 2, 3] }

/-- A turn in which every `try_reserve` gives the same answer. -/
private def reader (answer : TryReserve) : FlowEnv :=
  { Simple.calm with tryReserve := fun _ => answer }

/-- What a poll brought flow `1`, and the state it left it in. -/
private def arrival (data : Bytes) (state : Tcp.State) : Event :=
  .polled (fun id => if id = 1 then data else []) (fun id => if id = 1 then some state else none)

/-- The history of a connection that ends before its reader reads. -/
private def slowTrace : List Event :=
  Solo.first.trace ++
    [arrival [] .established, .flow 1 (.answered none), arrival [1, 2, 3] .closeWait,
      .flow 1 (.close []), arrival [] .closed]

private theorem finSeen_slow (es : List Event) : FinSeen 1 (slowTrace ++ es) :=
  ⟨fun id => if id = 1 then [1, 2, 3] else [], fun id => if id = 1 then some .closeWait else none,
    .closeWait, by simp [slowTrace, arrival], rfl, rfl⟩

/-- The server answers and ends the connection while the reader is busy; then comes a
turn in which the channel answers `answer`. -/
private theorem run_slow {T : TurnCond Simple.Socket} (answer : TryReserve)
    (hT : ∀ env st sock, (Simple.tcp.state sock).over = false → T Simple.limits 0 env st sock)
    (hlast : ∀ st, st.established = true →
      T Simple.limits 0 (reader answer) st (response .closed))
    (hanswer : answer ≠ .closed) :
    ∃ steps w, RunsWith Simple.tcp Simple.tuning T (.spawn [] 1280 Simple.limits) steps w ∧
      w.stack.trace = slowTrace ++
        (if answer = .full then [] else [.flow 1 (.toApp [1, 2, 3])]) ++ [.flow 1 .removed] := by
  obtain ⟨c₁, c₂, hup, hbusy, ⟨hh₁, hsock₁⟩, ⟨hh₂, hest, hsock₂⟩, htrace, hturn⟩ :
      ∃ c₁ c₂ : Solo,
        (Solo.first.polled (Simple.idle .established)).serve Simple.tuning 0 Simple.calm
          = some c₁ ∧
        (c₁.polled (response .closeWait)).serve Simple.tuning 0 (reader .full) = some c₂ ∧
        (c₁.st.handle = 0 ∧ c₁.sock = Simple.idle .established) ∧
        (c₂.st.handle = 0 ∧ c₂.st.established = true ∧ c₂.sock = response .lastAck) ∧
        (c₂.polled (response .closed)).trace = slowTrace ∧
        (serviceFlow Simple.tcp Simple.tuning Simple.limits 0 (reader answer) c₂.st
          (response .closed)).next = none ∧
        (serviceFlow Simple.tcp Simple.tuning Simple.limits 0 (reader answer) c₂.st
          (response .closed)).log =
            (if answer = .full then [] else [.toApp [1, 2, 3]]) ++ [.removed] := by
    refine ⟨_, _, rfl, rfl, ⟨rfl, rfl⟩, ⟨rfl, rfl, rfl⟩, rfl, ?_⟩
    cases answer with
    | permit => exact ⟨rfl, rfl⟩
    | full => exact ⟨rfl, rfl⟩
    | closed => exact absurd rfl hanswer
  have hrun₁ := Solo.run_turn (Solo.step_serve 0 (fun _ => _) (by rfl) hup) rfl
    ⟨prefix_rfl, le_rfl, rfl⟩ (hT _ _ _ rfl)
  have hrun₂ := Solo.run_turn (Solo.step_serve 0 (fun _ => _) hh₁ hbusy) hh₁
    (by rw [hsock₁]; exact ⟨ nil_prefix, le_rfl, rfl⟩) (hT _ _ _ rfl)
  have hrun₃ := Solo.run_turn (Solo.step_serve_gone hh₂ hturn.1 hturn.2) hh₂
    (by rw [hsock₂]; exact ⟨prefix_rfl, le_rfl, rfl⟩) (hlast _ hest)
  refine ⟨_, _, (((Solo.run_open T).append hrun₁).append hrun₂).append hrun₃, ?_⟩
  change (c₂.polled (response .closed)).trace ++ _ = _
  rw [htrace, append_assoc]
  split <;> rfl

theorem download_complete_late :
    ∃ (steps : List (Step Simple.Socket Unit)) (w : World Simple.Socket Unit)
      (before : List Event),
      Machine.Run (step Simple.tcp Simple.tuning)
        (fun w l => l.Valid Simple.tcp w ∧ l.TurnsOf (drainsFinished Simple.tcp) 1 w)
        (.spawn [] 1280 Simple.limits) steps w ∧
      w.stack.trace = before ++ [.flow 1 .removed] ∧
      received 1 before = [1, 2, 3] ∧ received 1 before = delivered (flowLog 1 before) := by
  obtain ⟨steps, w, hrun, htrace⟩ := run_slow (T := drainsFinished Simple.tcp)
    .permit (fun _ _ _ hnot hover => by rw [hnot] at hover; cases hover)
    (fun st hest _ => by
      rw [if_pos hest]
      exact ⟨1, by decide, rfl, fun _ _ => rfl⟩) (by simp)
  have hone : Machine.Run (step Simple.tcp Simple.tuning)
      (fun w l => l.Valid Simple.tcp w ∧ l.TurnsOf (drainsFinished Simple.tcp) 1 w)
      (.spawn [] 1280 Simple.limits) steps w :=
    hrun.weaken fun _ _ hok => ⟨hok.1, hok.2.of_all 1⟩
  refine ⟨steps, w, _, hone, htrace, rfl, ?_⟩
  refine download_complete Simple.states Simple.recvQueue 1 hone _ [] htrace ?_ ?_ ?_
  · simp [slowTrace, arrival, Solo.first, Solo.opened]
  · simp [slowTrace, arrival, Solo.first, Solo.opened]
  · exact finSeen_slow _

/-- **A slow reader loses the end of a download.**  The channel to the app is full when
the peer's FIN arrives and still full when the connection is over. -/
theorem slow_reader_truncated :
    ∃ (steps : List (Step Simple.Socket Unit)) (w : World Simple.Socket Unit),
      Runs Simple.tcp Simple.tuning (.spawn [] 1280 Simple.limits) steps w ∧
      ¬ Untruncated 1 w.stack.trace := by
  obtain ⟨steps, w, hrun, htrace⟩ := run_slow (T := anyTurn) .full
    (fun _ _ _ _ => trivial) (fun _ _ => trivial) (by simp)
  refine ⟨steps, w, hrun.runs, fun hcomplete => ?_⟩
  have hlost := hcomplete _ [] htrace (by simp [slowTrace, arrival, Solo.first, Solo.opened])
    (by simp [slowTrace, arrival, Solo.first, Solo.opened])
    (finSeen_slow _)
  exact absurd hlost (by decide)

/-- **The download of a flow is whole and in order.**  In every reachable state, what the app of a
flow was given and what is left in the receive queue are what the polls brought. -/
theorem downlink_intact (hs : m.States) (hr : m.RecvQueue) {w : World σ υ}
    (h : Reachable m tun w) (id : Nat) {st : TcpState} {sock : σ}
    (hconn : w.stack.conn id = some (st, sock)) :
    received id w.stack.trace = delivered (flowLog id w.stack.trace) ++ m.rx sock := by
  have hlive := h.flow_invariant id (.init id _ _) fun _ _ => (downlink_rule hs hr).step
  exact ((hlive.live st sock hconn).2 not_false).bytes

theorem downlink_intact_unread :
    ∃ w, Reachable Simple.tcp Simple.tuning w ∧
      received 1 w.stack.trace = delivered (flowLog 1 w.stack.trace) ++ [1, 2, 3] := by
  have hreach : Reachable Simple.tcp Simple.tuning (Solo.up.polled (response .established)).world :=
    Solo.reachable_poll Solo.reachable_up rfl ⟨ nil_prefix, le_rfl, rfl⟩
  exact ⟨_, hreach, downlink_intact Simple.states Simple.recvQueue hreach 1 rfl⟩

end Aether
