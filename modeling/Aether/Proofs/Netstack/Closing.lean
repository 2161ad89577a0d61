/-
When a turn calls `close()`.

There are three places.  The app's half-close waits until `pending` is empty, and
the clean-up of a vanished app need not care.  The third follows the peer's FIN: a
socket in CloseWait is closed whatever `pending` holds, and a closed sending half
takes no more data.  So a turn of an attached flow closes its socket over unsent
data exactly when the socket is in CloseWait and did not take all of it in this very
turn.
-/
import Aether.Proofs.Netstack.Resets

namespace Aether

open List

variable {σ υ : Type} {m : Smoltcp σ υ} {tun : Tuning} {limits : TcpLimits} {now : Nat}
  {env : FlowEnv}

/-! ### The blocks before the half-close -/

/-- The socket takes everything that is pending at once. -/
def TakesAll (m : Smoltcp σ υ) (st : TcpState) (sock : σ) : Prop :=
  st.pending = [] ∨
    (m.canSend sock = true ∧ (m.sendSlice sock st.pending).1 = some st.pending.length)

variable {f : FlowRun σ} {st : TcpState}

theorem pushPending_nil_iff (hb : m.SendBound) :
    (f.pushPending m env).st.pending = [] ↔ TakesAll m f.st f.sock := by
  simp only [FlowRun.pushPending, TakesAll]
  by_cases hp : f.st.pending = []
  · simp [hp]
  · rw [if_neg (by simpa using hp)]
    by_cases hc : m.canSend f.sock = true
    · rw [if_pos hc]
      simp only [hp, hc, false_or, true_and]
      rcases hr : m.sendSlice f.sock f.st.pending with ⟨_ | n, sock⟩
      · simp [hp]
      · have hle := hb.le _ _ _ _ hr
        have hpos : 0 < f.st.pending.length := length_pos_iff.mpr hp
        simp only [Option.getD_some, Option.some.injEq]
        by_cases hn : n > 0
        · rw [if_pos hn, drop_eq_nil_iff]
          omega
        · rw [if_neg hn]
          constructor
          · intro h
            exact absurd h hp
          · intro h
            omega
    · rw [if_neg hc]
      simp [hp, hc]

theorem pushPending_state (hs : m.States) :
    m.state (f.pushPending m env).sock = m.state f.sock := by
  simp only [FlowRun.pushPending]
  split
  · rfl
  · split
    · split
      · exact hs.sendSlice _ _
      · exact hs.sendSlice _ _
    · rfl

theorem establish_pending : (f.establish m).st.pending = f.st.pending := by
  simp only [FlowRun.establish]
  split <;> rfl

theorem account_pending : (f.account m tun env).st.pending = f.st.pending := by
  obtain ⟨_, _, _, _, _, hnote⟩ := FlowRun.noteDrain_frame m env f
  simp only [FlowRun.account, hnote]

theorem deliver_state (hs : m.States) (answers : Nat → TryReserve) (budget delivered : Nat)
    (f : FlowRun σ) : m.state (f.deliver m answers budget delivered).1.sock = m.state f.sock := by
  have hrecv : ∀ (k : σ) (o : Option Bytes) (k' : σ), m.recv k = (o, k') →
      m.state k' = m.state k := by
    intro k o k' h
    have := hs.recv k
    rwa [h] at this
  induction budget generalizing delivered f with
  | zero => rfl
  | succ budget ih =>
    rw [FlowRun.deliver]
    cases answers delivered with
    | full => rfl
    | closed => rfl
    | permit =>
      simp only
      split
      · split
        · rename_i b chunk sock hr
          rw [ih]
          exact hrecv _ _ _ hr
        · rename_i o sock _ hr
          exact hrecv _ _ _ hr
      · rfl

/-! ### The turn -/

/-- The half-close waits for an empty `pending`. -/
theorem halfClose_close {p : Bytes} (hlog : FlowEvent.close p ∉ f.log)
    (h : FlowEvent.close p ∈ (f.halfClose m).log) : p = [] := by
  unfold FlowRun.halfClose at h
  split at h
  · rename_i hc
    simp only [Bool.and_eq_true, List.isEmpty_iff] at hc
    rcases mem_append.mp h with h | h
    · exact absurd h hlog
    · have hp : p = f.st.pending := by simpa using h
      rw [hp, hc.2]
  · exact absurd h hlog

theorem Tcp.State.afterClose_ne_closeWait (s : Tcp.State) : s.afterClose ≠ .closeWait := by
  cases s <;> decide

/-- A socket still in CloseWait after the half-close was not closed by it. -/
theorem halfClose_of_closeWait (hs : m.States) (h : m.state (f.halfClose m).sock = .closeWait) :
    f.halfClose m = f := by
  unfold FlowRun.halfClose at h ⊢
  split at h
  · have hstate : m.state (f.close m).sock = (m.state f.sock).afterClose := hs.close f.sock
    rw [hstate] at h
    exact absurd h (Tcp.State.afterClose_ne_closeWait _)
  · rename_i hc
    rw [if_neg hc]

/-- While the app is there, the delivery loop is followed by the end of the turn. -/
theorem download_attached (hest : f.st.established = true)
    (happ : FlowEvent.appGone ∉ (f.download m limits now env).log) :
    f.download m limits now env =
      ((f.halfClose m).deliver m env.tryReserve maxRecvChunks 0).1.finish m
        (((f.halfClose m).deliver m env.tryReserve maxRecvChunks 0).2 == .full) := by
  have hest' : ((f.halfClose m).deliver m env.tryReserve maxRecvChunks 0).1.st.established = true :=
    FlowRun.deliver_established m env hest
  have hopen : ((f.halfClose m).deliver m env.tryReserve maxRecvChunks 0).2 ≠ .closed := by
    intro hclosed
    exact happ ((FlowRun.afterDelivery_log hclosed hest').subset (FlowRun.deliver_gone hclosed))
  rw [FlowRun.download, FlowRun.afterDelivery, if_neg hopen]

/-- The second half of the turn of an attached flow. -/
theorem download_close_iff (hs : m.States) (hest : f.st.established = true)
    (hlog : ∀ p, FlowEvent.close p ∉ f.log)
    (happ : FlowEvent.appGone ∉ (f.download m limits now env).log) :
    (∀ p, FlowEvent.close p ∈ (f.download m limits now env).log → p = []) ↔
      (m.state f.sock = .closeWait → f.st.pending = []) := by
  obtain ⟨hst, chunks, hdlog⟩ := FlowRun.deliver_spec m env.tryReserve maxRecvChunks 0
    (f.halfClose m)
  have hstate := deliver_state hs env.tryReserve maxRecvChunks 0 (f.halfClose m)
  have hhalf : (f.halfClose m).st = f.st := by
    unfold FlowRun.halfClose
    split <;> rfl
  rw [hhalf] at hst
  -- Only the half-close and the end of the turn can have closed the socket.
  have hearly : ∀ p, FlowEvent.close p ∈
      ((f.halfClose m).deliver m env.tryReserve maxRecvChunks 0).1.log → p = [] := by
    intro p hp
    rw [hdlog, mem_append, mem_append] at hp
    have hp' : FlowEvent.close p ∈ (f.halfClose m).log := by
      rcases hp with (hp | hp) | hp
      · exact hp
      · simp at hp
      · split at hp <;> simp at hp
    exact halfClose_close (hlog p) hp'
  rw [download_attached hest happ, FlowRun.finish_log (by rw [hst]; exact hest), hst, hstate]
  constructor
  · intro h hcw
    by_contra hp
    have hsame : f.halfClose m = f := by
      unfold FlowRun.halfClose
      rw [if_neg (by simp [hp])]
    rw [hsame, if_pos hcw] at h
    exact hp (h f.st.pending (by simp))
  · intro h p hp
    rcases mem_append.mp hp with hp | hp
    · exact hearly p hp
    · split at hp
      · rename_i hcw
        rw [halfClose_of_closeWait hs hcw] at hcw
        have hp' : p = f.st.pending := by simpa using hp
        rw [hp']
        exact h hcw
      · split at hp <;> simp at hp

theorem deliver_attached {answers : Nat → TryReserve} (h : ∀ n, answers n ≠ .closed) :
    ∀ (budget delivered : Nat) (f : FlowRun σ),
      (f.deliver m answers budget delivered).2 ≠ .closed := by
  intro budget
  induction budget with
  | zero => intro delivered f; simp [FlowRun.deliver]
  | succ budget ih =>
    intro delivered f
    rw [FlowRun.deliver]
    cases ha : answers delivered with
    | full => simp
    | closed => exact absurd ha (h delivered)
    | permit =>
      simp only
      split
      · split
        · exact ih _ _
        · simp
      · simp

/-- As long as the app keeps its end of the channel, it is not found gone. -/
theorem serviceFlow_attached {sock : σ} (h : ∀ n, env.tryReserve n ≠ .closed) :
    FlowEvent.appGone ∉ (serviceFlow m tun limits now env st sock).log := by
  intro hc
  obtain ⟨hab, hest⟩ := established_of_mem (by simp) (by simp) hc
  have hopen := deliver_attached (m := m) h maxRecvChunks 0
    (((FlowRun.establish m { st, sock, log := [] }).upload m tun env).halfClose m)
  obtain ⟨-, chunks, hlog⟩ := FlowRun.deliver_spec m env.tryReserve maxRecvChunks 0
    (((FlowRun.establish m { st, sock, log := [] }).upload m tun env).halfClose m)
  have hestd := FlowRun.deliver_established m env
    ((FlowRun.upload_established m tun env _).trans hest)
  rw [serviceFlow_established hab hest, FlowRun.download, FlowRun.afterDelivery,
    if_neg hopen] at hc
  have hmem := FlowRun.mem_finish hestd (by simp) (by simp) hc
  rw [hlog, if_neg hopen, append_nil, mem_append] at hmem
  rcases hmem with hmem | hmem
  · rw [halfClose_mem (by simp)] at hmem
    cases (uploaded_mem (by simp) (by simp) hmem).1
  · simp at hmem

/-- **What a turn closes over.**  The calls of `close()` in the turn of an attached flow
that is not reset all find `pending` empty, except for a socket in CloseWait that does
not take everything. -/
theorem serviceFlow_close_iff (hb : m.SendBound) (hs : m.States) {sock : σ}
    (hab : st.aborted = false)
    (happ : FlowEvent.appGone ∉ (serviceFlow m tun limits now env st sock).log)
    (hreset : FlowEvent.abort ∉ (serviceFlow m tun limits now env st sock).log) :
    (∀ p, FlowEvent.close p ∈ (serviceFlow m tun limits now env st sock).log → p = []) ↔
      (m.state sock = .closeWait → TakesAll m st sock) := by
  cases hest : (FlowRun.establish m { st, sock, log := [] }).st.established with
  | false =>
    -- A flow that is still connecting is not in CloseWait, and nothing is closed.
    have hcw : m.state sock ≠ .closeWait := by
      rw [FlowRun.establish_established] at hest
      simp only [Bool.or_eq_false_iff, beq_eq_false_iff_ne] at hest
      exact hest.2.2
    refine ⟨fun _ h => absurd h hcw, fun _ p hp => ?_⟩
    rcases serviceFlow_connecting_log hab hest hp with he | ⟨error, he⟩ <;> cases he
  | true =>
    rw [serviceFlow_established hab hest] at happ hreset ⊢
    obtain ⟨hest', hnoabort⟩ := upload_unreset hest hreset
    have hnoclose : ∀ p, FlowEvent.close p ∉
        ((FlowRun.establish m { st, sock, log := [] }).upload m tun env).log := by
      intro p hp
      cases (uploaded_mem (by simp) (by simp) hp).1
    rw [download_close_iff hs hest' hnoclose happ, upload_of_no_abort hnoabort, account_pending,
      pushPending_nil_iff hb]
    have hsock : m.state ((FlowRun.pushPending m env
        (FlowRun.establish m { st, sock, log := [] })).account m tun env).sock = m.state sock :=
      (pushPending_state hs).trans (congrArg m.state FlowRun.establish_sock)
    rw [hsock, TakesAll, TakesAll, establish_pending, FlowRun.establish_sock]

/-! ### Passes -/

/-- **When no FIN overtakes queued upload data.**  In any pass, the calls of `close()` for
an attached flow that was not reset find its `pending` empty exactly when a socket found in
CloseWait takes all of `pending` in that pass. -/
theorem fin_overtakes_iff {w w' : World σ υ} {ids : List Nat} {id : Nat} {st : TcpState}
    {sock : σ} {env : Nat → FlowEnv} (hb : m.SendBound) (hs : m.States) (h : Reachable m tun w)
    (hv : Step.Valid m w (.serviceTcp ids now env))
    (hstep : step m tun w (.serviceTcp ids now env) = .ok w')
    (hconn : w.stack.conn id = some (st, sock))
    (happ : Event.flow id .appGone ∉ w'.stack.trace)
    (hreset : Event.flow id .abort ∉ w'.stack.trace) :
    (∀ p, Event.flow id (.close p) ∈ newEvents w w' → p = []) ↔
      (m.state sock = .closeWait → TakesAll m st sock) := by
  obtain ⟨htrace, hmem⟩ := serviceTcp_newEvents id h.sound hv hstep
  have hlog : ∀ e, Event.flow id e ∈ newEvents w w' ↔
      e ∈ (serviceFlow m tun w.stack.tcpLimits now (env id) st sock).log := by
    intro e
    rw [hmem, hconn]
    constructor
    · rintro ⟨_, _, hc, he⟩
      cases hc
      exact he
    · exact fun he => ⟨st, sock, rfl, he⟩
  rw [htrace, mem_append, not_or, hlog] at happ hreset
  obtain ⟨iface, mtu, limits, steps, hrun⟩ := h.runsWith
  have hab : st.aborted = false := by
    by_contra hc
    exact happ.1 ((lifecycle_of_run hs hrun hconn).aborted (by simpa using hc))
  rw [← serviceFlow_close_iff hb hs hab happ.2 hreset.2]
  exact forall_congr' fun p => imp_congr_left (hlog (.close p))

/-- Three bytes are pending when the peer's FIN arrives. -/
private def shortUpload : Solo := (Solo.up.wrote [1, 2, 3]).polled (Simple.idle .closeWait)

theorem fin_overtakes_iff_fits :
    ∃ c', shortUpload.serve Simple.tuning 0 Simple.calm = some c' ∧
      ∀ p, Event.flow 1 (.close p) ∈ newEvents shortUpload.world c'.world → p = [] := by
  have hreach : Reachable Simple.tcp Simple.tuning shortUpload.world :=
    Solo.reachable_poll (Solo.reachable_wrote Solo.reachable_up (by decide) (by decide)) rfl
      ⟨by decide, by decide, by decide⟩
  obtain ⟨c', hserve, htrace⟩ : ∃ c', shortUpload.serve Simple.tuning 0 Simple.calm = some c' ∧
      c'.trace = shortUpload.trace ++ [.flow 1 (.accepted [1, 2, 3]), .flow 1 (.close [])] :=
    ⟨_, rfl, rfl⟩
  have hstep := Solo.step_serve 0 (fun _ => Simple.calm) rfl hserve
  have hclean : ∀ e, e ≠ .answered none → e ≠ .accepted [1, 2, 3] → e ≠ .close [] →
      Event.flow 1 e ∉ c'.world.stack.trace := by
    intro e hne hne' hne''
    change Event.flow 1 e ∉ c'.trace
    rw [htrace]
    simp [shortUpload, Solo.up, Solo.opened, Solo.wrote, Solo.polled, hne, hne', hne'']
  have hconn : shortUpload.world.stack.conn 1 = some (shortUpload.st, shortUpload.sock) :=
    (Solo.conn_eq shortUpload rfl 1).trans (if_pos rfl)
  refine ⟨c', hserve, ?_⟩
  exact (fin_overtakes_iff Simple.sendQueue.toSendBound Simple.states hreach shortUpload.keys hstep
    hconn (hclean _ (by simp) (by simp) (by simp)) (hclean _ (by simp) (by simp) (by simp))).mpr
    fun _ => Or.inr ⟨rfl, rfl⟩

/-- **A FIN overtakes queued upload data.**  70000 bytes are pending when the peer
half-closes; the socket has room for 65536 of them and is closed over the rest. -/
theorem fin_overtakes_upload :
    ∃ (w w' : World Simple.Socket Unit) (env : Nat → FlowEnv) (p : Bytes),
      Reachable Simple.tcp Simple.tuning w ∧
      Step.Valid Simple.tcp w (.serviceTcp [1] 0 env) ∧
      step Simple.tcp Simple.tuning w (.serviceTcp [1] 0 env) = .ok w' ∧
      (∀ n, (env 1).tryReserve n ≠ .closed) ∧
      Event.flow 1 .appGone ∉ w'.stack.trace ∧ Event.flow 1 .abort ∉ w'.stack.trace ∧
      Event.flow 1 (.close p) ∈ newEvents w w' ∧ p ≠ [] := by
  generalize hdata : List.replicate 70000 (0 : UInt8) = data
  have hlen : data.length = 70000 := by rw [← hdata, length_replicate]
  have hne : data ≠ [] := by
    rintro rfl
    simp at hlen
  let c := (Solo.up.wrote data).polled (Simple.idle .closeWait)
  have hroom : Solo.up.st.pending.length + data.length ≤ Simple.tuning.maxTcpPending := by
    rw [hlen]
    decide
  have hreach : Reachable Simple.tcp Simple.tuning c.world :=
    Solo.reachable_poll (Solo.reachable_wrote Solo.reachable_up hroom (by decide)) rfl
      ⟨prefix_refl _, le_rfl, rfl⟩
  obtain ⟨w', hstep⟩ := c.serves Simple.tuning 0 (fun _ => Simple.calm) rfl
  obtain ⟨htrace, hmem⟩ := serviceTcp_newEvents 1 hreach.sound c.keys hstep
  have hconn : c.world.stack.conn 1 = some (c.st, c.sock) := rfl
  have happ : FlowEvent.appGone ∉
      (serviceFlow Simple.tcp Simple.tuning Simple.limits 0 Simple.calm c.st c.sock).log :=
    serviceFlow_attached (fun _ => by simp [Simple.calm, Simple.calmAt])
  have hreset : FlowEvent.abort ∉
      (serviceFlow Simple.tcp Simple.tuning Simple.limits 0 Simple.calm c.st c.sock).log := by
    intro hc
    rcases serviceFlow_abort hc with hflap | ⟨-, hgone⟩
    · simp [FlapReset, FlowRun.flaps, Simple.calm, Simple.calmAt, tcpDrainStallWarn, secs] at hflap
    · exact happ hgone
  have hleft : ∃ p, FlowEvent.close p ∈
      (serviceFlow Simple.tcp Simple.tuning Simple.limits 0 Simple.calm c.st c.sock).log ∧
      p ≠ [] := by
    by_contra hc
    have hall := (serviceFlow_close_iff Simple.sendQueue.toSendBound Simple.states
      rfl happ hreset).mp (fun p hp => by
        by_contra hpne
        exact hc ⟨p, hp, hpne⟩)
    rcases hall rfl with hnil | ⟨-, htaken⟩
    · exact hne (by simpa [c, Solo.up, Solo.wrote, Solo.polled, TcpState.opening] using hnil)
    · -- the socket takes what fits into its send buffer
      have hsent : (Simple.tcp.sendSlice c.sock c.st.pending).1
          = some (min data.length Simple.tuning.tcpTxBuf) := rfl
      have hpending : c.st.pending.length = data.length := rfl
      have htx : Simple.tuning.tcpTxBuf = 65536 := rfl
      rw [hsent, hpending, htx, hlen] at htaken
      simp at htaken
  obtain ⟨p, hp, hpne⟩ := hleft
  have hclean : ∀ e, Event.flow 1 e ∉ c.trace → e ∉ (serviceFlow Simple.tcp Simple.tuning
      Simple.limits 0 Simple.calm c.st c.sock).log → Event.flow 1 e ∉ w'.stack.trace := by
    intro e hold hnew hc
    rw [htrace, mem_append, hmem, hconn] at hc
    rcases hc with hc | ⟨_, _, heq, hc⟩
    · exact hold hc
    · cases heq
      exact hnew hc
  refine ⟨c.world, w', fun _ => Simple.calm, p, hreach, c.keys, hstep,
    by simp [Simple.calm, Simple.calmAt],
    hclean _ ?_ happ, hclean _ ?_ hreset, (hmem _).mpr ⟨c.st, c.sock, hconn, hp⟩, hpne⟩
  · simp [c, Solo.up, Solo.opened, Solo.wrote, Solo.polled]
  · simp [c, Solo.up, Solo.opened, Solo.wrote, Solo.polled]

end Aether
