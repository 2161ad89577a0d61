/-
What one flow's turn keeps.

A turn is a sequence of small edits to the flow's entry, its socket and the log.
`DownEdit` and `TurnEdit` list them; a property of `FlowRun` that survives each of them
survives the turn (`serviceFlow_kept`, `serviceFlow_removed`).  Every fact about turns
that is an invariant of their blocks goes through the edits.
-/
import Aether.Proofs.Netstack.Cases

namespace Aether

open List

variable {σ υ : Type}

/-! ### What a send moves -/

variable {m : Smoltcp σ υ} {P : FlowRun σ → Prop} {f : FlowRun σ}

theorem Smoltcp.SendBound.getD_le (hb : m.SendBound) (k : σ) (data : Bytes) :
    (m.sendSlice k data).1.getD 0 ≤ data.length := by
  cases hr : m.sendSlice k data with
  | mk taken k' =>
    cases taken with
    | none => exact Nat.zero_le _
    | some n => exact hb.le _ _ _ _ hr

theorem Smoltcp.SendQueue.sendSlice (hq : m.SendQueue) (k : σ) (data : Bytes) :
    m.sendQueue (m.sendSlice k data).2 = m.sendQueue k + (m.sendSlice k data).1.getD 0 := by
  cases hr : m.sendSlice k data with
  | mk taken k' =>
    cases taken with
    | none => exact hq.refused _ _ _ hr
    | some n => exact hq.taken _ _ _ _ hr

/-! ### The rules -/

/-- What the blocks of the second half of a turn write. -/
inductive DownEdit (m : Smoltcp σ υ) (f : FlowRun σ) : FlowRun σ → Prop
  | close : DownEdit m f (f.close m)
  | toApp {b : UInt8} {chunk : Bytes} {sock : σ} (hcan : m.canRecv f.sock = true)
      (hrecv : m.recv f.sock = (some (b :: chunk), sock)) :
      DownEdit m f { f with sock, log := f.log ++ [.toApp (b :: chunk)] }
  | recvNone {sock : σ} (hcan : m.canRecv f.sock = true) (hsock : (m.recv f.sock).2 = sock)
      (hnone : (m.recv f.sock).1.getD [] = []) : DownEdit m f { f with sock }
  | appGone : DownEdit m f (f.emit .appGone)
  | orphaned (since : Nat) : DownEdit m f { f with st := { f.st with orphanedAt := some since } }
  | abort (hgone : FlowEvent.appGone ∈ f.log) :
      DownEdit m f ({ f with sock := m.abort f.sock }.emit .abort)
  | aborted (hgone : FlowEvent.appGone ∈ f.log) :
      DownEdit m f { f with st := { f.st with aborted := true } }

/-- What the blocks of a turn write. -/
inductive TurnEdit (m : Smoltcp σ υ) (tun : Tuning) (f : FlowRun σ) : FlowRun σ → Prop
  | down {g : FlowRun σ} (h : DownEdit m f g) : TurnEdit m tun f g
  | established (hstate : m.state f.sock = .established ∨ m.state f.sock = .closeWait) :
      TurnEdit m tun f { f with
        st := { f.st with established := true, connectResp := false, fromStackRx := false } }
  | answered (hest : f.st.established = true) : TurnEdit m tun f (f.emit (.answered none))
  | refused (error : String) : TurnEdit m tun f
      ({ f with st := { f.st with connectResp := false } }.emit (.answered (some error)))
  | progressed (time : Nat) : TurnEdit m tun f { f with st := { f.st with lastProgress := time } }
  | sent {n : Nat} (time : Nat) (hn : (m.sendSlice f.sock f.st.pending).1.getD 0 = n) :
      TurnEdit m tun f
        { st := { f.st with
            lastProgress := time
            acceptedTotal := f.st.acceptedTotal + n
            pending := f.st.pending.drop n }
          sock := (m.sendSlice f.sock f.st.pending).2
          log := f.log ++ [.accepted (f.st.pending.take n)] }
  | unsent (hnone : (m.sendSlice f.sock f.st.pending).1.getD 0 = 0) :
      TurnEdit m tun f { f with sock := (m.sendSlice f.sock f.st.pending).2 }
  /-- The liveness bookkeeping keeps to its own fields. -/
  | accounted {lastDrain ackedHigh stallMark stallCount sendQueueHigh uplinkBudget measured
      outstandingPeak pendingPeak sendQueuePeak : Nat} {drainWarned : Bool} :
      TurnEdit m tun f { f with st := { f.st with
        lastDrain, ackedHigh, drainWarned, stallMark, stallCount, sendQueueHigh, uplinkBudget
        credit := f.st.credit.publish (f.st.acceptedTotal - m.sendQueue f.sock)
          (FlowRun.uplinkBudget tun measured)
        outstandingPeak, pendingPeak, sendQueuePeak } }
  | flapped : TurnEdit m tun f (f.resetFlapping m)

/-- `P` survives the second half of a turn. -/
def DownRule (m : Smoltcp σ υ) (P : FlowRun σ → Prop) : Prop :=
  ∀ ⦃f g⦄, DownEdit m f g → P f → P g

/-- `P` survives a turn. -/
def TurnRule (m : Smoltcp σ υ) (tun : Tuning) (P : FlowRun σ → Prop) : Prop :=
  ∀ ⦃f g⦄, TurnEdit m tun f g → P f → P g

theorem TurnRule.down {tun : Tuning} (r : TurnRule m tun P) : DownRule m P :=
  fun _ _ h => r (.down h)

/-- How a turn ended: the flow goes on from a state with `P`, or was removed in one. -/
def FlowTurn.Ends (t : FlowTurn σ) (P : FlowRun σ → Prop) : Prop :=
  match t.next with
  | some r => P { st := r.1, sock := r.2, log := t.log }
  | none => ∃ f, P f ∧ t.log = f.log ++ [.removed]

theorem FlowRun.keep_ends {b : Bool} (h : P f) :
    (f.keep b).Ends P := h

theorem FlowRun.remove_ends {b : Bool} (h : P f) :
    (f.remove b).Ends P := ⟨f, h, rfl⟩

section

variable {m : Smoltcp σ υ} {tun : Tuning} {limits : TcpLimits} {now : Nat} {env : FlowEnv}
  {P : FlowRun σ → Prop} {f : FlowRun σ} {b : Bool} {answers : Nat → TryReserve}
  {st st' : TcpState} {sock sock' : σ}

theorem DownRule.halfClose (r : DownRule m P) (h : P f) : P (f.halfClose m) := by
  unfold FlowRun.halfClose
  split
  · exact r .close h
  · exact h

/-- The delivery loop adds chunks to the log, and says so when the app is gone. -/
theorem FlowRun.deliver_spec (m : Smoltcp σ υ) (answers : Nat → TryReserve) :
    ∀ (budget delivered : Nat) (f : FlowRun σ),
      (f.deliver m answers budget delivered).1.st = f.st ∧
      ∃ chunks : List Bytes, (f.deliver m answers budget delivered).1.log =
        f.log ++ chunks.map .toApp ++
          if (f.deliver m answers budget delivered).2 = .closed then [.appGone] else [] := by
  intro budget
  induction budget with
  | zero => intro delivered f; exact ⟨rfl, [], by simp [FlowRun.deliver]⟩
  | succ budget ih =>
    intro delivered f
    rw [FlowRun.deliver]
    cases answers delivered with
    | full => exact ⟨rfl, [], by simp⟩
    | closed => exact ⟨rfl, [], by simp [FlowRun.emit]⟩
    | permit =>
      simp only
      split
      · split
        · rename_i b chunk sock _
          obtain ⟨hst, chunks, hlog⟩ :=
            ih (delivered + 1) { f with sock, log := f.log ++ [.toApp (b :: chunk)] }
          refine ⟨hst, (b :: chunk) :: chunks, ?_⟩
          rw [hlog]
          simp
        · exact ⟨rfl, [], by simp⟩
      · exact ⟨rfl, [], by simp⟩

theorem DownRule.deliver (r : DownRule m P) (answers : Nat → TryReserve) :
    ∀ (budget delivered : Nat) {f : FlowRun σ}, P f →
      P (f.deliver m answers budget delivered).1 := by
  intro budget
  induction budget with
  | zero => intro delivered f h; exact h
  | succ budget ih =>
    intro delivered f h
    rw [FlowRun.deliver]
    cases answers delivered with
    | full => exact h
    | closed => exact r .appGone h
    | permit =>
      simp only
      split
      · rename_i hcan
        split
        · rename_i b chunk sock hrecv
          exact ih _ (r (.toApp hcan hrecv) h)
        · rename_i chunk sock hnone hrecv
          refine r (.recvNone hcan (by rw [hrecv]) ?_) h
          rw [hrecv]
          rcases chunk with _ | (_ | ⟨b, chunk⟩)
          · rfl
          · rfl
          · exact absurd rfl (hnone b chunk)
      · exact h

/-- The end of an established flow's turn: only the socket's state counts. -/
theorem FlowRun.finish_eq (hest : f.st.established = true) :
    f.finish m b =
      if m.state f.sock = .closeWait then (f.close m).keep b
      else if m.state f.sock = .closed ∨ m.state f.sock = .timeWait then f.remove b
      else f.keep b := by
  unfold FlowRun.finish
  by_cases hcw : m.state f.sock = .closeWait
  · simp [hcw]
  · by_cases htw : m.state f.sock = .timeWait
    · -- What `pending` held goes with the flow.
      simp [htw, FlowRun.clearPending, FlowRun.remove, hest]
    · simp [hcw, htw, hest]

theorem DownRule.finish (r : DownRule m P) (h : P f) (hest : f.st.established = true) :
    (f.finish m b).Ends P := by
  rw [FlowRun.finish_eq hest]
  split
  · exact FlowRun.keep_ends (r .close h)
  · split
    · exact FlowRun.remove_ends h
    · exact FlowRun.keep_ends h

theorem DownRule.established (m : Smoltcp σ υ) : DownRule m fun f => f.st.established = true := by
  intro f g hedit h
  cases hedit <;> exact h

theorem DownRule.resetOrphan (r : DownRule m P) (hgone : FlowEvent.appGone ∈ f.log) (h : P f) :
    P (f.resetOrphan m) := by
  unfold FlowRun.resetOrphan
  split
  · exact r (.aborted (mem_append_left _ hgone)) (r (.abort hgone) h)
  · exact r (.aborted hgone) h

theorem DownRule.afterDelivery (r : DownRule m P) {d : FlowRun σ × FlowRun.Stop}
    (hgone : d.2 = .closed → FlowEvent.appGone ∈ d.1.log) (h : P d.1)
    (hest : d.1.st.established = true) : (FlowRun.afterDelivery m limits now d).Ends P := by
  simp only [FlowRun.afterDelivery]
  split
  · rename_i hclosed
    have ho : P (d.1.orphan now) := r (.orphaned _) h
    split
    · exact FlowRun.keep_ends (r.resetOrphan (hgone hclosed) ho)
    · exact r.finish (r .close ho) hest
  · exact r.finish h hest

theorem FlowRun.deliver_gone {budget delivered : Nat}
    (h : (f.deliver m answers budget delivered).2 = .closed) :
    FlowEvent.appGone ∈ (f.deliver m answers budget delivered).1.log := by
  obtain ⟨-, chunks, hlog⟩ := FlowRun.deliver_spec m answers budget delivered f
  rw [hlog, if_pos h]
  simp

/-- An established flow is so at the end of its delivery loop. -/
theorem FlowRun.deliver_established (m : Smoltcp σ υ) (env : FlowEnv)
    (hest : f.st.established = true) :
    ((f.halfClose m).deliver m env.tryReserve maxRecvChunks 0).1.st.established = true :=
  (DownRule.established m).deliver _ _ _ ((DownRule.established m).halfClose hest)

theorem DownRule.download (r : DownRule m P) (h : P f) (hest : f.st.established = true) :
    (f.download m limits now env).Ends P :=
  r.afterDelivery FlowRun.deliver_gone (r.deliver _ _ _ (r.halfClose h))
    (FlowRun.deliver_established m env hest)

theorem TurnRule.establish (r : TurnRule m tun P) (h : P f) : P (f.establish m) := by
  simp only [FlowRun.establish]
  split
  · rename_i hup
    simp only [Bool.and_eq_true, Bool.or_eq_true, beq_iff_eq] at hup
    have hest := r (.established hup.2) h
    split
    · exact r (.answered rfl) hest
    · exact hest
  · exact h

theorem TurnRule.answerError (r : TurnRule m tun P) (error : String) (h : P f) :
    P (f.answerError error) := by
  unfold FlowRun.answerError
  split
  · exact r (.refused error) h
  · exact h

theorem TurnRule.pushPending (r : TurnRule m tun P) (env : FlowEnv) (h : P f) :
    P (f.pushPending m env) := by
  simp only [FlowRun.pushPending]
  split
  · exact r (.progressed _) h
  · split
    · split
      · exact r (.sent _ rfl) h
      · rename_i hnone
        exact r (.unsent (Nat.eq_zero_of_not_pos hnone)) h
    · exact h

theorem FlowRun.noteDrain_frame (m : Smoltcp σ υ) (env : FlowEnv) (f : FlowRun σ) :
    ∃ lastDrain ackedHigh drainWarned stallMark stallCount, f.noteDrain m env =
      { f.st with lastDrain, ackedHigh, drainWarned, stallMark, stallCount } := by
  simp only [FlowRun.noteDrain]
  split
  · exact ⟨_, _, _, _, _, rfl⟩
  · split <;> exact ⟨_, _, _, _, _, rfl⟩

theorem TurnRule.account (r : TurnRule m tun P) (env : FlowEnv) (h : P f) :
    P (f.account m tun env) := by
  obtain ⟨_, _, _, _, _, hnote⟩ := FlowRun.noteDrain_frame m env f
  simp only [FlowRun.account, hnote]
  exact r .accounted h

theorem TurnRule.upload (r : TurnRule m tun P) (env : FlowEnv) (h : P f) :
    P (f.upload m tun env) := by
  simp only [FlowRun.upload]
  split
  · exact r .flapped (r.account env (r.pushPending env h))
  · exact r.account env (r.pushPending env h)

theorem FlowRun.upload_established (m : Smoltcp σ υ) (tun : Tuning) (env : FlowEnv)
    (f : FlowRun σ) :
    (f.upload m tun env).st.established = f.st.established := by
  have hpush : (f.pushPending m env).st.established = f.st.established := by
    simp only [FlowRun.pushPending]
    split
    · rfl
    · split
      · split <;> rfl
      · rfl
  have hnote : ∀ g : FlowRun σ, (g.noteDrain m env).established = g.st.established := by
    intro g
    obtain ⟨_, _, _, _, _, hframe⟩ := FlowRun.noteDrain_frame m env g
    rw [hframe]
  simp only [FlowRun.upload]
  split
  · exact (hnote _).trans hpush
  · exact (hnote _).trans hpush

/-- **A property every edit keeps is kept by the turn.** -/
theorem serviceFlow_ends (r : TurnRule m tun P) (limits : TcpLimits) (now : Nat) (env : FlowEnv)
    (h : P { st, sock, log := [] }) : (serviceFlow m tun limits now env st sock).Ends P := by
  simp only [serviceFlow]
  split
  · exact FlowRun.remove_ends h
  · have he := r.establish h
    split
    · rename_i hest
      exact r.down.download (r.upload env he) (by rw [FlowRun.upload_established]; exact hest)
    · split
      · exact FlowRun.remove_ends (r.answerError _ he)
      · split
        · exact FlowRun.remove_ends (r.answerError _ he)
        · exact FlowRun.keep_ends he

theorem serviceFlow_kept (r : TurnRule m tun P) (h : P { st, sock, log := [] })
    (hnext : (serviceFlow m tun limits now env st sock).next = some (st', sock')) :
    P { st := st', sock := sock', log := (serviceFlow m tun limits now env st sock).log } := by
  have hends := serviceFlow_ends r limits now env h
  unfold FlowTurn.Ends at hends
  rw [hnext] at hends
  exact hends

theorem serviceFlow_removed (r : TurnRule m tun P) (h : P { st, sock, log := [] })
    (hnext : (serviceFlow m tun limits now env st sock).next = none) :
    ∃ f, P f ∧ (serviceFlow m tun limits now env st sock).log = f.log ++ [.removed] := by
  have hends := serviceFlow_ends r limits now env h
  unfold FlowTurn.Ends at hends
  rw [hnext] at hends
  exact hends

/-! ### The log -/

theorem DownEdit.log_extends {g : FlowRun σ} (h : DownEdit m f g) : f.log <+: g.log := by
  cases h <;> first | exact prefix_append _ _ | exact prefix_rfl

theorem TurnEdit.log_extends {g : FlowRun σ} (h : TurnEdit m tun f g) : f.log <+: g.log := by
  cases h with
  | down h => exact h.log_extends
  | _ => first | exact prefix_append _ _ | exact prefix_rfl

theorem logPrefix_down (l : List FlowEvent) : DownRule m fun f => l <+: f.log :=
  fun _ _ hedit h => h.trans hedit.log_extends

/-- What only resets touch. -/
theorem TurnRule.unreset
    (h : ∀ {f g}, TurnEdit m tun f g → FlowEvent.abort ∉ g.log → P f → P g) :
    TurnRule m tun fun f => FlowEvent.abort ∉ f.log → P f :=
  fun _ _ hedit hP hlog => h hedit hlog (hP fun hc => hlog (hedit.log_extends.subset hc))

theorem FlowTurn.Ends.log_extends {t : FlowTurn σ} {l : List FlowEvent}
    (h : t.Ends fun f => l <+: f.log) : l <+: t.log := by
  unfold FlowTurn.Ends at h
  split at h
  · exact h
  · obtain ⟨f, hf, hlog⟩ := h
    rw [hlog]
    exact hf.trans (prefix_append _ _)

/-- What the log holds before the second half of a turn it holds at the end. -/
theorem FlowRun.download_log (hest : f.st.established = true) :
    f.log <+: (f.download m limits now env).log :=
  ((logPrefix_down f.log).download (prefix_refl _) hest).log_extends

theorem FlowRun.afterDelivery_log {n k : Nat} (hclosed : (f.deliver m answers n k).2 = .closed)
    (hest : (f.deliver m answers n k).1.st.established = true) :
    (f.deliver m answers n k).1.log <+:
      (FlowRun.afterDelivery m limits now (f.deliver m answers n k)).log :=
  ((logPrefix_down _).afterDelivery (fun _ => FlowRun.deliver_gone hclosed) (prefix_refl _)
    hest).log_extends

theorem FlowRun.finish_log (hest : f.st.established = true) :
    (f.finish m b).log = f.log ++
      if m.state f.sock = .closeWait then [.close f.st.pending]
      else if m.state f.sock = .closed ∨ m.state f.sock = .timeWait then [.removed]
      else [] := by
  rw [FlowRun.finish_eq hest]
  split
  · rfl
  · split
    · rfl
    · exact (append_nil _).symm

/-- The end of a turn logs a close or the removal. -/
theorem FlowRun.mem_finish {e : FlowEvent} (hest : f.st.established = true)
    (hclose : ∀ p, e ≠ .close p) (hrem : e ≠ .removed) (h : e ∈ (f.finish m b).log) :
    e ∈ f.log := by
  rw [FlowRun.finish_log hest, mem_append] at h
  rcases h with h | h
  · exact h
  · split at h
    · exact absurd (mem_singleton.mp h) (hclose _)
    · split at h
      · exact absurd (mem_singleton.mp h) hrem
      · cases h

/-! ### The two shapes of a turn -/

theorem FlowRun.establish_established :
    (f.establish m).st.established =
      (f.st.established || (m.state f.sock == .established || m.state f.sock == .closeWait)) := by
  simp only [FlowRun.establish]
  cases hest : f.st.established with
  | false =>
    cases hs : (m.state f.sock == .established || m.state f.sock == .closeWait) with
    | false => simpa using hest
    | true => simp
  | true => simpa using hest

theorem FlowRun.establish_sock : (f.establish m).sock = f.sock := by
  simp only [FlowRun.establish]
  split <;> rfl

/-- A flow that has been reset is removed and nothing else. -/
theorem serviceFlow_aborted (hab : st.aborted = true) :
    serviceFlow m tun limits now env st sock =
      { next := none, backpressured := false, log := [.removed] } := by
  simp only [serviceFlow, hab, if_true]
  rfl

theorem serviceFlow_established (hab : st.aborted = false)
    (hest : (FlowRun.establish m { st, sock, log := [] }).st.established = true) :
    serviceFlow m tun limits now env st sock =
      ((FlowRun.establish m { st, sock, log := [] }).upload m tun env).download m limits now
        env := by
  simp only [serviceFlow, hab, hest, if_true]
  rfl

/-- A flow that is still connecting does nothing but answer and be removed. -/
theorem serviceFlow_connecting (hab : st.aborted = false)
    (hest : (FlowRun.establish m { st, sock, log := [] }).st.established = false) :
    ((serviceFlow m tun limits now env st sock).next = some (st, sock) ∧
      (serviceFlow m tun limits now env st sock).log = []) ∨
    ((serviceFlow m tun limits now env st sock).next = none ∧
      ∃ es, (serviceFlow m tun limits now env st sock).log = es ++ [.removed] ∧
        ∀ e ∈ es, ∃ error, e = .answered (some error)) := by
  have hsame : FlowRun.establish m { st, sock, log := [] } = { st, sock, log := [] } := by
    rw [FlowRun.establish_established] at hest
    simp only [Bool.or_eq_false_iff] at hest
    simp [FlowRun.establish, hest.2.1, hest.2.2]
  have hanswer : ∀ error, ∃ es, ((FlowRun.answerError { st, sock, log := [] } error).remove
      false).log = es ++ [.removed] ∧ ∀ e ∈ es, ∃ error, e = .answered (some error) := by
    intro error
    simp only [FlowRun.answerError]
    split
    · exact ⟨[.answered (some error)], rfl, by simp⟩
    · exact ⟨[], rfl, by simp⟩
  have hst : st.established ≠ true := by
    rw [hsame] at hest
    exact ne_true_of_eq_false hest
  have hshape : serviceFlow m tun limits now env st sock =
      if m.state sock = .closed ∨ m.state sock = .timeWait then
        (FlowRun.answerError { st, sock, log := [] } "connection refused").remove false
      else if (!st.connectResp || env.respClosed) || decide (now ≥ st.connectDeadline) then
        (FlowRun.answerError { st, sock, log := [] } "connection timed out").remove false
      else FlowRun.keep { st, sock, log := [] } false := by
    simp only [serviceFlow, hab, hsame, if_neg hst]
    rfl
  rw [hshape]
  split
  · exact Or.inr ⟨rfl, hanswer _⟩
  · split
    · exact Or.inr ⟨rfl, hanswer _⟩
    · exact Or.inl ⟨rfl, rfl⟩

theorem serviceFlow_connecting_log {e : FlowEvent} (hab : st.aborted = false)
    (hest : (FlowRun.establish m { st, sock, log := [] }).st.established = false)
    (he : e ∈ (serviceFlow m tun limits now env st sock).log) :
    e = .removed ∨ ∃ error, e = .answered (some error) := by
  rcases serviceFlow_connecting hab hest with ⟨-, hlog⟩ | ⟨-, es, hlog, hes⟩
  · rw [hlog] at he
    cases he
  · rw [hlog, mem_append] at he
    rcases he with he | he
    · exact Or.inr (hes e he)
    · exact Or.inl (mem_singleton.mp he)

/-- An event other than a refusal and a removal is of a flow that is up. -/
theorem established_of_mem {e : FlowEvent} (hrem : e ≠ .removed)
    (hans : ∀ error, e ≠ .answered (some error))
    (he : e ∈ (serviceFlow m tun limits now env st sock).log) :
    st.aborted = false ∧
      (FlowRun.establish m { st, sock, log := [] }).st.established = true := by
  cases hab : st.aborted with
  | true =>
    rw [serviceFlow_aborted hab] at he
    exact absurd (mem_singleton.mp he) hrem
  | false =>
    cases hest : (FlowRun.establish m { st, sock, log := [] }).st.established with
    | true => exact ⟨rfl, rfl⟩
    | false =>
      rcases serviceFlow_connecting_log hab hest he with he | ⟨error, he⟩
      · exact absurd he hrem
      · exact absurd he (hans error)

/-- A flow that stays was connecting and is as it was, or it is up. -/
theorem serviceFlow_cases
    (hnext : (serviceFlow m tun limits now env st sock).next = some (st', sock')) :
    (st.established = false ∧ st' = st ∧ sock' = sock) ∨ (st.aborted = false ∧
      (FlowRun.establish m { st, sock, log := [] }).st.established = true) := by
  cases hab : st.aborted with
  | true => cases (congrArg FlowTurn.next (serviceFlow_aborted hab)).symm.trans hnext
  | false =>
    cases hest : (FlowRun.establish m { st, sock, log := [] }).st.established with
    | true => exact Or.inr ⟨rfl, rfl⟩
    | false =>
      rcases serviceFlow_connecting hab hest with ⟨hsame, -⟩ | ⟨hgone, -⟩
      · cases hsame.symm.trans hnext
        rw [FlowRun.establish_established, Bool.or_eq_false_iff] at hest
        exact Or.inl ⟨hest.1, rfl, rfl⟩
      · cases hgone.symm.trans hnext

/-- A flow that is not established after its turn is as it was before. -/
theorem serviceFlow_unestablished
    (hnext : (serviceFlow m tun limits now env st sock).next = some (st', sock'))
    (hest' : st'.established = false) : st' = st ∧ sock' = sock := by
  rcases serviceFlow_cases hnext with ⟨-, hsame⟩ | ⟨hab, hest⟩
  · exact hsame
  · rw [serviceFlow_established hab hest] at hnext
    have hup := (FlowRun.upload_established m tun env _).trans hest
    have hends : (FlowRun.download m limits now env _).Ends fun f => f.st.established = true :=
      (DownRule.established m).download hup hup
    unfold FlowTurn.Ends at hends
    rw [hnext] at hends
    exact absurd (hest'.symm.trans hends) (by simp)

/-- A turn without a reset. -/
theorem upload_unreset (hest : f.st.established = true)
    (hreset : FlowEvent.abort ∉ ((f.upload m tun env).download m limits now env).log) :
    (f.upload m tun env).st.established = true ∧
      FlowEvent.abort ∉ (f.upload m tun env).log := by
  have hup := (FlowRun.upload_established m tun env f).trans hest
  exact ⟨hup, fun hc => hreset ((FlowRun.download_log hup).subset hc)⟩

/-- Without a reset, the first half of a turn is the push and the bookkeeping. -/
theorem upload_of_no_abort (h : FlowEvent.abort ∉ (f.upload m tun env).log) :
    f.upload m tun env = (f.pushPending m env).account m tun env := by
  simp only [FlowRun.upload] at h ⊢
  split at h
  · exact absurd (by simp [FlowRun.resetFlapping]) h
  · rename_i hflaps
    rw [if_neg hflaps]

/-! ### The parts of an entry a turn never writes -/

structure TcpState.SameFlow (st₀ st : TcpState) : Prop where
  handle : st.handle = st₀.handle
  halfClosed : st.halfClosed = st₀.halfClosed
  sent : st.credit.sent = st₀.credit.sent
  acked : st₀.credit.acked ≤ st.credit.acked

theorem FlowCredit.acked_le_publish (c : FlowCredit) (acked cap : Nat) :
    c.acked ≤ (c.publish acked cap).acked := by
  unfold FlowCredit.publish
  simp only
  split
  · omega
  · exact le_rfl

theorem sameFlow_rule (st₀ : TcpState) :
    TurnRule m tun fun f : FlowRun σ => st₀.SameFlow f.st := by
  intro f g hedit h
  cases hedit with
  | down hdown => cases hdown <;> exact ⟨h.handle, h.halfClosed, h.sent, h.acked⟩
  | accounted =>
    exact ⟨h.handle, h.halfClosed, h.sent, h.acked.trans (FlowCredit.acked_le_publish _ _ _)⟩
  | _ => exact ⟨h.handle, h.halfClosed, h.sent, h.acked⟩

theorem serviceFlow_sameFlow
    (hnext : (serviceFlow m tun limits now env st sock).next = some (st', sock')) :
    st.SameFlow st' :=
  serviceFlow_kept (sameFlow_rule st) ⟨rfl, rfl, rfl, le_rfl⟩ hnext

end

end Aether
