/-
Admission control keeps the backlog empty.

A writer goes on when nothing of its flow is outstanding or when its chunk fits into the
budget, and either way what it adds ends at most `max_tcp_pending` bytes after what is
acknowledged.  That position is fixed from the `fetch_add` on: the message keeps it in
the channel (`Fits`) and when it is ingested, while `acked` can only grow.  What is
pending lies between the acknowledged bytes and the ingested ones, so it is never full
when a message of the flow arrives.
-/
import Aether.Proofs.Netstack.Credit

namespace Aether

open List Machine

variable {σ υ : Type} {m : Smoltcp σ υ} {tun : Tuning} {id : Nat}

/-- Writers send chunks of at most `max_tcp_pending`, and `reserve` never lets them go
because it waited too long or because the credit is closed. -/
def patient (tun : Tuning) : WriterCond where
  chunk data := data.length ≤ tun.maxTcpPending
  reserve r := r ≠ .sawClosed ∧ r ≠ .timedOut

/-! ### The budget -/

theorem maxBudget_lt (tun : Tuning) : maxBudget tun < tun.maxTcpPending := by
  simp only [maxBudget, Tuning.maxTcpPending, Tuning.tcpBuf, minFlowQueueBytes]
  omega

theorem bufferOverride_le {value : Option Nat} {fallback : Nat}
    (h : fallback ≤ 64 * 1024 * 1024) : bufferOverride value fallback ≤ 64 * 1024 * 1024 := by
  unfold bufferOverride
  cases hv : value.filter fun bytes => 16 * 1024 ≤ bytes ∧ bytes ≤ 64 * 1024 * 1024 with
  | none => exact h
  | some bytes =>
    have hpass := (Option.filter_eq_some_iff.mp hv).2
    simp only [Bool.decide_and, Bool.and_eq_true, decide_eq_true_eq] at hpass
    exact hpass.2

/-- The sums `reserve` compares do not reach the end of `u64`. -/
theorem maxBudget_lt_u64Max (target : Target) (tier : Tier) (tx rx : Option Nat) :
    maxBudget (buildTuning target tier tx rx) < u64Max := by
  have htx : (buildTuning target tier tx rx).tcpTxBuf ≤ 64 * 1024 * 1024 := by
    cases tier <;> exact bufferOverride_le (by decide)
  simp only [maxBudget, minFlowQueueBytes, u64Max]
  omega

/-- What an open gate says about the bytes outstanding. -/
theorem FlowCredit.hasRoom_le {c : FlowCredit} {out len : Nat} (hcap : c.cap < u64Max)
    (h : c.hasRoom out len = true) : out = 0 ∨ out + len ≤ c.cap := by
  simp only [hasRoom, Bool.or_eq_true, beq_iff_eq, decide_eq_true_eq] at h
  refine h.imp_right fun hsum => ?_
  unfold budget at hsum
  omega

/-! ### The messages in the channel -/

/-- After `n` bytes, each upload message of the channel in turn ends within `limit`, and
none starts there. -/
def Fits (limit : Nat) : Nat → List DataIn → Prop
  | _, [] => True
  | n, .tcp _ data :: rest =>
    n + data.length ≤ limit ∧ n < limit ∧ Fits limit (n + data.length) rest
  | n, _ :: rest => Fits limit n rest

namespace Fits

theorem mono {limit limit' : Nat} (hle : limit ≤ limit') :
    ∀ {q : List DataIn} {n : Nat}, Fits limit n q → Fits limit' n q := by
  intro q
  induction q with
  | nil => intro n _; trivial
  | cons d rest ih =>
    intro n h
    cases d with
    | tcp i data => exact ⟨h.1.trans hle, lt_of_lt_of_le h.2.1 hle, ih h.2.2⟩
    | _ => exact ih (n := n) h

theorem append {limit : Nat} {r : List DataIn} :
    ∀ {q : List DataIn} {n : Nat}, Fits limit n q → Fits limit (n + (stream q).length) r →
      Fits limit n (q ++ r) := by
  intro q
  induction q with
  | nil => intro n _ hr; exact hr
  | cons d rest ih =>
    intro n h hr
    rw [stream_cons, length_append, ← Nat.add_assoc] at hr
    cases d with
    | tcp i data => exact ⟨h.1, h.2.1, ih h.2.2 hr⟩
    | _ => exact ih (n := n) h hr

theorem of_noTcp {limit : Nat} :
    ∀ {q : List DataIn} {n : Nat}, (∀ i data, DataIn.tcp i data ∉ q) → Fits limit n q := by
  intro q
  induction q with
  | nil => intro n _; trivial
  | cons d rest ih =>
    intro n h
    have hrest : ∀ i data, DataIn.tcp i data ∉ rest :=
      fun i data hc => h i data (mem_cons_of_mem _ hc)
    cases d with
    | tcp i data => exact absurd mem_cons_self (h i data)
    | _ => exact ih (n := n) hrest

/-- The front message moves from the channel to what is ingested. -/
theorem tail {limit n : Nat} {d : DataIn} {q : List DataIn} (h : Fits limit n (d :: q))
    (hn : n ≤ limit) :
    n + d.payload.length ≤ limit ∧ Fits limit (n + d.payload.length) q := by
  cases d with
  | tcp i data => exact ⟨h.1, h.2.2⟩
  | _ => exact ⟨hn, h⟩

end Fits

/-! ### The gate -/

/-- Where a writer may be, with `limit` bytes allowed and `acked` of them acknowledged. -/
def Gate.WriterFits (tun : Tuning) (g : Gate) : Prop :=
  match g.writer with
  | .idle => True
  | .waiting data | .unclosed data => data.length ≤ tun.maxTcpPending
  | .counted data out => data.length ≤ tun.maxTcpPending ∧ g.credit.sent ≤ g.credit.acked + out
  | .admitted data =>
    g.credit.sent + data.length ≤ tun.maxTcpPending + g.credit.acked ∧
    g.credit.sent < tun.maxTcpPending + g.credit.acked
  | .holding _ =>
    g.credit.sent ≤ tun.maxTcpPending + g.credit.acked ∧
    g.ingested + (stream g.channel).length < tun.maxTcpPending + g.credit.acked

structure Gate.Admitted (tun : Tuning) (g : Gate) : Prop where
  balanced : g.Balanced
  cap : g.credit.cap ≤ maxBudget tun
  ingested : g.ingested ≤ tun.maxTcpPending + g.credit.acked
  channel : Fits (tun.maxTcpPending + g.credit.acked) g.ingested g.channel
  writer : g.WriterFits tun

theorem Gate.Fresh.admitted {g : Gate} (h : g.Fresh tun) : g.Admitted tun where
  balanced := h.balanced
  cap := h.cap
  ingested := by rw [h.ingested]; exact Nat.zero_le _
  channel := .of_noTcp h.channel
  writer := by
    unfold Gate.WriterFits
    rw [h.writer]
    trivial

/-- The loads of `reserve` take a writer no further than the credit allows. -/
theorem writerFits_reserved (hmax : maxBudget tun < u64Max) {g : Gate} (h : g.Admitted tun)
    {r : ReserveStep} (hr : r ≠ .add) (henabled : r.Enabled (some g.credit) g.writer)
    (hW : (patient tun).reserve r) :
    Gate.WriterFits tun { g with writer := r.next g.writer } := by
  have hw := h.writer
  unfold Gate.WriterFits at hw ⊢
  have hlt := maxBudget_lt tun
  have hcap := h.cap
  cases r with
  | sawClosed => exact absurd rfl hW.1
  | timedOut => exact absurd rfl hW.2
  | add => exact absurd rfl hr
  | sawOpen =>
    cases hp : g.writer with
    | waiting data => rw [hp] at hw; exact hw
    | _ => rw [hp] at henabled; exact absurd henabled id
  | count out =>
    cases hp : g.writer with
    | unclosed data =>
      rw [hp] at hw henabled
      have hout : out = g.credit.sent - g.credit.acked := henabled g.credit rfl
      refine ⟨hw, ?_⟩
      simp only
      omega
    | _ => rw [hp] at henabled; exact absurd henabled id
  | room =>
    cases hp : g.writer with
    | counted data out =>
      rw [hp] at hw henabled
      have hroom := FlowCredit.hasRoom_le (by omega) (henabled g.credit rfl)
      simp only [ReserveStep.next]
      omega
    | _ => rw [hp] at henabled; exact absurd henabled id
  | sleep =>
    cases hp : g.writer with
    | counted data out => rw [hp] at hw; exact hw.1
    | _ => rw [hp] at henabled; exact absurd henabled id

theorem admitted_step (hmax : maxBudget tun < u64Max) {g g' : Gate}
    (hstep : GateStep tun (patient tun) id g g') (h : g.Admitted tun) : g'.Admitted tun := by
  have hbalanced := balanced_step hstep h.balanced
  have hw := h.writer
  unfold Gate.WriterFits at hw
  cases hstep with
  | @published c hsent hacked hcap =>
    refine ⟨hbalanced, hcap, ?_, h.channel.mono (Nat.add_le_add_left hacked _), ?_⟩
    · exact h.ingested.trans (Nat.add_le_add_left hacked _)
    · unfold Gate.WriterFits
      cases hp : g.writer with
      | counted data out | admitted data | holding data => rw [hp] at hw; simp only; omega
      | _ => rw [hp] at hw; exact hw
  | @delivered d rest hchannel =>
    have hfits := h.channel
    rw [hchannel] at hfits
    obtain ⟨hingested, hrest⟩ := hfits.tail h.ingested
    refine ⟨hbalanced, h.cap, hingested, hrest, ?_⟩
    unfold Gate.WriterFits
    cases hp : g.writer with
    | holding data =>
      rw [hp, hchannel, stream_cons, length_append] at hw
      simp only
      omega
    | _ => rw [hp] at hw; exact hw
  | @posted d hd =>
    have hnone : ∀ i data, DataIn.tcp i data ∉ [d] :=
      fun i data hc => hd i data (mem_singleton.mp hc).symm
    refine ⟨hbalanced, h.cap, h.ingested, h.channel.append (.of_noTcp hnone), ?_⟩
    unfold Gate.WriterFits
    cases hp : g.writer with
    | holding data =>
      rw [hp] at hw
      rw [stream_append, stream_eq_nil_of_noTcp hnone, append_nil]
      exact hw
    | _ => rw [hp] at hw; exact hw
  | called hidle hW => exact ⟨hbalanced, h.cap, h.ingested, h.channel, hW⟩
  | reserved hr henabled hW =>
    exact ⟨hbalanced, h.cap, h.ingested, h.channel, writerFits_reserved hmax h hr henabled hW⟩
  | added hwriter =>
    have hsent := h.balanced
    unfold Gate.Balanced at hsent
    rw [hwriter] at hw hsent
    refine ⟨hbalanced, h.cap, h.ingested, h.channel, ?_⟩
    simp only [Gate.WriterFits, FlowCredit.addSent, Writer.hand, length_nil] at hsent ⊢
    omega
  | @pushed data hwriter =>
    have hsent := h.balanced
    unfold Gate.Balanced at hsent
    rw [hwriter] at hw hsent
    simp only [Writer.hand] at hsent hw
    refine ⟨hbalanced, h.cap, h.ingested, h.channel.append ⟨?_, hw.2, trivial⟩, trivial⟩
    omega

/-! ### The backlog -/

/-- There is room in `pending` for a message. -/
def HasRoom (tun : Tuning) (s : NetStack σ υ) (d : DataIn) : Prop :=
  ∀ id data st, d = .tcp id data → s.tcpConns id = some st →
    st.pending.length < tun.maxTcpPending ∧ st.pending.length + data.length ≤ tun.maxTcpPending

variable {d : DataIn} {w : AppWorld σ υ}

theorem Handled.taken_of_room {s s' : NetStack σ υ} {o : Option DataIn}
    (h : Handled m tun s d s' o) (hroom : HasRoom tun s d) : o = none := by
  cases h with
  | full hst hfull => exact absurd (hroom _ _ _ rfl hst).1 (by omega)
  | split hst hn hmore => exact absurd (hroom _ _ _ rfl hst).2 (by omega)
  | _ => rfl

/-- A message that finds room is not deferred. -/
theorem tryHandleData_of_room {s : NetStack σ υ} (ht : Tables s) (hroom : HasRoom tun s d) :
    ∃ s', tryHandleData m tun s d = .ok (s', none) := by
  obtain ⟨⟨s', o⟩, hr⟩ := tryHandleData_succeeds m tun ht d
  have hnone : o = none := (handled_of_ok hr).taken_of_room hroom
  exact ⟨s', hnone ▸ hr⟩

theorem Backlog.purge_empty (i : Nat) : Backlog.empty.purge i = .empty := by
  simp [Backlog.empty, Backlog.purge]

/-- Only a message that finds no room fills an empty backlog. -/
theorem step_backlog_empty {w w' : World σ υ} {l : Step σ υ} (hw : w.backlog = .empty)
    (hroom : ∀ d ∈ l.message, HasRoom tun w.stack d) (hstep : step m tun w l = .ok w') :
    w'.backlog = .empty := by
  cases l with
  | poll | flushTx | inbound =>
    cases hstep
    exact hw
  | serviceTcp | serviceUdp | cmd =>
    obtain ⟨r, -, heq⟩ := bind_eq_ok.mp hstep
    cases heq
    exact hw
  | drainBacklog =>
    obtain ⟨r, hr, heq⟩ := bind_eq_ok.mp hstep
    cases heq
    have hqueue : Backlog.empty.queue.isEmpty = true := rfl
    rw [drainBacklog, hw, if_pos hqueue] at hr
    cases hr
    rfl
  | reapWedged ids blockedIds stallAt wedgeAt =>
    obtain ⟨r, hr, heq⟩ := bind_eq_ok.mp hstep
    cases heq
    obtain ⟨reset, hreset⟩ := reapWedged_ok hr
    exact foldlM_keeps (P := fun acc : NetStack σ υ × Backlog => acc.2 = .empty) hreset hw
      (fun i _ t t' ht hone => by rw [(reapOne_ok hone).2, ht, Backlog.purge_empty])
  | ingest d =>
    obtain ⟨r, hr, heq⟩ := bind_eq_ok.mp hstep
    cases heq
    rcases ingest_cases hr with ⟨hblocked, -⟩ | ⟨-, o, hd, hback⟩
    · rw [hw] at hblocked
      exact absurd hblocked (Finset.notMem_empty _)
    · have hnone : o = none := hd.taken_of_room (hroom d (mem_singleton.mpr rfl))
      rw [hback, hnone]
      exact hw

/-- The front message of the channel finds room. -/
theorem hasRoom_front (hw : AppSound tun w) (hgates : ∀ id g, w.gate id = some g → g.Admitted tun)
    {rest : List DataIn} (hchannel : w.channel = d :: rest) : HasRoom tun w.stack d := by
  rintro id data st rfl hst
  have hcount := (hw.live hst).2
  have hheld := hcount.held
  have hacked := hcount.acked
  have hfits := (hgates id _ (AppWorld.gate_of_live hst)).channel
  simp only [AppWorld.inChannel, hchannel, KeyedQueue.ofKey_cons_self (DataIn.id_tcp id data)]
    at hfits
  obtain ⟨hend, hstart, -⟩ := hfits
  omega

/-- The channel's messages are ingested one by one. -/
theorem appStep_backlog_empty {w' : AppWorld σ υ} {l : AppStep σ υ} (hw : AppSound tun w)
    (hgates : ∀ id g, w.gate id = some g → g.Admitted tun) (hempty : w.world.backlog = .empty)
    (hv : l.Valid m w) (hstep : appStep m tun w l = .ok w') : w'.world.backlog = .empty := by
  cases appStep_edit hv l.writes_any hstep with
  | @world l world rest _ hworld hchannel =>
    refine step_backlog_empty hempty (fun d hd => ?_) hworld
    cases l with
    | ingest d' =>
      rw [mem_singleton.mp hd]
      exact hasRoom_front hw hgates hchannel
    | _ => cases hd
  | added _ =>
    unfold AppWorld.setWriter AppWorld.addSent
    split
    · exact hempty
    · exact hempty
  | _ => exact hempty

theorem admission_invariant (hb : m.SendBound) (hmax : maxBudget tun < u64Max)
    {iface : List IpCidr} {mtu : Nat} {limits : TcpLimits} {steps : List (AppStep σ υ)}
    (h : AppRunsWith m tun (patient tun) (.start iface mtu limits) steps w) :
    AppSound tun w ∧ (∀ id g, w.gate id = some g → g.Admitted tun) ∧
      w.world.backlog = .empty :=
  h.invariant
    (P := fun w => AppSound tun w ∧ (∀ id g, w.gate id = some g → g.Admitted tun) ∧
      w.world.backlog = .empty)
    ⟨AppSound.start iface mtu limits, fun id g hg => (by cases hg), rfl⟩
    (fun t l t' ht hok hstep => by
      obtain ⟨hsound, hgates, hempty⟩ := ht
      obtain ⟨hsound', hgate⟩ := appStep_gate hb hsound hok.1 hok.2 hstep
      refine ⟨hsound', fun id g' hg' => ?_, ?_⟩
      · exact (hgate id g' hg').keeps (hgates id) (fun _ hf => hf.admitted)
          fun _ _ => admitted_step hmax
      · exact appStep_backlog_empty hsound hgates hempty hok.1 hstep)

/-- **Admission control makes the backlog unreachable.**  While writers leave `reserve`
only for room and send chunks of at most `max_tcp_pending`, no flow has more than that
pending, no message is deferred, and the backlog stays empty. -/
theorem backlog_unreachable (hb : m.SendBound) {target : Target} {tier : Tier}
    {txOverride rxOverride : Option Nat}
    (htun : tun = buildTuning target tier txOverride rxOverride) {w : AppWorld σ υ}
    {iface : List IpCidr} {mtu : Nat} {limits : TcpLimits} {steps : List (AppStep σ υ)}
    (h : AppRunsWith m tun (patient tun) (.start iface mtu limits) steps w) :
    (∀ id st, w.stack.tcpConns id = some st → st.pending.length ≤ tun.maxTcpPending) ∧
    (∀ d rest, w.channel = d :: rest → ∃ s', tryHandleData m tun w.stack d = .ok (s', none)) ∧
    w.world.backlog = .empty := by
  have hmax : maxBudget tun < u64Max := by
    rw [htun]
    exact maxBudget_lt_u64Max target tier txOverride rxOverride
  obtain ⟨hsound, hgates, hempty⟩ := admission_invariant hb hmax h
  refine ⟨fun id st hst => ?_, fun d rest hchannel => ?_, hempty⟩
  · have hcount := (hsound.live hst).2
    have hheld := hcount.held
    have hacked := hcount.acked
    have hingested := (hgates id _ (AppWorld.gate_of_live hst)).ingested
    simp only at hingested
    omega
  · exact tryHandleData_of_room hsound.sound.stack.toTables (hasRoom_front hsound hgates hchannel)

/-- Three bytes on their way through the channel. -/
theorem backlog_unreachable_upload :
    ∃ w : AppWorld Simple.Socket Unit, w.channel = [.tcp 1 [1, 2, 3]] ∧
      (∃ s', tryHandleData Simple.tcp Simple.tuning w.stack (.tcp 1 [1, 2, 3]) = .ok (s', none)) ∧
      w.world.backlog = .empty := by
  have hcalm : ∀ r, r ≠ .sawClosed → r ≠ .timedOut → (patient Simple.tuning).reserve r :=
    fun _ hclosed htimed => ⟨hclosed, htimed⟩
  have hchunk : (patient Simple.tuning).chunk [1, 2, 3] := by
    change [1, 2, 3].length ≤ Simple.tuning.maxTcpPending
    decide
  obtain ⟨steps, hrun⟩ := Solo.app_sent hchunk hcalm
  obtain ⟨-, hfront, hempty⟩ := backlog_unreachable Simple.sendQueue.toSendBound rfl hrun
  exact ⟨_, rfl, hfront _ [] rfl, hempty⟩

/-! ### The upload in memory -/

theorem Fits.stream_le {limit : Nat} {q : List DataIn} :
    ∀ {n : Nat}, Fits limit n q → n ≤ limit → n + (stream q).length ≤ limit := by
  induction q with
  | nil => intro n _ hn; exact hn
  | cons d rest ih =>
    intro n h hn
    obtain ⟨hd, hrest⟩ := h.tail hn
    rw [stream_cons, length_append, ← Nat.add_assoc]
    exact ih hrest hd

/-- **The upload a flow holds in memory is bounded**: at most `max_tcp_pending` bytes are pending
or in the channel. -/
theorem upload_bounded (hb : m.SendBound) {target : Target} {tier : Tier}
    {txOverride rxOverride : Option Nat}
    (htun : tun = buildTuning target tier txOverride rxOverride) {iface : List IpCidr} {mtu : Nat}
    {limits : TcpLimits} {steps : List (AppStep σ υ)}
    (h : AppRunsWith m tun (patient tun) (.start iface mtu limits) steps w) (id : Nat)
    {st : TcpState} (hst : w.stack.tcpConns id = some st) :
    st.pending.length + (stream (w.inChannel id)).length ≤ tun.maxTcpPending := by
  have hmax := htun ▸ maxBudget_lt_u64Max target tier txOverride rxOverride
  obtain ⟨hsound, hgates, -⟩ := admission_invariant hb hmax h
  obtain ⟨hheld, hacked, -⟩ := (hsound.live hst).2
  have hgate := hgates id _ (AppWorld.gate_of_live hst)
  have hchannel := hgate.channel.stream_le hgate.ingested
  simp only at hchannel
  omega

theorem upload_bounded_sent :
    ∃ (w : AppWorld Simple.Socket Unit) (st : TcpState), w.stack.tcpConns 1 = some st ∧
      stream (w.inChannel 1) = [1, 2, 3] ∧
      st.pending.length + (stream (w.inChannel 1)).length ≤ Simple.tuning.maxTcpPending := by
  have hchunk : (patient Simple.tuning).chunk [1, 2, 3] := by
    change [1, 2, 3].length ≤ Simple.tuning.maxTcpPending
    decide
  obtain ⟨steps, hrun⟩ := Solo.app_sent hchunk fun _ hclosed htimed => ⟨hclosed, htimed⟩
  exact ⟨_, (Solo.up.counting 3).st, rfl, rfl,
    upload_bounded Simple.sendQueue.toSendBound rfl hrun 1 rfl⟩

end Aether
