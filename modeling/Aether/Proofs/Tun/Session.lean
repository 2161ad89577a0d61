/-
The tun bridge acknowledges what it keeps.

What a session has put into its queue is a beginning of the client's stream, and the number it
acknowledges is the position behind it.
-/
import Aether.Tun.Session

namespace Aether.Tun

open List Machine

variable {stream : Bytes} {isn : BitVec 32} {s s' : TcpSession}

/-! ### What holds between two segments -/

structure Kept (stream : Bytes) (isn : BitVec 32) (s : TcpSession) : Prop where
  ack : s.myAck = isn + 1 + BitVec.ofNat 32 s.acked
  beginning : s.queued.flatten <+: stream
  finished : s.clientClosed = true → s.queued.flatten = stream
  acks : ∀ a ∈ s.acks, ∃ n ≤ s.acked, a = isn + 1 + BitVec.ofNat 32 n

theorem Kept.new (stream : Bytes) (isn : BitVec 32) : Kept stream isn (.new isn) where
  ack := (BitVec.add_zero (isn + 1)).symm
  beginning := nil_prefix
  finished := by
    intro h
    cases h
  acks := by
    intro a h
    cases h

theorem Kept.sendAck (h : Kept stream isn s) : Kept stream isn s.sendAck where
  ack := h.ack
  beginning := h.beginning
  finished := h.finished
  acks := by
    intro a ha
    obtain ha | ha := mem_append.mp ha
    · exact h.acks a ha
    · rw [mem_singleton.mp ha]
      exact ⟨s.acked, Nat.le_refl _, h.ack⟩

/-! ### One segment -/

/-- The number behind `len` further positions. -/
theorem Kept.ack_add (h : Kept stream isn s) (len : Nat) :
    s.myAck + BitVec.ofNat 32 len = isn + 1 + BitVec.ofNat 32 (s.acked + len) := by
  rw [h.ack, BitVec.add_assoc, ← BitVec.ofNat_add]

/-- Behind the FIN the stream has nothing. -/
theorem Kept.acked_of_le (h : Kept stream isn s) (hle : s.acked ≤ stream.length) :
    s.clientClosed = false ∧ s.acked = s.queued.flatten.length := by
  unfold TcpSession.acked at hle ⊢
  cases hclosed : s.clientClosed with
  | false => exact ⟨rfl, rfl⟩
  | true =>
    rw [h.finished hclosed, hclosed, if_pos rfl] at hle
    omega

/-- **A payload at the acknowledged position lengthens what was queued.** -/
theorem Kept.put (h : Kept stream isn s) {payload : Bytes} (hne : payload ≠ [])
    (hpayload : payload <+: stream.drop s.acked) :
    Kept stream isn { s.put payload with
      myAck := s.myAck + BitVec.ofNat 32 payload.length } := by
  have hle : s.acked ≤ stream.length := by
    by_contra hlt
    rw [drop_of_length_le (by omega)] at hpayload
    exact hne (prefix_nil.mp hpayload)
  obtain ⟨hopen, hacked⟩ := h.acked_of_le hle
  have hflat : (s.queued ++ [payload]).flatten = s.queued.flatten ++ payload := by simp
  have hacked' : ({ s.put payload with
      myAck := s.myAck + BitVec.ofNat 32 payload.length } : TcpSession).acked
      = s.acked + payload.length := by
    show (s.queued ++ [payload]).flatten.length + (if s.clientClosed then 1 else 0) = _
    rw [hflat, hopen, hacked, length_append]
    rfl
  refine ⟨?_, ?_, ?_, ?_⟩
  · rw [hacked']
    exact h.ack_add payload.length
  · show (s.queued ++ [payload]).flatten <+: stream
    rw [hflat]
    rw [hacked] at hpayload
    obtain ⟨rest, hrest⟩ := h.beginning
    rw [← hrest, drop_left] at hpayload
    rw [← hrest]
    exact (prefix_append_right_inj _).mpr hpayload
  · intro (hclosed : s.clientClosed = true)
    rw [hopen] at hclosed
    cases hclosed
  · intro a ha
    obtain ⟨n, hn, heq⟩ := h.acks a ha
    exact ⟨n, by omega, heq⟩

/-- A FIN without payload at the acknowledged position ends the stream. -/
theorem Kept.fin (h : Kept stream isn s) (hend : s.acked = stream.length) :
    Kept stream isn { s with myAck := s.myAck + 1, clientClosed := true } := by
  have hacked := (h.acked_of_le (Nat.le_of_eq hend)).2
  have hall : s.queued.flatten = stream := h.beginning.eq_of_length (hacked.symm.trans hend)
  have hacked' : ({ s with myAck := s.myAck + 1, clientClosed := true } : TcpSession).acked
      = s.acked + 1 := by
    rw [hacked]
    rfl
  refine ⟨?_, h.beginning, fun _ => hall, ?_⟩
  · rw [hacked']
    exact h.ack_add 1
  · intro a ha
    obtain ⟨n, hn, heq⟩ := h.acks a ha
    exact ⟨n, by omega, heq⟩

theorem Kept.handleFromTun (h : Kept stream isn s) {pos : Nat} {g : Segment}
    (hg : OfStream stream isn pos g) (hok : Expected s pos g) :
    Kept stream isn (s.handleFromTun g) := by
  fun_cases TcpSession.handleFromTun s g
  · exact h
  · exact { h with }
  · exact { h with }
  · exact h
  next hclosed _ hconnected hfin hseq _ =>
    obtain ⟨hpure, -, hpos⟩ := hok ⟨by simpa using hclosed, by simpa using hconnected⟩ hseq
    have hend : s.acked = stream.length := by
      rw [← hg.fin hfin, hpure hfin, hpos]
      rfl
    have hkept := (h.fin hend).sendAck
    rw [← hseq] at hkept
    exact { hkept with }
  · exact h.sendAck
  · exact h
  next hclosed _ hconnected _ hne hseq _ =>
    obtain ⟨-, -, hpos⟩ := hok ⟨by simpa using hclosed, by simpa using hconnected⟩ hseq
    rw [hseq]
    exact (h.put hne (hpos ▸ hg.payload)).sendAck
  · -- a full queue: nothing is acknowledged
    exact h
  · exact h.sendAck

theorem Kept.step (h : Kept stream isn s) {l : Label} (hok : Proper stream isn s l)
    (hstep : s.step l = .ok s') : Kept stream isn s' := by
  revert hstep
  fun_cases TcpSession.step s l <;> intro hstep <;> cases hstep
  next pos g stale blocked =>
    fun_cases TcpSession.arrive
    · exact { h with }
    · exact h
    · exact { h with }
    · exact h.handleFromTun hok.1 hok.2
  all_goals exact { h with }

/-! ### Whole runs -/

/-- **The bridge acknowledges exactly what it keeps**, in every run in which no FIN with a
payload stands at the number the session waits for: what was queued is the client's bytes up to
the acknowledged number, all of them if the FIN was acknowledged, and no number beyond what is
queued was ever acknowledged. -/
theorem acknowledges_exactly_kept {ls : List Label}
    (hrun : Run TcpSession.step (Proper stream isn) (.new isn) ls s) :
    s.queued.flatten = stream.take s.queued.flatten.length ∧
      s.myAck = isn + 1 + BitVec.ofNat 32 s.acked ∧
      (s.clientClosed = true → s.queued.flatten = stream) ∧
      ∀ a ∈ s.acks, ∃ n ≤ s.acked, a = isn + 1 + BitVec.ofNat 32 n := by
  have hkept : Kept stream isn s := hrun.invariant (Kept.new stream isn)
    fun _ _ _ h hok hstep => h.step hok hstep
  exact ⟨prefix_iff_eq_take.mp hkept.beginning, hkept.ack, hkept.finished, hkept.acks⟩

/-- Two bytes that come out of order and twice, across the end of the sequence numbers, and the
FIN behind them. -/
theorem acknowledges_exactly_kept_wrapped :
    ∃ s, Run TcpSession.step (Proper [0x61, 0x62] 0xfffffffe) (.new 0xfffffffe)
        [.connect, .arrive 1 ⟨0, [0x62], false, true, false, false⟩ false false,
          .arrive 0 ⟨0xffffffff, [0x61, 0x62], false, true, false, false⟩ false false,
          .arrive 1 ⟨0, [0x62], false, true, false, false⟩ false false,
          .arrive 2 ⟨1, [], false, true, true, false⟩ false false] s ∧
      s.queued.flatten = [0x61, 0x62] ∧ s.myAck = 2 ∧
      s.queued.flatten = ([0x61, 0x62] : Bytes).take s.queued.flatten.length := by
  refine Run.exists_and
    (.snoc (.snoc (.snoc (.snoc (.snoc .nil ⟨trivial, trivial⟩ rfl)
      ⟨⟨by decide, by decide, by decide, by decide⟩, by intro _ h; revert h; decide⟩ rfl)
      ⟨⟨by decide, by decide, by decide, by decide⟩, by intro _ _; decide⟩ rfl)
      ⟨⟨by decide, by decide, by decide, by decide⟩, by intro _ h; revert h; decide⟩ rfl)
      ⟨⟨by decide, by decide, by decide, by decide⟩, by intro _ _; decide⟩ rfl) fun hrun => ?_
  exact ⟨rfl, rfl, (acknowledges_exactly_kept hrun).1⟩

/-- The last segment carries the stream and the FIN: one of its bytes is acknowledged and none
is queued. -/
theorem fin_payload_lost :
    ∃ s, Run TcpSession.step (fun _ => FromClient [0x61, 0x62] 0) (.new 0)
        [.connect, .arrive 0 ⟨1, [0x61, 0x62], false, true, true, false⟩ false false] s ∧
      s.myAck = 0 + 1 + 1 ∧ s.acks = [0 + 1 + 1] ∧ s.queued = [] ∧ s.clientClosed = true :=
  ⟨_, .snoc (.snoc .nil trivial rfl) ⟨by decide, by decide, by decide, by decide⟩ rfl, rfl, rfl,
    rfl, rfl⟩

end Aether.Tun
