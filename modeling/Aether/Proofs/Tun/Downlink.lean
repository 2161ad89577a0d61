/-
The downlink of the tun bridge has no holes as long as the queue has room for what the sessions
send.

The packets that were taken and those in the queue are one list, to which sessions append and
from which only an eviction removes something.
-/
import Aether.Tun.Downlink

namespace Aether.Tun

open List

/-! ### Ranges of numbers -/

variable {stop start : BitVec 32} {ls : List Downlink.Label}

/-- A range that begins where the others end lengthens what they cover. -/
theorem Covers.snoc {ranges : List (BitVec 32 × Nat)} (h : Covers start ranges stop) (len : Nat) :
    Covers start (ranges ++ [(stop, len)]) (stop + BitVec.ofNat 32 len) := by
  induction ranges generalizing start with
  | nil =>
    have hstart : start = stop := h
    subst hstart
    exact ⟨rfl, rfl⟩
  | cons range rest ih =>
    exact ⟨h.1, ih h.2⟩

/-- Without ranges nothing is covered. -/
theorem not_covers_of_nil {ranges : List (BitVec 32 × Nat)} (hnil : ranges = [])
    (hne : start ≠ stop) : ¬ Covers start ranges stop := by
  subst hnil
  exact hne

/-! ### What holds of the packets and the sessions -/

/-- What a session has among the packets. -/
def ranges (id : Nat) (log : List Packet) : List (BitVec 32 × Nat) :=
  log.filterMap (Packet.covers id)

/-- A session's packets cover what it has handed over, unless it is closed; one that is still
to be made has none. -/
structure Unbroken (log : List Packet) (id : Nat) (s : Downstream) : Prop where
  fresh : s.pc = .none → s.closed = false ∧ ranges id log = []
  covered : s.closed = false → Covers (s.isn + 1) (ranges id log) s.reached

def Whole (log : List Packet) (sessions : Nat → Downstream) : Prop :=
  ∀ id, Unbroken log id (sessions id)

section Log

variable {log log' : List Packet} {sessions : Nat → Downstream} {id : Nat} {s : Downstream}

theorem ranges_append_of_none {p : Packet} (h : p.covers id = none) :
    ranges id (log ++ [p]) = ranges id log := by
  unfold ranges
  rw [filterMap_append]
  simp [h]

theorem ranges_append_of_some {p : Packet} {range : BitVec 32 × Nat}
    (h : p.covers id = some range) : ranges id (log ++ [p]) = ranges id log ++ [range] := by
  unfold ranges
  rw [filterMap_append]
  simp [h]

/-- Only what a session has among the packets counts for it, and only while it is open. -/
theorem Unbroken.of_ranges_eq (h : Unbroken log id s)
    (hranges : s.closed = false → ranges id log' = ranges id log) : Unbroken log' id s := by
  refine ⟨?_, ?_⟩
  · intro hnone
    obtain ⟨hopen, hnil⟩ := h.fresh hnone
    exact ⟨hopen, (hranges hopen).trans hnil⟩
  · intro hopen
    rw [hranges hopen]
    exact h.covered hopen

theorem Whole.append_control (h : Whole log sessions) : Whole (log ++ [.control]) sessions :=
  fun id => (h id).of_ranges_eq fun _ => ranges_append_of_none rfl

/-- A session that moves on. -/
theorem Whole.update (h : Whole log sessions) (hs : Unbroken log id s) :
    Whole log (Function.update sessions id s) :=
  (Function.forall_update_iff sessions (Unbroken log)).mpr ⟨hs, fun other _ => h other⟩

/-- A session that moves on with a packet of its own. -/
theorem Whole.append {p : Packet} (h : Whole log sessions)
    (hp : ∀ other, other ≠ id → p.covers other = none) (hs : Unbroken (log ++ [p]) id s) :
    Whole (log ++ [p]) (Function.update sessions id s) :=
  (Function.forall_update_iff sessions (Unbroken (log ++ [p]))).mpr ⟨hs, fun other hother =>
    (h other).of_ranges_eq fun _ => ranges_append_of_none (hp other hother)⟩

end Log

/-! ### Operations on the queue -/

section Queue

variable {b : Downlink} {p : Packet} {queue queue' : List Packet} {next next' : Enqueue}

theorem Whole.evict (h : Whole (b.taken ++ b.queue) b.sessions) (hspare : b.Spare) :
    Whole (b.taken ++ b.queue.tail) b.sessions := by
  cases hqueue : b.queue with
  | nil =>
    rw [hqueue] at h
    exact h
  | cons p rest =>
    rw [hqueue] at h
    intro id
    refine (h id).of_ranges_eq fun hopen => ?_
    have hp : p.covers id = none := hspare p (by rw [hqueue]; rfl) id hopen
    unfold ranges
    rw [filterMap_append, filterMap_append, filterMap_cons_none hp]
    rfl

theorem Whole.offer_control (h : Whole (b.taken ++ b.queue) b.sessions) :
    Whole (b.taken ++ offer b.queue .control) b.sessions := by
  unfold offer
  split
  · rw [← append_assoc]
    exact h.append_control
  · exact h

/-- A critical packet that is still to be enqueued may have made room. -/
theorem Whole.requeue (h : Whole (b.taken ++ b.queue) b.sessions)
    (hspare : next = .evict → b.Spare)
    (heq : enqueueTun b.queue p next = (queue, some next')) :
    Whole (b.taken ++ queue) b.sessions := by
  revert heq
  fun_cases enqueueTun <;> intro heq <;> cases heq
  · exact h
  · exact h.evict (hspare rfl)

/-- One that is done with was offered last, and if that was the first time, there was room. -/
theorem offer_of_enqueueTun (heq : enqueueTun queue p next = (queue', none)) :
    queue' = offer queue p ∧ (next ≠ .reoffer → queue.length < tunCapacity) := by
  revert heq
  fun_cases enqueueTun <;> intro heq <;> cases heq
  next hroom => exact ⟨(if_pos hroom).symm, fun _ => hroom⟩
  · exact ⟨rfl, fun hne => absurd rfl hne⟩

/-- A critical packet without sequence numbers. -/
theorem Whole.enqueue_control (h : Whole (b.taken ++ b.queue) b.sessions)
    (hspare : next = .evict → b.Spare) {done : Option Enqueue}
    (heq : enqueueTun b.queue .control next = (queue, done)) :
    Whole (b.taken ++ queue) b.sessions := by
  cases done with
  | some next' => exact h.requeue hspare heq
  | none =>
    rw [(offer_of_enqueueTun heq).1]
    exact h.offer_control

end Queue

/-! ### One step -/

/-- What holds between two steps. -/
def Downlink.Whole (b : Downlink) : Prop := Tun.Whole (b.taken ++ b.queue) b.sessions

section Steps

variable {b b' : Downlink} {mtu : Nat} {log queue : List Packet} {id : Nat} {s s' : Downstream}

/-- A session that moves on and has handed over no more and no less. -/
theorem Unbroken.move (h : Unbroken log id s) (hisn : s'.isn = s.isn)
    (hreached : s'.reached = s.reached) (hclosed : s'.closed = s.closed) (hpc : s'.pc ≠ .none) :
    Unbroken log id s' := by
  refine ⟨fun hnone => absurd hnone hpc, ?_⟩
  rw [hisn, hreached, hclosed]
  exact h.covered

/-- Nothing is said of a closed session. -/
theorem Unbroken.of_closed (hclosed : s.closed ≠ false) (hpc : s.pc ≠ .none) : Unbroken log id s :=
  ⟨fun hnone => absurd hnone hpc, fun hopen => absurd hopen hclosed⟩

/-- A step in which `mySeq` moves to what was handed over, or nothing is handed over. -/
theorem Whole.move (h : Tun.Whole (b.taken ++ queue) b.sessions)
    (hisn : s.isn = (b.sessions id).isn)
    (hreached : s.reached = (b.sessions id).reached) (hclosed : s.closed = (b.sessions id).closed)
    (hpc : s.pc ≠ .none) :
    Downlink.Whole { b with queue, sessions := Function.update b.sessions id s } :=
  Tun.Whole.update h ((h id).move hisn hreached hclosed hpc)

/-- A session hands a packet of its own to the queue, where there is room while it is open. -/
theorem Downlink.Whole.hand {p : Packet} {len : Nat} {pc : Pc} (h : b.Whole)
    (hp : ∀ other, p.covers other =
      if id = other then some ((b.sessions id).mySeq, len) else none)
    (hdone : (b.sessions id).pc.pending = 0) (hlen : pc.pending = len) (hpc : pc ≠ .none)
    (hroom : (b.sessions id).closed = false → b.queue.length < tunCapacity) :
    Downlink.Whole { b with
      queue := offer b.queue p
      sessions := Function.update b.sessions id { b.sessions id with pc } } := by
  show Tun.Whole (b.taken ++ offer b.queue p) _
  unfold offer
  by_cases hlt : b.queue.length < tunCapacity
  · rw [if_pos hlt, ← append_assoc]
    refine h.append (fun other hother => (hp other).trans (if_neg (Ne.symm hother))) ?_
    refine ⟨fun hnone => absurd hnone hpc, fun hopen => ?_⟩
    rw [ranges_append_of_some ((hp id).trans (if_pos rfl))]
    have hcovered := (h id).covered hopen
    unfold Downstream.reached at hcovered ⊢
    rw [hdone, BitVec.add_zero] at hcovered
    rw [hlen]
    exact hcovered.snoc len
  · rw [if_neg hlt]
    exact Tun.Whole.update h (.of_closed (fun hopen => hlt (hroom hopen)) hpc)

theorem Downlink.Whole.advance (h : b.Whole) (hok : b.Roomy (.advance id))
    (hstep : b.advance mtu id = .ok b') : b'.Whole := by
  have hsame {s : Downstream} {pc : Pc} (hpc : (b.sessions id).pc = pc)
      (hs : s.reached = (b.sessions id).mySeq + BitVec.ofNat 32 pc.pending) :
      s.reached = (b.sessions id).reached := by
    rw [hs, ← hpc]
    rfl
  simp only [Downlink.Roomy] at hok
  revert hstep
  fun_cases Downlink.advance mtu b id <;> intro hstep <;> cases hstep
  next s set next hpc queue next' heq =>
    rw [hpc] at hok
    have hqueue := Tun.Whole.enqueue_control h (by rintro rfl; exact hok) heq
    exact hqueue.move rfl (hsame hpc rfl) rfl (by simp)
  next s set next hpc queue heq =>
    rw [hpc] at hok
    have hqueue := Tun.Whole.enqueue_control h (by rintro rfl; exact hok) heq
    exact hqueue.move rfl (hsame hpc rfl) rfl (by simp)
  next s set hpc =>
    exact Tun.Whole.move h rfl (hsame hpc (BitVec.add_zero _)) rfl (by simp)
  next s set hpc =>
    refine Tun.Whole.move h rfl (hsame hpc ?_) rfl ?_
    · unfold Downstream.reached
      cases s.closed <;> rfl
    · cases s.closed <;> simp
  next s set rest hpc chunk =>
    rw [hpc] at hok
    exact h.hand (fun _ => rfl) (by rw [hpc]; rfl) rfl (by simp) hok
  next s set len rest hpc =>
    refine Tun.Whole.move h rfl (hsame hpc ?_) rfl ?_
    · unfold Downstream.reached
      split <;> exact BitVec.add_zero _
    · split <;> simp
  next s set next hpc queue next' heq =>
    rw [hpc] at hok
    have hqueue := Tun.Whole.requeue h (by rintro rfl; exact hok) heq
    exact hqueue.move rfl (hsame hpc rfl) rfl (by simp)
  next s set next hpc queue heq =>
    rw [hpc] at hok
    obtain ⟨rfl, hroom⟩ := offer_of_enqueueTun heq
    refine h.hand (fun _ => rfl) (by rw [hpc]; rfl) rfl (by simp) fun hopen => ?_
    by_cases hnext : next = .reoffer
    · subst hnext
      exact hok hopen
    · exact hroom hnext
  next s set hpc =>
    exact Tun.Whole.move h rfl (hsame hpc (BitVec.add_zero _)) rfl (by simp)

theorem Downlink.Whole.step (h : b.Whole) {l : Downlink.Label} (hok : b.Roomy l)
    (hstep : b.step mtu l = .ok b') : b'.Whole := by
  revert hstep
  fun_cases Downlink.step mtu b l <;> intro hstep
  case case3 id => exact h.advance hok hstep
  all_goals cases hstep
  next id version isn hnone =>
    refine Tun.Whole.update h ⟨by simp, fun _ => ?_⟩
    have hnil : ranges id (b.taken ++ b.queue) = [] := ((h id).fresh hnone).2
    rw [hnil]
    rfl
  next id bytes s hpc =>
    refine Tun.Whole.move h rfl ?_ rfl ?_
    · unfold Downstream.reached
      rw [hpc]
      split <;> rfl
    · split <;> simp
  next id s hne =>
    exact Tun.Whole.update h (.of_closed (by simp) hne)
  next thread queue next heq =>
    show Tun.Whole (b.taken ++ queue) b.sessions
    refine Tun.Whole.enqueue_control h (fun hevict => hok ?_) heq
    cases hother : b.others thread with
    | none =>
      rw [hother] at hevict
      cases hevict
    | some next =>
      rw [hother] at hevict
      exact congrArg some hevict
  · -- `datagram`
    exact Tun.Whole.offer_control h
  next p rest hqueue =>
    show Tun.Whole (b.taken ++ [p] ++ rest) b.sessions
    rw [append_assoc, singleton_append, ← hqueue]
    exact h

end Steps

/-! ### Whole runs -/

theorem Downlink.Whole.initial : Downlink.initial.Whole :=
  fun _ => ⟨fun _ => ⟨rfl, rfl⟩, fun _ => rfl⟩

/-- **The downlink has no holes**, in every run in which no segment of an open session meets a
full queue or is evicted from it: for every session that is not closed, what it produced and the
writer took or will take covers the numbers from behind the SYN up to `mySeq` without gap or
overlap.  Between the hand-over of a packet and the step of `mySeq`, that is the value `mySeq`
is about to get. -/
theorem downlink_unbroken {mtu : Nat} {ls : List Downlink.Label} {b : Downlink}
    (hrun : Machine.Run (Downlink.step mtu) Downlink.Roomy .initial ls b) (id : Nat)
    (hopen : (b.sessions id).closed = false) :
    Covers ((b.sessions id).isn + 1) (b.produced id) (b.sessions id).reached := by
  have hwhole : b.Whole := hrun.invariant Downlink.Whole.initial
    fun _ _ _ h hok hstep => h.step hok hstep
  exact (hwhole id).covered hopen

/-- A session that reads 25 bytes and sends them in two segments. -/
theorem downlink_unbroken_two_segments :
    ∃ b, Machine.Run (Downlink.step 61) Downlink.Roomy .initial
        [.create 0 4 5, .advance 0, .advance 0, .advance 0, .read 0 (List.replicate 25 7),
          .advance 0, .take, .advance 0, .advance 0] b ∧
      b.produced 0 = [(6, 21), (27, 4)] ∧ Covers 6 (b.produced 0) (27 + 4) := by
  refine Machine.Run.exists_and
    (.snoc (.snoc (.snoc (.snoc (.snoc (.snoc (.snoc (.snoc (.snoc .nil (by trivial) rfl)
      (by trivial) rfl) (by trivial) rfl) (by trivial) rfl) (by trivial) rfl)
      (by intro _; decide) rfl) (by trivial) rfl) (by trivial) rfl) (by intro _; decide) rfl)
    fun hrun => ?_
  exact ⟨rfl, downlink_unbroken hrun 0 rfl⟩

/-- Datagrams fill the queue. -/
theorem run_datagrams {mtu : Nat} {b : Downlink}
    (hrun : Machine.Run (Downlink.step mtu) (fun _ _ => True) .initial ls b) (n : Nat)
    (hn : b.queue.length + n ≤ tunCapacity) :
    Machine.Run (Downlink.step mtu) (fun _ _ => True) .initial
      (ls ++ List.replicate n .datagram)
      { b with queue := b.queue ++ List.replicate n .control } := by
  induction n with
  | zero => simpa using hrun
  | succ n ih =>
    rw [replicate_succ', replicate_succ', ← append_assoc, ← append_assoc]
    have hrest := ih (by omega)
    refine .snoc hrest trivial ?_
    have hroom : (b.queue ++ List.replicate n Packet.control).length < tunCapacity := by
      rw [length_append, length_replicate]
      omega
    simp only [Downlink.step, offer]
    rw [if_pos hroom]

/-- A session's thread stands elsewhere. -/
def Downlink.setPc (b : Downlink) (id : Nat) (pc : Pc) : Downlink :=
  { b with sessions := Function.update b.sessions id { b.sessions id with pc } }

/-- A byte that is read while the queue is full moves `mySeq` and nothing else. -/
theorem run_refused {mtu : Nat} (id : Nat) {b : Downlink} (byte : UInt8)
    (hrun : Machine.Run (Downlink.step mtu) (fun _ _ => True) .initial ls b)
    (hpc : (b.sessions id).pc = .reading) (hfull : ¬ b.queue.length < tunCapacity) :
    Machine.Run (Downlink.step mtu) (fun _ _ => True) .initial
      (ls ++ [.read id [byte]] ++ [.advance id] ++ [.advance id])
      { b with
        sessions := Function.update b.sessions id
          { b.sessions id with mySeq := (b.sessions id).mySeq + 1, pc := .loop } } := by
  have hmax : [byte].length ≤ Downlink.maxPayload mtu (b.sessions id).version :=
    Nat.le_trans (by simp) (Nat.le_max_right _ 20)
  have hread : b.step mtu (.read id [byte]) = .ok (b.setPc id (.sending [byte])) := if_pos hpc
  have hsend : (b.setPc id (.sending [byte])).step mtu (.advance id)
      = .ok (b.setPc id (.sent 1 [])) := by
    simp only [Downlink.step, Downlink.advance, Downlink.setPc, Function.update_self,
      Function.update_idem, offer, if_neg hfull, take_of_length_le hmax,
      drop_of_length_le hmax, length_singleton]
  refine .snoc (.snoc (.snoc hrun trivial hread) trivial hsend) trivial ?_
  simp only [Downlink.step, Downlink.advance, Downlink.setPc, Function.update_self,
    Function.update_idem]
  rfl

/-- A session reads a byte while the queue is full: its segment is refused, `mySeq` moves, and
the number of the byte is never sent. -/
theorem downlink_hole :
    ∃ b, Machine.Run (Downlink.step 1280) (fun _ _ => True) .initial
        ([.create 0 4 100000, .advance 0, .advance 0, .advance 0] ++
          List.replicate 32767 .datagram ++ [.read 0 [7]] ++ [.advance 0] ++ [.advance 0]) b ∧
      (b.sessions 0).closed = false ∧ (b.sessions 0).mySeq = 100000 + 1 + 1 ∧
      b.produced 0 = [] ∧
      ¬ Covers ((b.sessions 0).isn + 1) (b.produced 0) (b.sessions 0).mySeq := by
  have hstart : Machine.Run (Downlink.step 1280) (fun _ _ => True) .initial
      [.create 0 4 100000, .advance 0, .advance 0, .advance 0] _ :=
    .of_perform .nil rfl
  have hfull := run_datagrams hstart 32767 (by decide)
  have hrefused := run_refused 0 7 hfull rfl (by
    rw [length_append, length_replicate]
    decide)
  have hnone : ranges 0 ([] ++ ([Packet.control] ++ List.replicate 32767 Packet.control)) = [] := by
    unfold ranges
    rw [filterMap_append, filterMap_append, filterMap_replicate_of_none rfl]
    rfl
  exact ⟨_, hrefused, rfl, rfl, hnone, not_covers_of_nil hnone (by decide)⟩

end Aether.Tun
