/-
The bookkeeping of the backlog.

`blocked` and `bytes` repeat what the queue says, and are kept up by hand: a push adds to them, a
purge and a pass compute them again.  The stack is a different one at every operation, so nothing
here depends on what it answered.  What has arrived for a flow since it was last purged is kept
for the statements: the queue holds the end of it, in order, and only the first message that is
left may have lost its front to the stack.
-/
import Aether.Netstack.Simple
import Aether.Proofs.Netstack.Cases
import Mathlib.Algebra.Order.BigOperators.Group.List
import Mathlib.Algebra.Order.Group.Nat

namespace Aether

open KeyedQueue

open List Function

variable {σ υ : Type}

/-! ### The operations -/

/-- An operation, with the stack it meets. -/
inductive BacklogOp (σ υ : Type)
  | push (d : DataIn)
  | purge (id : Nat)
  | ingest (s : NetStack σ υ) (d : DataIn)
  | drain (s : NetStack σ υ)

/-- The backlog, and what has arrived for each flow since it was last purged. -/
structure Book where
  backlog : Backlog
  arrived : Nat → List DataIn

namespace Book

def empty : Book := { backlog := .empty, arrived := fun _ => [] }

def arrive (b : Book) (d : DataIn) (backlog : Backlog) : Book :=
  { backlog, arrived := update b.arrived d.id (b.arrived d.id ++ [d]) }

def step (m : Smoltcp σ υ) (tun : Tuning) (b : Book) : BacklogOp σ υ → Except Panic Book
  | .push d => .ok (b.arrive d (b.backlog.push tun.target d))
  | .purge id => .ok { backlog := b.backlog.purge id, arrived := update b.arrived id [] }
  | .ingest s d => do
    let r ← Aether.ingest m tun s b.backlog d
    return b.arrive d r.2
  | .drain s => do
    let r ← drainBacklog m tun s b.backlog
    return { b with backlog := r.2 }

end Book

/-- The payload sizes of a list of messages. -/
def totalBytes (q : List DataIn) : Nat := (q.map DataIn.bytes).sum

/-- There is room to count what comes. -/
def BacklogOp.Fits (tun : Tuning) (b : Book) : BacklogOp σ υ → Prop
  | .push d | .ingest _ d => totalBytes b.backlog.queue + d.bytes < tun.target.usizeMax
  | _ => True

instance (tun : Tuning) (b : Book) : (l : BacklogOp σ υ) → Decidable (l.Fits tun b)
  | .push d | .ingest _ d =>
    inferInstanceAs (Decidable (totalBytes b.backlog.queue + d.bytes < tun.target.usizeMax))
  | .purge _ | .drain _ => inferInstanceAs (Decidable True)

/-! ### What is left of a flow's messages -/

/-- The message, or what a stack left of it. -/
def DataIn.IsRestOf (b d : DataIn) : Prop :=
  b = d ∨ ∃ id data n, d = .tcp id data ∧ b = .tcp id (data.drop n)

/-- The queued messages are the last ones that arrived, in order. -/
inductive LeftOf (arrived : List DataIn) : List DataIn → Prop
  | none : LeftOf arrived []
  | some {gone : List DataIn} {d b : DataIn} {rest : List DataIn}
      (harrived : arrived = gone ++ d :: rest) (hb : b.IsRestOf d) : LeftOf arrived (b :: rest)

variable {m : Smoltcp σ υ} {tun : Tuning} {s s' : NetStack σ υ} {d b : DataIn}
  {arrived q kept : List DataIn} {blocked blocked' : Finset Nat} {id : Nat}

theorem Handled.isRestOf (h : Handled m tun s d s' (some b)) : b.IsRestOf d := by
  cases h with
  | full _ _ => exact .inl rfl
  | split _ _ _ => exact .inr ⟨_, _, _, rfl, rfl⟩

theorem DataIn.IsRestOf.id_eq (h : b.IsRestOf d) : b.id = d.id := by
  obtain rfl | ⟨id, data, n, rfl, rfl⟩ := h <;> rfl

theorem DataIn.IsRestOf.trans {c : DataIn} (h : c.IsRestOf b) (h' : b.IsRestOf d) :
    c.IsRestOf d := by
  obtain rfl | ⟨id, data, n, rfl, rfl⟩ := h
  · exact h'
  · obtain rfl | ⟨id', data', n', rfl, hb⟩ := h'
    · exact .inr ⟨id, data, n, rfl, rfl⟩
    · cases hb
      exact .inr ⟨id, data', n' + n, rfl, by rw [drop_drop]⟩

theorem DataIn.IsRestOf.bytes_le (h : b.IsRestOf d) : b.bytes ≤ d.bytes := by
  obtain rfl | ⟨id, data, n, rfl, rfl⟩ := h
  · exact le_rfl
  · simp [DataIn.bytes]

theorem LeftOf.push (h : LeftOf arrived q) (d : DataIn) : LeftOf (arrived ++ [d]) (q ++ [d]) := by
  cases h with
  | none => exact .some rfl (.inl rfl)
  | some harrived hb => exact .some (by rw [harrived, append_assoc]; rfl) hb

/-- The front message was taken, or cut. -/
theorem LeftOf.tail (h : LeftOf arrived (d :: q)) : LeftOf arrived q := by
  cases h with
  | @some gone d' _ _ harrived hb =>
    cases q with
    | nil => exact .none
    | cons e q =>
      exact .some (show arrived = (gone ++ [d']) ++ e :: q by simp [harrived]) (.inl rfl)

theorem LeftOf.cut (h : LeftOf arrived (d :: q)) (hb : b.IsRestOf d) : LeftOf arrived (b :: q) := by
  cases h with
  | some harrived hd => exact .some harrived (hb.trans hd)

theorem leftOf_tracks (m : Smoltcp σ υ) (tun : Tuning) (id : Nat) (arrived : List DataIn) :
    Tracks DataIn.id (tryHandleData m tun) id fun _ q => LeftOf arrived q where
  other _ _ h := h
  taken _ _ h := h.tail
  deferred _ hhandle h := h.cut (handled_of_ok hhandle).isRestOf

/-! ### Sizes -/

theorem totalBytes_cons (d : DataIn) (q : List DataIn) :
    totalBytes (d :: q) = d.bytes + totalBytes q := by
  rw [totalBytes, totalBytes, map_cons, sum_cons]

theorem totalBytes_concat (q : List DataIn) (d : DataIn) :
    totalBytes (q ++ [d]) = totalBytes q + d.bytes := by
  rw [totalBytes, totalBytes, map_append, sum_append, map_singleton, sum_singleton]

theorem foldl_saturatingAdd {n : Nat} (h : n + totalBytes q ≤ tun.target.usizeMax) :
    q.foldl (fun n d => tun.target.saturatingAdd n d.bytes) n = n + totalBytes q := by
  induction q generalizing n with
  | nil => rfl
  | cons d q ih =>
    rw [totalBytes_cons] at h
    have hadd : tun.target.saturatingAdd n d.bytes = n + d.bytes := by
      unfold Target.saturatingAdd
      omega
    rw [foldl_cons, hadd, ih (by omega), totalBytes_cons]
    omega

theorem totalBytes_kept
    (h : Passed DataIn.id (tryHandleData m tun) s blocked q s' blocked' kept) :
    totalBytes kept ≤ totalBytes q := by
  induction h with
  | nil => exact le_rfl
  | blocked _ _ ih =>
    rw [totalBytes_cons, totalBytes_cons]
    omega
  | taken _ _ _ ih =>
    rw [totalBytes_cons]
    omega
  | deferred _ hhandle _ ih =>
    have hless := (handled_of_ok hhandle).isRestOf.bytes_le
    rw [totalBytes_cons, totalBytes_cons]
    omega

/-! ### The bookkeeping -/

/-- What is kept up by hand is what the queue says. -/
structure Book.Exact (tun : Tuning) (b : Book) : Prop where
  blocked : ∀ id, id ∈ b.backlog.blocked ↔ ∃ d ∈ b.backlog.queue, d.id = id
  bytes : b.backlog.bytes = totalBytes b.backlog.queue
  ordered : ∀ id, LeftOf (b.arrived id) (ofKey DataIn.id id b.backlog.queue)
  fits : totalBytes b.backlog.queue ≤ tun.target.usizeMax

namespace Book.Exact

variable {b b' : Book}

theorem push (h : b.Exact tun) {c : DataIn} (hc : c.IsRestOf d)
    (hplace : c = d ∨ ofKey DataIn.id d.id b.backlog.queue = [])
    (hfits : totalBytes b.backlog.queue + d.bytes < tun.target.usizeMax) :
    (b.arrive d (b.backlog.push tun.target c)).Exact tun where
  blocked id := by
    simp only [Book.arrive, Backlog.push, Finset.mem_insert, h.blocked, mem_append, mem_singleton,
      or_and_right, exists_or, exists_eq_left]
    rw [or_comm, eq_comm]
  bytes := by
    have hless := hc.bytes_le
    simp only [Book.arrive, Backlog.push, h.bytes, Target.saturatingAdd, totalBytes_concat]
    omega
  ordered id := by
    by_cases hd : d.id = id
    · subst hd
      simp only [Book.arrive, Backlog.push, update_self, ofKey_append, ofKey_cons_self hc.id_eq,
        ofKey_nil]
      obtain rfl | hnil := hplace
      · exact (h.ordered _).push _
      · rw [hnil]
        exact .some rfl hc
    · simp only [Book.arrive, Backlog.push, update_of_ne (Ne.symm hd), ofKey_append,
        ofKey_cons_other (hc.id_eq ▸ hd), ofKey_nil, append_nil]
      exact h.ordered id
  fits := by
    have hless := hc.bytes_le
    simp only [Book.arrive, Backlog.push, totalBytes_concat]
    omega

theorem purge (h : b.Exact tun) (i : Nat) :
    Book.Exact tun { backlog := b.backlog.purge i, arrived := update b.arrived i [] } where
  blocked id := by
    simp only [Backlog.purge, Finset.mem_erase, h.blocked, mem_filter, decide_eq_true_eq]
    constructor
    · rintro ⟨hne, d, hd, rfl⟩
      exact ⟨d, ⟨hd, hne⟩, rfl⟩
    · rintro ⟨d, ⟨hd, hne⟩, rfl⟩
      exact ⟨hne, d, hd, rfl⟩
  bytes := rfl
  ordered id := by
    by_cases hid : id = i
    · subst hid
      have hnone : ofKey DataIn.id id (b.backlog.purge id).queue = [] :=
        ofKey_eq_nil.mpr fun d hd => of_decide_eq_true (mem_filter.mp hd).2
      rw [hnone]
      exact .none
    · have hsame : ofKey DataIn.id id (b.backlog.purge i).queue =
          ofKey DataIn.id id b.backlog.queue := by
        unfold ofKey Backlog.purge
        rw [filter_filter]
        refine filter_congr fun d _ => ?_
        by_cases hd : d.id = id <;> simp [hd, hid]
      show LeftOf (update b.arrived i [] id) _
      rw [hsame, update_of_ne hid]
      exact h.ordered id
  fits := by
    refine le_trans ?_ h.fits
    exact (filter_sublist.map DataIn.bytes).sum_le_sum fun _ _ => Nat.zero_le _

theorem ingest {backlog : Backlog} (h : b.Exact tun)
    (hfits : totalBytes b.backlog.queue + d.bytes < tun.target.usizeMax)
    (hr : Aether.ingest m tun s b.backlog d = .ok (s', backlog)) :
    (b.arrive d backlog).Exact tun := by
  obtain ⟨-, heq⟩ | ⟨hfree, o, hd, hback⟩ := ingest_cases hr
  · cases heq
    exact h.push (.inl rfl) (.inl rfl) hfits
  · have hnil : ofKey DataIn.id d.id b.backlog.queue = [] :=
      ofKey_eq_nil.mpr fun e he heq => hfree ((h.blocked _).mpr ⟨e, he, heq⟩)
    cases o with
    | some back =>
      rw [show backlog = b.backlog.push tun.target back from hback]
      exact h.push hd.isRestOf (.inr hnil) hfits
    | none =>
      obtain rfl : backlog = b.backlog := hback
      refine ⟨h.blocked, h.bytes, fun id => ?_, h.fits⟩
      show LeftOf (update b.arrived d.id (b.arrived d.id ++ [d]) id)
        (ofKey DataIn.id id b.backlog.queue)
      by_cases hid : id = d.id
      · rw [hid, hnil]
        exact .none
      · rw [update_of_ne hid]
        exact h.ordered id

theorem drain {r : NetStack σ υ × Backlog} (h : b.Exact tun)
    (hr : drainBacklog m tun s b.backlog = .ok r) : Book.Exact tun { b with backlog := r.2 } := by
  obtain ⟨-, rfl⟩ | ⟨hpass, hbytes⟩ := drainBacklog_cases hr
  · exact h
  · have hkey := tryHandleData_keepsKey m tun
    have hfits := (totalBytes_kept hpass).trans h.fits
    refine ⟨fun id => ?_, ?_, fun id => ?_, hfits⟩
    · rw [mem_blocked_iff hkey hpass]
      simp
    · rw [hbytes, foldl_saturatingAdd (by omega), Nat.zero_add]
    · exact pass_tracks (R := fun _ q => LeftOf (b.arrived id) q) hkey (leftOf_tracks m tun id _)
        (Finset.notMem_empty id) hpass (h.ordered id)

theorem step {l : BacklogOp σ υ} (h : b.Exact tun) (hfits : l.Fits tun b)
    (hstep : b.step m tun l = .ok b') : b'.Exact tun := by
  cases l with
  | push d =>
    cases hstep
    exact h.push (.inl rfl) (.inl rfl) hfits
  | purge id =>
    cases hstep
    exact h.purge id
  | ingest s d =>
    obtain ⟨r, hr, heq⟩ := Machine.bind_eq_ok.mp hstep
    cases heq
    exact h.ingest hfits hr
  | drain s =>
    obtain ⟨r, hr, heq⟩ := Machine.bind_eq_ok.mp hstep
    cases heq
    exact h.drain hr

theorem empty : Book.empty.Exact tun where
  blocked _ := by simp [Book.empty, Backlog.empty]
  bytes := rfl
  ordered _ := .none
  fits := Nat.zero_le _

end Book.Exact

/-- In a pass, a message of the flow was offered to the stack and came back. -/
def Refused (m : Smoltcp σ υ) (tun : Tuning) (s : NetStack σ υ) (q : List DataIn) (id : Nat) :
    Prop :=
  ∃ before d after t blocked done t' back, q = before ++ d :: after ∧
    Passed DataIn.id (tryHandleData m tun) s ∅ before t blocked done ∧ d.id = id ∧
    tryHandleData m tun t d = .ok (t', some back)

/-- **The bookkeeping is exact**, whatever stacks the operations meet: the blocked flows are those
with a message in the queue, the bytes are those of its messages, every flow's messages stand in
the order in which they arrived, and a pass keeps messages only of flows that refused one. -/
theorem backlog_exact (m : Smoltcp σ υ) (tun : Tuning) {ls : List (BacklogOp σ υ)} {b : Book}
    (hrun : Machine.Run (Book.step m tun) (fun b l => l.Fits tun b) Book.empty ls b) :
    (∀ id, id ∈ b.backlog.blocked ↔ ∃ d ∈ b.backlog.queue, d.id = id) ∧
    b.backlog.bytes = totalBytes b.backlog.queue ∧
    (∀ id, LeftOf (b.arrived id) (ofKey DataIn.id id b.backlog.queue)) ∧
    ∀ s r, drainBacklog m tun s b.backlog = .ok r →
      ∀ id, (∃ d ∈ r.2.queue, d.id = id) → Refused m tun s b.backlog.queue id := by
  have h : b.Exact tun := hrun.invariant .empty fun _ _ _ h hfits hstep => h.step hfits hstep
  refine ⟨h.blocked, h.bytes, h.ordered, fun s r hr id hkept => ?_⟩
  obtain ⟨hnil, rfl⟩ | ⟨hpass, -⟩ := drainBacklog_cases hr
  · obtain ⟨d, hd, -⟩ := hkept
    rw [hnil] at hd
    exact absurd hd not_mem_nil
  · exact hpass.refused (tryHandleData_keepsKey m tun) (by simp) hkept

/-- Two flows have messages waiting, the second one is purged, and the first one gets another
message, which has to wait behind its own. -/
theorem backlog_exact_purged :
    ∃ b, Machine.Run (Book.step Simple.tcp Simple.tuning) (fun b l => l.Fits Simple.tuning b)
        Book.empty
        [.push (.tcp 1 [7]), .push (.tcp 2 [5]), .push (.tcp 1 [8, 9]), .purge 2,
          .ingest (Solo.opened Simple.tuning).world.stack (.tcp 1 [4])] b ∧
      (∀ id, id ∈ b.backlog.blocked ↔ ∃ d ∈ b.backlog.queue, d.id = id) ∧ b.backlog.bytes = 4 ∧
      LeftOf [.tcp 1 [7], .tcp 1 [8, 9], .tcp 1 [4]] (ofKey DataIn.id 1 b.backlog.queue) ∧
      LeftOf [] (ofKey DataIn.id 2 b.backlog.queue) := by
  refine Machine.Run.exists_and (.performed rfl) fun hrun => ?_
  obtain ⟨hblocked, hbytes, hordered, -⟩ := backlog_exact Simple.tcp Simple.tuning hrun
  exact ⟨hblocked, hbytes, hordered 1, hordered 2⟩

end Aether
