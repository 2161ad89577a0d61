/-
Which flow a reply reaches.

An id belongs to the key it was last allocated for, and whoever knows the id, be it a map, a
thread that is about to send or the reader, has to know it as that key's.  Only an
allocation can break this, by giving out an id that somebody still knows.  `allocateConid`
looks for one that `flows` does not hold, and finds it within `flows.length + 2` turns; but
`conids`, the threads and the reader know ids as well, and `flows` may have lost them.
-/
import Aether.Psiphon.Udpgw
import Mathlib.Data.Finset.Card

namespace Aether.Udpgw

open Machine

open List Function

open LinkedMap

/-! ### Allocation -/

theorem candidate_of_ne {n : Nat} (h : n % 65536 ≠ 0) : candidate n = n % 65536 := if_neg h

variable {flows : List (Nat × Flow)} {log : List Event}

/-- Of so many ids in a row, all but one of them different, one is free. -/
theorem exists_free (h : flows.length ≤ maxUdpgwFlows) (n : Nat) :
    ∃ j < 2050, containsKey flows (candidate (n + j)) = false := by
  by_contra hnone
  have hall : ∀ j < 2050, ∃ f, (candidate (n + j), f) ∈ flows := by
    intro j hj
    by_contra hfree
    refine hnone ⟨j, hj, Bool.eq_false_iff.mpr fun hcontains => hfree ?_⟩
    exact containsKey_iff.mp hcontains
  -- the turns at which the counter is not a multiple of 65536
  have hmany : 2049 ≤ ((Finset.range 2050).filter fun j => (n + j) % 65536 ≠ 0).card := by
    have hone : ((Finset.range 2050).filter fun j => ¬ (n + j) % 65536 ≠ 0).card ≤ 1 := by
      refine Finset.card_le_one.mpr fun i hi j hj => ?_
      simp only [Finset.mem_filter, Finset.mem_range] at hi hj
      omega
    have hsplit := Finset.card_filter_add_card_filter_not (s := Finset.range 2050)
      (fun j => (n + j) % 65536 ≠ 0)
    rw [Finset.card_range] at hsplit
    omega
  have hle : ((Finset.range 2050).filter fun j => (n + j) % 65536 ≠ 0).card
      ≤ (flows.map Prod.fst).toFinset.card := by
    refine Finset.card_le_card_of_injOn (fun j => candidate (n + j)) (fun j hj => ?_) ?_
    · simp only [Finset.coe_filter, Finset.mem_range, Set.mem_ofPred_eq] at hj
      obtain ⟨f, hf⟩ := hall j hj.1
      simp only [Finset.mem_coe, mem_toFinset]
      exact mem_map.mpr ⟨_, hf, rfl⟩
    · intro i hi j hj heq
      simp only [Finset.coe_filter, Finset.mem_range, Set.mem_ofPred_eq] at hi hj
      dsimp only at heq
      rw [candidate_of_ne hi.2, candidate_of_ne hj.2] at heq
      omega
  have hlen : (flows.map Prod.fst).toFinset.card ≤ flows.length := by
    have := toFinset_card_le (flows.map Prod.fst)
    rwa [length_map] at this
  unfold maxUdpgwFlows at h
  omega

/-- The loop stops at the first free id. -/
theorem allocateFrom_first (flows : List (Nat × Flow)) :
    ∀ {turns n i : Nat}, i < turns → containsKey flows (candidate (n + i)) = false →
      ∃ j ≤ i, allocateFrom flows turns n = (candidate (n + j), n + j + 1) ∧
        containsKey flows (candidate (n + j)) = false := by
  intro turns
  induction turns with
  | zero =>
    intro n i hi
    exact absurd hi (Nat.not_lt_zero i)
  | succ turns ih =>
    intro n i hi hfree
    by_cases hhere : containsKey flows (candidate n) = true
    · have hpos : i ≠ 0 := by
        rintro rfl
        rw [Nat.add_zero, hhere] at hfree
        cases hfree
      obtain ⟨i, rfl⟩ := Nat.exists_eq_succ_of_ne_zero hpos
      rw [Nat.succ_eq_add_one, show n + (i + 1) = n + 1 + i by omega] at hfree
      obtain ⟨j, hj, halloc, hfree'⟩ := ih (n := n + 1) (Nat.lt_of_succ_lt_succ hi) hfree
      refine ⟨j + 1, Nat.succ_le_succ hj, ?_, ?_⟩
      · rw [allocateFrom, if_pos hhere, halloc]
        simp only [Nat.add_assoc, Nat.add_comm 1 j]
      · rwa [show n + (j + 1) = n + 1 + j by omega]
    · refine ⟨0, Nat.zero_le i, ?_, Bool.eq_false_iff.mpr hhere⟩
      rw [allocateFrom, if_neg hhere]
      rfl

/-- **`allocateConid` gives out an id that `flows` does not hold**, one of the next 2050 of its
counter. -/
theorem allocateConid_free (h : flows.length ≤ maxUdpgwFlows) (n : Nat) :
    ∃ j < 2050, (allocateConid flows n).1 = candidate (n + j) ∧
      containsKey flows (candidate (n + j)) = false := by
  obtain ⟨i, hi, hfree⟩ := exists_free h n
  obtain ⟨j, hj, halloc, hfree'⟩ :=
    allocateFrom_first flows (Nat.lt_trans hi (by decide : 2050 < 65536)) hfree
  exact ⟨j, Nat.lt_of_le_of_lt hj hi, by rw [allocateConid, halloc], hfree'⟩

/-! ### The log -/

/-- Since the id was last allocated for the key, every frame sent with it was the key's. -/
def Since (log : List Event) (c : Nat) (k : Key) : Prop :=
  ∃ front rest, log = front ++ .allocated c k :: rest ∧ .allocated c k ∉ rest ∧
    ∀ k', .sent c k' ∈ rest → k' = k

/-- Every reply went to the flow whose frames had been sent with its id. -/
def Answered (log : List Event) : Prop :=
  ∀ before after c k, log = before ++ .delivered c k :: after → Since before c k

theorem Answered.concat {e : Event} (h : Answered log)
    (he : ∀ c k, e = .delivered c k → Since log c k) : Answered (log ++ [e]) := by
  intro before after c k heq
  obtain ⟨rfl, hlast⟩ | ⟨after, hlog⟩ := append_singleton_eq heq
  · exact he c k hlast
  · exact h before after c k hlog

/-- The id was last allocated for the key, and what was sent with it since is the key's. -/
structure Owned (log : List Event) (c : Nat) (k : Key) : Prop where
  last : ∃ front rest, log = front ++ .allocated c k :: rest ∧ (∀ k', .allocated c k' ∉ rest) ∧
    ∀ k', .sent c k' ∈ rest → k' = k

namespace Owned

variable {log : List Event} {c : Nat} {k k' : Key}

theorem since (h : Owned log c k) : Since log c k := by
  obtain ⟨front, rest, hlog, halloc, hsent⟩ := h.last
  exact ⟨front, rest, hlog, halloc k, hsent⟩

theorem fresh (log : List Event) (c : Nat) (k : Key) : Owned (log ++ [.allocated c k]) c k :=
  ⟨log, [], rfl, fun _ => not_mem_nil, fun _ h => absurd h not_mem_nil⟩

/-- What is not about the id changes nothing, and neither do its own frames. -/
theorem concat (h : Owned log c k) {e : Event} (halloc : ∀ k', e ≠ .allocated c k')
    (hsent : ∀ k', e = .sent c k' → k' = k) : Owned (log ++ [e]) c k := by
  obtain ⟨front, rest, rfl, hrest, hframes⟩ := h.last
  refine ⟨front, rest ++ [e], by simp, fun k' hmem => ?_, fun k' hmem => ?_⟩
  · obtain hmem | hmem := mem_append.mp hmem
    · exact hrest k' hmem
    · exact halloc k' (mem_singleton.mp hmem).symm
  · obtain hmem | hmem := mem_append.mp hmem
    · exact hframes k' hmem
    · exact hsent k' (mem_singleton.mp hmem).symm

/-- Behind the last allocation there is no other. -/
theorem key_eq {rest rest' between : List Event} (halloc : ∀ k', .allocated c k' ∉ rest)
    (h : .allocated c k :: rest = between ++ .allocated c k' :: rest') : k = k' := by
  cases between with
  | nil =>
    obtain ⟨heq, -⟩ := List.cons.inj h
    cases heq
    rfl
  | cons e between =>
    obtain ⟨-, rfl⟩ := List.cons.inj h
    exact absurd (by simp) (halloc k')

/-- An id has one owner. -/
theorem unique (h : Owned log c k) (h' : Owned log c k') : k = k' := by
  obtain ⟨front, rest, hlog, halloc, -⟩ := h.last
  obtain ⟨front', rest', hlog', halloc', -⟩ := h'.last
  rw [hlog] at hlog'
  -- of two last allocations neither comes before the other
  obtain ⟨between, -, hrest⟩ | ⟨between, -, hrest⟩ := append_eq_append_iff.mp hlog'
  · exact key_eq halloc hrest
  · exact (key_eq halloc' hrest).symm

end Owned

/-! ### Who knows an id -/

/-- The id and the flow of a send in progress. -/
def Thread.sends : Thread → Option (Nat × Flow)
  | .storing conid flow => some (conid, flow)
  | .enqueueing conid flow => some (conid, flow)
  | _ => none

/-- The id is known as the key's: to a map, to a send in progress, or to the reader. -/
inductive Known (s : State) (c : Nat) : Key → Prop
  | conid {k : Key} (h : (k, c) ∈ s.conids) : Known s c k
  | flow {f : Flow} (h : (c, f) ∈ s.flows) : Known s c f.key
  | thread {t : Nat} {f : Flow} (h : (s.threads t).sends = some (c, f)) : Known s c f.key
  | reader {f : Flow} (h : s.reader = .holding c f) : Known s c f.key

/-- Wherever an id is known, it is known as its owner's. -/
structure Consistent (s : State) : Prop where
  size : s.flows.length ≤ maxUdpgwFlows
  conids : ∀ k c, (k, c) ∈ s.conids → Owned s.log c k
  flows : ∀ c f, (c, f) ∈ s.flows → Owned s.log c f.key
  threads : ∀ t c f, (s.threads t).sends = some (c, f) → Owned s.log c f.key
  reader : ∀ c f, s.reader = .holding c f → Owned s.log c f.key
  answered : Answered s.log

/-- When an id is allocated, every id that is known is in `flows` or far from the counter. -/
def Spaced (s : State) : Label → Prop
  | .assign _ flow => get s.conids flow.key = none → ∀ c k, Known s c k →
      containsKey s.flows c = true ∨ ∀ j < 2050, candidate (s.nextConid + j) ≠ c
  | _ => True

namespace Consistent

variable {s s' : State} {t : Nat} {flow : Flow}

theorem start : Consistent {} where
  size := Nat.zero_le _
  conids k c h := by cases h
  flows c f h := by cases h
  threads t c f h := by cases h
  reader c f h := by cases h
  answered before after c k h := by simp at h

theorem owned (h : Consistent s) {c : Nat} {k : Key} (hk : Known s c k) : Owned s.log c k := by
  cases hk with
  | conid hmem => exact h.conids _ _ hmem
  | flow hmem => exact h.flows _ _ hmem
  | thread hsends => exact h.threads _ _ _ hsends
  | reader hreader => exact h.reader _ _ hreader

/-- A step that logs something and takes no id from its owner. -/
theorem log_concat (h : Consistent s) {e : Event}
    (howned : ∀ c k, Known s c k → Owned (s.log ++ [e]) c k)
    (he : ∀ c k, e = .delivered c k → Since s.log c k) :
    Consistent { s with log := s.log ++ [e] } where
  size := h.size
  conids k c hmem := howned c k (.conid hmem)
  flows c _ hmem := howned c _ (.flow hmem)
  threads _ c _ hsends := howned c _ (.thread hsends)
  reader c _ hreader := howned c _ (.reader hreader)
  answered := h.answered.concat he

/-- A step that logs something about an id whose owner it knows. -/
theorem logged (h : Consistent s) {e : Event} {c₀ : Nat} {k₀ : Key}
    (he : e = .sent c₀ k₀ ∨ e = .delivered c₀ k₀) (hk₀ : Known s c₀ k₀) :
    Consistent { s with log := s.log ++ [e] } := by
  refine h.log_concat (fun c k hk => ?_) fun c k heq => ?_
  · refine (h.owned hk).concat (fun k' heq => ?_) fun k' heq => ?_
    · obtain rfl | rfl := he
      · cases heq
      · cases heq
    · obtain rfl | rfl := he
      · cases heq
        exact (h.owned hk₀).unique (h.owned hk)
      · cases heq
  · obtain rfl | rfl := he
    · cases heq
    · cases heq
      exact (h.owned hk₀).since

/-- An allocation under the condition gives out an id that nobody knows. -/
theorem unknown (h : Consistent s) (hspaced : Spaced s (.assign t flow))
    (hget : get s.conids flow.key = none) (k : Key) : ¬ Known s (s.allocate flow.key).1 k := by
  intro hk
  obtain ⟨j, hj, hconid, hfree⟩ := allocateConid_free h.size s.nextConid
  have hsame : (s.allocate flow.key).1 = candidate (s.nextConid + j) := hconid
  rw [hsame] at hk
  obtain hcontains | hfar := hspaced hget _ k hk
  · rw [hfree] at hcontains
    cases hcontains
  · exact hfar j hj rfl

/-- The maps after an allocation: the new key, and no flow that was not there. -/
theorem allocate_maps (s : State) (key : Key) :
    (∀ e ∈ (s.allocate key).2.conids, e = (key, (s.allocate key).1) ∨ e ∈ s.conids) ∧
    (∀ e ∈ (s.allocate key).2.flows, e ∈ s.flows) ∧
    (s.allocate key).2.flows.length ≤ s.flows.length := by
  refine ⟨fun e he => mem_of_mem_put he, ?_⟩
  cases hput : (put maxUdpgwFlows s.conids key (allocateConid s.flows s.nextConid).1).1 with
  | none =>
    have hflows : (s.allocate key).2.flows = s.flows := by
      simp only [State.allocate, hput]
    rw [hflows]
    exact ⟨fun _ he => he, Nat.le_refl _⟩
  | some e =>
    have hflows : (s.allocate key).2.flows = remove s.flows e.2 := by
      simp only [State.allocate, hput]
    rw [hflows]
    exact ⟨fun _ he => mem_of_mem_remove he, length_remove_le _ _⟩

theorem allocate (h : Consistent s) (hspaced : Spaced s (.assign t flow))
    (hget : get s.conids flow.key = none) : Consistent (s.allocate flow.key).2 := by
  obtain ⟨hconids, hflows, hlen⟩ := allocate_maps s flow.key
  have hlogged : Consistent
      { s with log := s.log ++ [.allocated (s.allocate flow.key).1 flow.key] } := by
    refine h.log_concat (fun c k hk => ?_) fun c k heq => by cases heq
    refine (h.owned hk).concat (fun k' heq => ?_) fun k' heq => by cases heq
    cases heq
    exact h.unknown hspaced hget k hk
  refine { hlogged with
    size := Nat.le_trans hlen h.size
    conids := fun k c hmem => ?_
    flows := fun c f hmem => hlogged.flows c f (hflows _ hmem) }
  obtain heq | hold := hconids _ hmem
  · cases heq
    exact .fresh _ _ _
  · exact hlogged.conids k c hold

/-- The id that `send` gets is known as the flow's. -/
theorem conidOf (h : Consistent s) (hspaced : Spaced s (.assign t flow)) :
    Consistent (s.conidOf flow.key).2 ∧
      Owned (s.conidOf flow.key).2.log (s.conidOf flow.key).1 flow.key := by
  unfold State.conidOf
  split
  · next conid hget =>
      have htouched : Consistent { s with conids := touch s.conids flow.key } :=
        { h with conids := fun k c hmem => h.conids k c (mem_of_mem_touch hmem) }
      exact ⟨htouched, h.conids _ _ (mem_of_get hget)⟩
  · next hget => exact ⟨h.allocate hspaced hget, .fresh _ _ _⟩

/-- A thread moves on, with an id that is its flow's if it has one. -/
theorem setThread (h : Consistent s) {thread : Thread}
    (hsends : ∀ c f, thread.sends = some (c, f) → Owned s.log c f.key) :
    Consistent (s.setThread t thread) := by
  refine { h with threads := fun t' c f hf => ?_ }
  have hf : ((update s.threads t thread) t').sends = some (c, f) := hf
  by_cases hsame : t' = t
  · rw [hsame, update_self] at hf
    exact hsends c f hf
  · rw [update_of_ne hsame] at hf
    exact h.threads t' c f hf

theorem store (h : Consistent s) {conid : Nat} (hown : Owned s.log conid flow.key) :
    Consistent { s with flows := (put maxUdpgwFlows s.flows conid flow).2 } := by
  refine { h with size := length_put_le h.size, flows := fun c f hmem => ?_ }
  obtain heq | hold := mem_of_mem_put hmem
  · cases heq
    exact hown
  · exact h.flows c f hold

/-- **A step keeps the ids with their owners**, if ids that are known are out of the counter's
way whenever one is allocated. -/
theorem step (h : Consistent s) {l : Label} (hok : Spaced s l) (hstep : step s l = .ok s') :
    Consistent s' := by
  revert hstep
  fun_cases Udpgw.step s l <;> intro hstep <;> cases hstep
  next t flow _ conid s₁ hconid =>
    obtain ⟨hconsistent, howned⟩ := h.conidOf hok
    rw [hconid] at hconsistent howned
    refine hconsistent.setThread fun c f hsends => ?_
    cases hsends
    exact howned
  next t conid flow hthread s₁ =>
    have howned : Owned s.log conid flow.key := h.threads t _ _ (by rw [hthread]; rfl)
    refine (h.store howned).setThread fun c f hsends => ?_
    cases hsends
    exact howned
  next t accepted conid flow hthread s₁ =>
    have hknown : Known s conid flow.key := .thread (t := t) (by rw [hthread]; rfl)
    refine Consistent.setThread ?_ fun c f hsends => by cases hsends
    unfold s₁
    split
    · exact h.logged (.inl rfl) hknown
    · exact h
  next t relay _ =>
    refine Consistent.setThread ?_ fun c f hsends => by cases hsends
    exact { h with
      size := Nat.le_trans (length_filter_le _ _) h.size
      flows := fun c f hmem => h.flows c f (mem_of_mem_filter hmem) }
  next t _ =>
    refine Consistent.setThread ?_ fun c f hsends => by cases hsends
    exact { h with conids := fun k c hmem => h.conids k c (mem_of_mem_filter hmem) }
  next conid _ flow hget =>
    refine { h with reader := fun c f hholds => ?_ }
    cases hholds
    exact h.flows _ _ (mem_of_get hget)
  · exact h
  · exact { h with reader := fun c f hholds => by cases hholds }
  next conid flow hreader _ =>
    have hlogged := h.logged (.inr rfl) (.reader hreader)
    exact { hlogged with reader := fun c f hholds => by cases hholds }
  next conid hreader =>
    exact { h with
      size := Nat.le_trans (length_remove_le _ _) h.size
      flows := fun c f hmem => h.flows c f (mem_of_mem_remove hmem)
      reader := fun c f hholds => by cases hholds }

end Consistent

/-- **At every step no two keys have one id, and every reply has gone to the flow that asked**,
in every run in which ids that are known are out of the counter's way whenever one is
allocated. -/
theorem replies_reach_asker {ls : List Label} {s : State}
    (h : Run step Spaced {} ls s) :
    (∀ k k' c, (k, c) ∈ s.conids → (k', c) ∈ s.conids → k = k') ∧ Answered s.log := by
  have hconsistent : Consistent s :=
    h.invariant .start fun _ _ _ hs hok hstep => hs.step hok hstep
  refine ⟨fun k k' c hk hk' => ?_, hconsistent.answered⟩
  exact (hconsistent.owned (.conid hk)).unique (hconsistent.owned (.conid hk'))

/-- A flow of the first association. -/
def first : Flow := ⟨0, 40000, [1, 1, 1, 1, 0, 53]⟩

/-- One of the second. -/
def second : Flow := ⟨1, 50000, [8, 8, 8, 8, 1, 187]⟩

/-- Two flows send at once, and the answers come in the other order: each goes to its own. -/
theorem replies_reach_asker_crossed :
    ∃ s, Run step Spaced {}
        [.assign 0 first, .assign 1 second, .store 0, .store 1, .enqueue 0 true, .enqueue 1 true,
          .lookUp 2, .deliver false, .lookUp 1, .deliver false] s ∧
      s.conids = [(first.key, 1), (second.key, 2)] ∧
      s.log = [.allocated 1 first.key, .allocated 2 second.key, .sent 1 first.key,
        .sent 2 second.key, .delivered 2 second.key, .delivered 1 first.key] ∧
      (∀ k k' c, (k, c) ∈ s.conids → (k', c) ∈ s.conids → k = k') ∧ Answered s.log := by
  have hnobody : Spaced {} (.assign 0 first) := by
    intro _ c k hk
    cases hk with
    | conid h => cases h
    | flow h => cases h
    | thread h => cases h
    | reader h => cases h
  have hfar : ∀ s₁, step {} (.assign 0 first) = .ok s₁ → Spaced s₁ (.assign 1 second) := by
    intro s₁ hs₁
    cases hs₁
    intro _ c k hk
    have hone : c = 1 := by
      cases hk with
      | conid h =>
        cases mem_singleton.mp h
        rfl
      | flow h => cases h
      | @thread t f h =>
        by_cases ht : t = 0
        · cases ht
          cases h
          rfl
        · simp only [State.setThread, Function.update_of_ne ht] at h
          cases h
      | reader h => cases h
    refine .inr fun j hj hcandidate => ?_
    -- The counter is at 2, and 2050 turns do not bring it back to 1.
    have hcounter : candidate (2 + j) = 1 := hcandidate.trans hone
    rw [candidate, if_neg (by omega)] at hcounter
    omega
  refine Run.exists_and (.snoc (.snoc (.snoc (.snoc (.snoc (.snoc (.snoc (.snoc (.snoc (.snoc .nil
    hnobody rfl) (hfar _ rfl) rfl) (by trivial) rfl) (by trivial) rfl) (by trivial) rfl)
    (by trivial) rfl) (by trivial) rfl) (by trivial) rfl) (by trivial) rfl) (by trivial) rfl)
    fun hrun => ?_
  exact ⟨rfl, rfl, replies_reach_asker hrun⟩

/-! ### A whole turn of the counter -/

/-- The first flow is there and nothing else is. -/
def alone (n : Nat) (log : List Event) : State :=
  { nextConid := n, flows := [(1, first)], conids := [(first.key, 1)], log }

/-- The second association sends once and is closed. -/
def visit : List Label :=
  [.assign 1 second, .store 1, .enqueue 1 true, .releaseFlows 1 1, .releaseConids 1]

/-- A visit leaves nothing behind but the counter's next value. -/
theorem visit_run {n : Nat} (hlow : 1 < n) (hhigh : n < 65536) (log : List Event) :
    Run step (fun _ _ => True) (alone n log) visit
      (alone (n + 1) (log ++ [.allocated n second.key] ++ [.sent n second.key])) := by
  have hcandidate : candidate n = n := by
    unfold candidate
    rw [Nat.mod_eq_of_lt hhigh, if_neg (by omega)]
  have hfree : containsKey [(1, first)] n = false := by
    simp only [containsKey, any_cons, any_nil, Bool.or_false, decide_eq_false_iff_not]
    omega
  have hallocate : allocateConid [(1, first)] n = (n, n + 1) := by
    rw [allocateConid, allocateFrom, hcandidate, hfree]
    rfl
  have hput : (put maxUdpgwFlows [(1, first)] n second).2 = [(1, first), (n, second)] := by
    rw [put, hfree]
    rfl
  have hstale : [(first.key, 1), (second.key, n)].filter
      (fun e => containsKey [(1, first)] e.2) = [(first.key, 1)] := by
    simp only [filter_cons, hfree]
    rfl
  have hvisit : perform step (fun _ _ => True) (alone n log) visit = some
      (alone (n + 1) (log ++ [.allocated n second.key] ++ [.sent n second.key])) := by
    have hget : LinkedMap.get [(first.key, 1)] second.key = none := rfl
    have hkeys : put maxUdpgwFlows [(first.key, 1)] second.key n =
        (none, [(first.key, 1), (second.key, n)]) := rfl
    have hleft : [(1, first), (n, second)].filter (fun e => !decide (e.2.relay = 1)) =
        [(1, first)] := rfl
    simp [visit, perform, Udpgw.step, alone, State.conidOf, hget, State.allocate, hallocate, hkeys,
      hput, State.setThread, State.releaseFlows, hleft, State.releaseConids, hstale]
  exact .of_perform .nil hvisit

/-- The counter can be brought all the way round while the first flow stays. -/
theorem visits_run (log : List Event) {m : Nat} (hm : m ≤ 65534) :
    ∃ ls visits, Run step (fun _ _ => True) (alone 2 log) ls (alone (2 + m) (log ++ visits)) ∧
      ∀ e ∈ visits, e ≠ .allocated 1 first.key := by
  induction m with
  | zero => exact ⟨[], [], by rw [append_nil]; exact .nil, fun e he => absurd he not_mem_nil⟩
  | succ m ih =>
    obtain ⟨ls, visits, hrun, hvisits⟩ := ih (Nat.le_of_succ_le hm)
    have hnext := hrun.append (visit_run (by omega) (by omega) (log ++ visits))
    refine ⟨ls ++ visit, visits ++ [.allocated (2 + m) second.key] ++ [.sent (2 + m) second.key],
      ?_, ?_⟩
    · simp only [← append_assoc]
      exact hnext
    · intro e he heq
      simp only [mem_append, mem_singleton] at he
      obtain (he | rfl) | rfl := he
      · exact hvisits e he heq
      · have hid := (Event.allocated.inj heq).1
        omega
      · cases heq

/-- Both flows have the id. -/
def shared (log : List Event) : State :=
  { nextConid := 65537, flows := [(1, second)], conids := [(first.key, 1), (second.key, 1)], log }

/-- The relay of the first flow's reply fails, `flows` drops its id, and the second flow is
given the same one. -/
theorem collision_run (log : List Event) :
    Run step (fun _ _ => True) (alone 65536 log)
      [.lookUp 1, .deliver true, .drop, .assign 1 second, .store 1, .enqueue 1 true]
      (shared (log ++ [.allocated 1 second.key] ++ [.sent 1 second.key])) := by
  have hlookUp : LinkedMap.get [(1, first)] 1 = some first := rfl
  have hdrop : remove [(1, first)] 1 = [] := rfl
  have hget : LinkedMap.get [(first.key, 1)] second.key = none := rfl
  have hallocate : allocateConid [] 65536 = (1, 65537) := rfl
  have hkeys : put maxUdpgwFlows [(first.key, 1)] second.key 1 =
      (none, [(first.key, 1), (second.key, 1)]) := rfl
  have hput : (put maxUdpgwFlows [] 1 second).2 = [(1, second)] := rfl
  refine .of_perform .nil ?_
  simp [perform, Udpgw.step, alone, shared, hlookUp, hdrop, State.conidOf, hget, State.allocate,
    hallocate, hkeys, hput, State.setThread]

/-- Then the first flow sends again and gets what comes back for the second one. -/
theorem astray_run (log : List Event) :
    ∃ s, Run step (fun _ _ => True) (shared log)
        [.assign 0 first, .store 0, .enqueue 0 true, .lookUp 1, .deliver false] s ∧
      s.conids = [(second.key, 1), (first.key, 1)] ∧
      s.log = log ++ [.sent 1 first.key] ++ [.delivered 1 first.key] := by
  refine Run.exists_and (.of_perform .nil rfl) fun _ => ⟨?_, ?_⟩
  · rfl
  · rfl

/-- An id that was allocated for a key at the start only is not the key's alone once another one
has sent with it. -/
theorem not_since {c : Nat} {k : Key} (k' : Key) (hne : k' ≠ k) (hlog : .allocated c k ∉ log)
    (hsent : .sent c k' ∈ log) : ¬ Since (.allocated c k :: log) c k := by
  rintro ⟨front, rest, heq, -, hframes⟩
  cases front with
  | nil =>
    obtain ⟨-, rfl⟩ := List.cons.inj heq
    exact hne (hframes k' hsent)
  | cons e front =>
    obtain ⟨-, rfl⟩ := List.cons.inj heq
    exact hlog (by simp)

/-- **Two flows can come to share an id, and one of them gets the other's answers.** -/
theorem reply_astray :
    ∃ ls s, Run step (fun _ _ => True) {} ls s ∧
      (first.key, 1) ∈ s.conids ∧ (second.key, 1) ∈ s.conids ∧ first.key ≠ second.key ∧
      ¬ Answered s.log := by
  have hsend : Run step (fun _ _ => True) {} [.assign 0 first, .store 0, .enqueue 0 true]
      (alone 2 [.allocated 1 first.key, .sent 1 first.key]) := by
    have hperform : perform step (fun _ _ => True) {}
        [.assign 0 first, .store 0, .enqueue 0 true]
          = some { alone 2 [.allocated 1 first.key, .sent 1 first.key] with
            threads := update (update (update (fun _ => .idle) 0
              (.storing 1 first)) 0 (.enqueueing 1 first)) 0 .idle } := rfl
    rw [update_idem, update_idem, update_eq_self 0 fun _ : Nat => Thread.idle] at hperform
    exact .of_perform .nil hperform
  obtain ⟨ls, visits, hvisits, hother⟩ :=
    visits_run [.allocated 1 first.key, .sent 1 first.key] (Nat.le_refl 65534)
  have hcollision := collision_run ([.allocated 1 first.key, .sent 1 first.key] ++ visits)
  obtain ⟨s, hastray, hconids, hlog⟩ := astray_run _
  refine ⟨_, s, ((hsend.append hvisits).append hcollision).append hastray, by simp [hconids],
    by simp [hconids], by decide, fun hanswered => ?_⟩
  have hsince : Since (.allocated 1 first.key :: (.sent 1 first.key :: (visits ++
      [.allocated 1 second.key] ++ [.sent 1 second.key] ++ [.sent 1 first.key]))) 1 first.key :=
    hanswered _ [] 1 first.key hlog
  refine not_since second.key (by decide) (fun hmem => ?_) (by simp) hsince
  simp only [mem_cons, mem_append, not_mem_nil, or_false] at hmem
  obtain heq | ((hmem | heq) | heq) | heq := hmem
  · cases heq
  · exact hother _ hmem rfl
  · exact absurd heq (by decide)
  · cases heq
  · cases heq

end Aether.Udpgw
