/-
A queue shared by many keys, ordered for each of them.

Messages wait in one list, each belonging to a key.  A pass offers them in order to
a handler, which takes a message or gives something back to keep; once a key had a
message given back, everything else of that key is kept untouched for the rest of
the pass, while the other keys go on being served.

What a pass means for one key is `pass_tracks`: a relation between the handler's
state and that key's messages which survives the handling of other keys, and of the
key's own front message, survives the pass.
-/
import Aether.Lib.Machine
import Mathlib.Data.Finset.Basic

namespace KeyedQueue

open Machine

variable {S M K ε : Type} [DecidableEq K]

/-- The messages of one key, in queue order. -/
def ofKey (key : M → K) (k : K) (q : List M) : List M := q.filter fun m => key m = k

variable {key : M → K} {k : K} {m : M}

@[simp] theorem ofKey_nil (key : M → K) (k : K) : ofKey key k [] = [] := rfl

theorem ofKey_cons_self (h : key m = k) (q : List M) :
    ofKey key k (m :: q) = m :: ofKey key k q := by
  simp [ofKey, h]

theorem ofKey_cons_other (h : key m ≠ k) (q : List M) : ofKey key k (m :: q) = ofKey key k q := by
  simp [ofKey, h]

@[simp] theorem ofKey_append (key : M → K) (k : K) (p q : List M) :
    ofKey key k (p ++ q) = ofKey key k p ++ ofKey key k q := by
  simp [ofKey]

theorem ofKey_eq_nil {q : List M} : ofKey key k q = [] ↔ ∀ m ∈ q, key m ≠ k := by
  simp [ofKey]

/-- One pass over the queue: the state, the keys that gave something back, and what
is kept. -/
def pass (key : M → K) (handle : S → M → Except ε (S × Option M)) :
    S → Finset K → List M → Except ε (S × Finset K × List M)
  | s, blocked, [] => .ok (s, blocked, [])
  | s, blocked, m :: rest =>
    if key m ∈ blocked then do
      let r ← pass key handle s blocked rest
      return (r.1, r.2.1, m :: r.2.2)
    else do
      let h ← handle s m
      match h.2 with
      | none => pass key handle h.1 blocked rest
      | some back => do
        let r ← pass key handle h.1 (insert (key m) blocked) rest
        return (r.1, r.2.1, back :: r.2.2)

/-- How the messages of a pass fare. -/
inductive Passed (key : M → K) (handle : S → M → Except ε (S × Option M)) :
    S → Finset K → List M → S → Finset K → List M → Prop
  | nil {s blocked} : Passed key handle s blocked [] s blocked []
  | blocked {s blocked m rest s' blocked' kept} (hb : key m ∈ blocked)
      (hrest : Passed key handle s blocked rest s' blocked' kept) :
      Passed key handle s blocked (m :: rest) s' blocked' (m :: kept)
  | taken {s blocked m rest t s' blocked' kept} (hb : key m ∉ blocked)
      (hhandle : handle s m = .ok (t, none))
      (hrest : Passed key handle t blocked rest s' blocked' kept) :
      Passed key handle s blocked (m :: rest) s' blocked' kept
  | deferred {s blocked m rest t back s' blocked' kept} (hb : key m ∉ blocked)
      (hhandle : handle s m = .ok (t, some back))
      (hrest : Passed key handle t (insert (key m) blocked) rest s' blocked' kept) :
      Passed key handle s blocked (m :: rest) s' blocked' (back :: kept)

theorem passed_of_ok {handle : S → M → Except ε (S × Option M)} {q : List M} {s s' : S}
    {blocked blocked' : Finset K} {kept : List M}
    (h : pass key handle s blocked q = .ok (s', blocked', kept)) :
    Passed key handle s blocked q s' blocked' kept := by
  induction q generalizing s blocked kept with
  | nil =>
    cases h
    exact .nil
  | cons m rest ih =>
    rw [pass] at h
    by_cases hb : key m ∈ blocked
    · rw [if_pos hb, bind_eq_ok] at h
      obtain ⟨⟨t, b, kept₁⟩, hrest, heq⟩ := h
      cases heq
      exact .blocked hb (ih hrest)
    · rw [if_neg hb, bind_eq_ok] at h
      obtain ⟨⟨t, o⟩, hhandle, h⟩ := h
      cases o with
      | none => exact .taken hb hhandle (ih h)
      | some back =>
        obtain ⟨⟨t', b, kept₁⟩, hrest, heq⟩ := bind_eq_ok.mp h
        cases heq
        exact .deferred hb hhandle (ih hrest)

section Rules

variable {key : M → K} {handle : S → M → Except ε (S × Option M)}

/-! ### What the handler does to one key -/

/-- A relation between the state and the messages of key `k` that handling keeps. -/
structure Tracks (key : M → K) (handle : S → M → Except ε (S × Option M)) (k : K)
    (R : S → List M → Prop) : Prop where
  other : ∀ {s m s' o l}, key m ≠ k → handle s m = .ok (s', o) → R s l → R s' l
  taken : ∀ {s m s' l}, key m = k → handle s m = .ok (s', none) → R s (m :: l) → R s' l
  deferred : ∀ {s m s' b l}, key m = k → handle s m = .ok (s', some b) → R s (m :: l) →
    R s' (b :: l)

/-- What is given back belongs to the key it came from. -/
def KeepsKey (key : M → K) (handle : S → M → Except ε (S × Option M)) : Prop :=
  ∀ s m s' b, handle s m = .ok (s', some b) → key b = key m

/-! ### What a pass does to one key -/

variable {k : K} {R : S → List M → Prop} {P : S → Prop} {q : List M} {s s' : S}
  {blocked blocked' : Finset K} {kept : List M}

/-- A key that is blocked keeps its messages, and the pass only handles others. -/
theorem Passed.of_blocked (hkey : KeepsKey key handle) (ht : Tracks key handle k R)
    (h : Passed key handle s blocked q s' blocked' kept) (hk : k ∈ blocked) :
    ofKey key k kept = ofKey key k q ∧ ∀ l, R s l → R s' l := by
  induction h with
  | nil => exact ⟨rfl, fun l hl => hl⟩
  | @blocked _ _ m _ _ _ _ _ _ ih =>
    obtain ⟨hof, hR⟩ := ih hk
    refine ⟨?_, hR⟩
    by_cases hm : key m = k
    · rw [ofKey_cons_self hm, ofKey_cons_self hm, hof]
    · rw [ofKey_cons_other hm, ofKey_cons_other hm, hof]
  | taken hb hhandle _ ih =>
    have hm := ne_of_mem_of_not_mem hk hb
    obtain ⟨hof, hR⟩ := ih hk
    exact ⟨by rw [hof, ofKey_cons_other hm.symm], fun l hl => hR l (ht.other hm.symm hhandle hl)⟩
  | deferred hb hhandle _ ih =>
    have hm := (ne_of_mem_of_not_mem hk hb).symm
    have hback := hkey _ _ _ _ hhandle ▸ hm
    obtain ⟨hof, hR⟩ := ih (Finset.mem_insert_of_mem hk)
    exact ⟨by rw [ofKey_cons_other hback, hof, ofKey_cons_other hm],
      fun l hl => hR l (ht.other hm hhandle hl)⟩

/-- **A tracked relation survives the pass**, from the key's messages before it to the
key's messages kept. -/
theorem pass_tracks (hkey : KeepsKey key handle) (ht : Tracks key handle k R) (hk : k ∉ blocked)
    (h : Passed key handle s blocked q s' blocked' kept) (hR : R s (ofKey key k q)) :
    R s' (ofKey key k kept) := by
  induction h with
  | nil => exact hR
  | blocked hb _ ih =>
    have hm := ne_of_mem_of_not_mem hb hk
    rw [ofKey_cons_other hm] at hR ⊢
    exact ih hk hR
  | @taken _ _ m _ _ _ _ _ _ hhandle _ ih =>
    by_cases hm : key m = k
    · rw [ofKey_cons_self hm] at hR
      exact ih hk (ht.taken hm hhandle hR)
    · rw [ofKey_cons_other hm] at hR
      exact ih hk (ht.other hm hhandle hR)
  | @deferred _ blocked m _ _ _ _ _ _ _ hhandle hrest ih =>
    have hback := hkey _ _ _ _ hhandle
    by_cases hm : key m = k
    · -- From here on `k` is blocked, so the rest of its messages stay as they are.
      obtain ⟨hof, hkeep⟩ := hrest.of_blocked hkey ht (by rw [hm]; simp)
      rw [ofKey_cons_self hm] at hR
      rw [ofKey_cons_self (hback.trans hm), hof]
      exact hkeep _ (ht.deferred hm hhandle hR)
    · have hk' : k ∉ insert (key m) blocked := by
        rw [Finset.mem_insert]
        rintro (hc | hc)
        · exact hm hc.symm
        · exact hk hc
      rw [ofKey_cons_other hm] at hR
      rw [ofKey_cons_other (hback ▸ hm)]
      exact ih hk' (ht.other hm hhandle hR)

/-! ### What a pass does as a whole -/

/-- The blocked keys are those the pass started with and those with a kept message. -/
theorem mem_blocked_iff (hkey : KeepsKey key handle)
    (h : Passed key handle s blocked q s' blocked' kept) :
    k ∈ blocked' ↔ k ∈ blocked ∨ ∃ m ∈ kept, key m = k := by
  induction h with
  | nil => simp
  | blocked hb _ ih =>
    simp only [ih, List.mem_cons, exists_eq_or_imp]
    constructor
    · rintro (hk | hk)
      · exact Or.inl hk
      · exact Or.inr (Or.inr hk)
    · rintro (hk | rfl | hk)
      · exact Or.inl hk
      · exact Or.inl hb
      · exact Or.inr hk
  | taken _ _ _ ih => exact ih
  | deferred _ hhandle _ ih =>
    simp only [ih, List.mem_cons, exists_eq_or_imp, Finset.mem_insert, hkey _ _ _ _ hhandle]
    rw [or_comm (a := k = _), or_assoc, eq_comm]

/-- A key with a kept message had one refused, when the messages before it had been offered. -/
theorem Passed.refused (hkey : KeepsKey key handle)
    (h : Passed key handle s blocked q s' blocked' kept) (hk : k ∉ blocked)
    (hkept : ∃ m ∈ kept, key m = k) :
    ∃ before m after t b done t' back, q = before ++ m :: after ∧
      Passed key handle s blocked before t b done ∧ key m = k ∧
      handle t m = .ok (t', some back) := by
  induction h with
  | nil => simp at hkept
  | @blocked _ _ m _ _ _ _ hb _ ih =>
    have hm := ne_of_mem_of_not_mem hb hk
    obtain ⟨before, m', after, t, b, done, t', back, rfl, hbefore, hrefused⟩ :=
      ih hk (by simpa [hm] using hkept)
    exact ⟨m :: before, m', after, t, b, m :: done, t', back, rfl, .blocked hb hbefore, hrefused⟩
  | @taken _ _ m _ _ _ _ _ hb hhandle _ ih =>
    obtain ⟨before, m', after, t, b, done, t', back, rfl, hbefore, hrefused⟩ := ih hk hkept
    exact ⟨m :: before, m', after, t, b, done, t', back, rfl, .taken hb hhandle hbefore, hrefused⟩
  | @deferred _ _ m rest _ first _ _ _ hb hhandle _ ih =>
    by_cases hm : key m = k
    · exact ⟨[], m, rest, _, _, [], _, first, rfl, .nil, hm, hhandle⟩
    · have hfirst : key first ≠ k := hkey _ _ _ _ hhandle ▸ hm
      obtain ⟨before, m', after, t, b, done, t', back, rfl, hbefore, hrefused⟩ :=
        ih (by simp [hk, Ne.symm hm]) (by simpa [hfirst] using hkept)
      exact ⟨m :: before, m', after, t, b, first :: done, t', back, rfl,
        .deferred hb hhandle hbefore, hrefused⟩

/-- Nothing is kept for a key that had no message. -/
theorem key_of_kept (hkey : KeepsKey key handle)
    (h : Passed key handle s blocked q s' blocked' kept) :
    ∀ m ∈ kept, ∃ m' ∈ q, key m' = key m := by
  induction h with
  | nil => simp
  | blocked _ _ ih =>
    simp only [List.mem_cons, exists_eq_or_imp, forall_eq_or_imp]
    exact ⟨Or.inl trivial, fun m hm => Or.inr (ih m hm)⟩
  | taken _ _ _ ih =>
    simp only [List.mem_cons, exists_eq_or_imp]
    exact fun m hm => Or.inr (ih m hm)
  | deferred _ hhandle _ ih =>
    simp only [List.mem_cons, exists_eq_or_imp, forall_eq_or_imp]
    exact ⟨Or.inl (hkey _ _ _ _ hhandle).symm, fun m hm => Or.inr (ih m hm)⟩

/-- What handling keeps, a pass keeps. -/
theorem pass_keeps (hstep : ∀ s m s' o, P s → handle s m = .ok (s', o) → P s')
    (h : Passed key handle s blocked q s' blocked' kept) (hs : P s) : P s' := by
  induction h with
  | nil => exact hs
  | blocked _ _ ih => exact ih hs
  | taken _ hhandle _ ih | deferred _ hhandle _ ih => exact ih (hstep _ _ _ _ hs hhandle)

/-- A pass over messages the handler can always handle succeeds. -/
theorem pass_succeeds (key : M → K) (handle : S → M → Except ε (S × Option M))
    (hstep : ∀ s m, P s → ∃ r, handle s m = .ok r ∧ P r.1) :
    ∀ (q : List M) (s : S) (blocked : Finset K), P s →
      ∃ r, pass key handle s blocked q = .ok r := by
  intro q
  induction q with
  | nil => intro s blocked _; exact ⟨_, rfl⟩
  | cons m rest ih =>
    intro s blocked hs
    rw [pass]
    by_cases hb : key m ∈ blocked
    · obtain ⟨r, hr⟩ := ih s blocked hs
      rw [if_pos hb, hr]
      exact ⟨_, rfl⟩
    · obtain ⟨⟨t, o⟩, hhandle, ht⟩ := hstep s m hs
      rw [if_neg hb, hhandle]
      cases o with
      | none => exact ih t blocked ht
      | some back =>
        obtain ⟨r, hr⟩ := ih t (insert (key m) blocked) ht
        refine ⟨(r.1, r.2.1, back :: r.2.2), bind_eq_ok.mpr ⟨_, rfl, ?_⟩⟩
        exact bind_eq_ok.mpr ⟨r, hr, rfl⟩

end Rules

end KeyedQueue
