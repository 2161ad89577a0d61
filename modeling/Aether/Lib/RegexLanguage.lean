/-
The language of a pattern that does not look around.

Where a pattern reads only what it takes, the places a backtracking matcher can reach are told by
the words of its language.  `accepts_iff` says so, and the lemmas behind it say which words the
usual patterns have.
-/
import Aether.Lib.Regex
import Mathlib.Computability.Language

namespace Regex

open List

variable {α : Type}

/-! ### Words -/

/-- No boundary and nothing behind is asked for. -/
def isPlain : Regex α → Bool
  | empty | one _ => true
  | seq r s | alt r s => isPlain r && isPlain s
  | upTo _ r | many r | group r => isPlain r
  | boundary _ | notBehind _ => false

/-- The words a pattern takes. -/
def language : Regex α → Language α
  | empty => 1
  | one p => { w | ∃ c, p c = true ∧ w = [c] }
  | seq r s => language r * language s
  | alt r s => language r + language s
  | upTo n r =>
    { w | ∃ ws : List (List α), ws.length ≤ n ∧ w = ws.flatten ∧ ∀ v ∈ ws, v ∈ language r }
  | many r => KStar.kstar (language r)
  | group r => language r
  | boundary _ | notBehind _ => 0

section Words

variable {r s : Regex α} {rs : List (Regex α)} {p : α → Bool} {w : List α} {n : Nat}

@[simp] theorem mem_language_empty : w ∈ language (empty : Regex α) ↔ w = [] := Language.mem_one w

@[simp] theorem mem_language_one : w ∈ language (one p) ↔ ∃ c, p c = true ∧ w = [c] := Iff.rfl

theorem mem_language_seq :
    w ∈ language (seq r s) ↔ ∃ u ∈ language r, ∃ v ∈ language s, u ++ v = w := Language.mem_mul

theorem mem_language_alt : w ∈ language (alt r s) ↔ w ∈ language r ∨ w ∈ language s :=
  Language.mem_add (language r) (language s) w

theorem mem_language_upTo :
    w ∈ language (upTo n r) ↔
      ∃ ws : List (List α), ws.length ≤ n ∧ w = ws.flatten ∧ ∀ v ∈ ws, v ∈ language r := Iff.rfl

theorem mem_language_many :
    w ∈ language (many r) ↔ ∃ ws : List (List α), w = ws.flatten ∧ ∀ v ∈ ws, v ∈ language r :=
  Language.mem_kstar

theorem mem_language_opt : w ∈ language (opt r) ↔ w = [] ∨ w ∈ language r := by
  unfold opt
  rw [mem_language_upTo]
  constructor
  · rintro ⟨ws, hlen, rfl, hws⟩
    match ws with
    | [] => exact .inl rfl
    | [v] => exact .inr (by simpa using hws v (by simp))
    | _ :: _ :: _ => simp at hlen
  · rintro (rfl | hw)
    · exact ⟨[], by simp, rfl, by simp⟩
    · exact ⟨[w], by simp, by simp, by simpa using hw⟩

theorem mem_language_all_cons :
    w ∈ language (Regex.all (r :: rs)) ↔
      ∃ u ∈ language r, ∃ v ∈ language (Regex.all rs), u ++ v = w := by
  cases rs with
  | nil =>
    constructor
    · intro h
      exact ⟨w, h, [], mem_language_empty.mpr rfl, append_nil w⟩
    · rintro ⟨u, hu, v, hv, rfl⟩
      rw [mem_language_empty.mp hv, append_nil]
      exact hu
  | cons s rs => exact mem_language_seq

theorem mem_language_any : w ∈ language (Regex.any rs) ↔ ∃ r ∈ rs, w ∈ language r := by
  induction rs with
  | nil => simp [Regex.any]
  | cons r rs ih =>
    cases rs with
    | nil => simp [Regex.any]
    | cons s rs =>
      show w ∈ language (alt r (Regex.any (s :: rs))) ↔ _
      rw [mem_language_alt, ih]
      simp only [mem_cons, exists_eq_or_imp]

/-- A literal is its only word. -/
theorem mem_language_literal [BEq α] [LawfulBEq α] {t : List α} :
    w ∈ language (Regex.all (t.map fun c => one (· == c))) ↔ w = t := by
  induction t generalizing w with
  | nil => exact mem_language_empty
  | cons c t ih =>
    rw [map_cons, mem_language_all_cons]
    constructor
    · rintro ⟨u, ⟨d, hd, rfl⟩, v, hv, rfl⟩
      rw [ih.mp hv, eq_of_beq hd]
      rfl
    · rintro rfl
      exact ⟨[c], ⟨c, beq_self_eq_true c, rfl⟩, t, ih.mpr rfl, rfl⟩

/-! ### Runs of one class -/

theorem mem_language_upTo_one :
    w ∈ language (upTo n (one p)) ↔ w.length ≤ n ∧ ∀ c ∈ w, p c = true := by
  rw [mem_language_upTo]
  constructor
  · rintro ⟨ws, hlen, rfl, hws⟩
    have hone : ∀ v ∈ ws, ∃ c, p c = true ∧ v = [c] := hws
    refine ⟨?_, ?_⟩
    · rw [length_flatten, map_congr_left (g := fun _ => 1) fun v hv => by
        obtain ⟨c, -, rfl⟩ := hone v hv
        rfl]
      simpa using hlen
    · intro c hc
      obtain ⟨v, hv, hcv⟩ := mem_flatten.mp hc
      obtain ⟨d, hd, rfl⟩ := hone v hv
      rwa [mem_singleton.mp hcv]
  · rintro ⟨hlen, hw⟩
    refine ⟨w.map fun c => [c], by simpa using hlen, ?_, ?_⟩
    · rw [← flatMap_def, flatMap_singleton']
    · intro v hv
      obtain ⟨c, hc, rfl⟩ := mem_map.mp hv
      exact ⟨c, hw c hc, rfl⟩

theorem mem_language_many_one : w ∈ language (many (one p)) ↔ ∀ c ∈ w, p c = true := by
  have hupTo := mem_language_upTo_one (p := p) (w := w) (n := w.length)
  constructor
  · intro h
    obtain ⟨ws, rfl, hws⟩ := mem_language_many.mp h
    intro c hc
    obtain ⟨v, hv, hcv⟩ := mem_flatten.mp hc
    obtain ⟨d, hd, rfl⟩ := hws v hv
    rwa [mem_singleton.mp hcv]
  · intro h
    obtain ⟨ws, -, hw, hws⟩ := hupTo.mpr ⟨Nat.le_refl _, h⟩
    exact mem_language_many.mpr ⟨ws, hw, hws⟩

theorem mem_language_times_one :
    w ∈ language (times n (one p)) ↔ w.length = n ∧ ∀ c ∈ w, p c = true := by
  induction n generalizing w with
  | zero =>
    show w ∈ language empty ↔ _
    rw [mem_language_empty]
    constructor
    · rintro rfl
      simp
    · exact fun h => length_eq_zero_iff.mp h.1
  | succ n ih =>
    show w ∈ language (seq (one p) (times n (one p))) ↔ _
    rw [mem_language_seq]
    constructor
    · rintro ⟨u, ⟨c, hc, rfl⟩, v, hv, rfl⟩
      obtain ⟨hlen, hall⟩ := ih.mp hv
      refine ⟨by simp [hlen], ?_⟩
      intro d hd
      obtain rfl | hd := mem_cons.mp hd
      · exact hc
      · exact hall d hd
    · rintro ⟨hlen, hall⟩
      obtain ⟨c, v, rfl⟩ := exists_cons_of_length_eq_add_one hlen
      exact ⟨[c], ⟨c, hall c (by simp), rfl⟩, v,
        ih.mpr ⟨by simpa using hlen, fun d hd => hall d (by simp [hd])⟩, rfl⟩

/-- So many characters of the class, at least and at most. -/
theorem mem_language_between_one {m more : Nat} :
    w ∈ language (between m more (one p)) ↔
      m ≤ w.length ∧ w.length ≤ m + more ∧ ∀ c ∈ w, p c = true := by
  unfold between
  rw [mem_language_seq]
  constructor
  · rintro ⟨u, hu, v, hv, rfl⟩
    obtain ⟨hulen, hu⟩ := mem_language_times_one.mp hu
    obtain ⟨hvlen, hv⟩ := mem_language_upTo_one.mp hv
    rw [length_append]
    refine ⟨by omega, by omega, ?_⟩
    intro c hc
    exact (mem_append.mp hc).elim (hu c) (hv c)
  · rintro ⟨hmin, hmax, hw⟩
    refine ⟨w.take m, mem_language_times_one.mpr ⟨length_take_of_le hmin, ?_⟩,
      w.drop m, mem_language_upTo_one.mpr ⟨?_, ?_⟩, take_append_drop m w⟩
    · exact fun c hc => hw c (mem_of_mem_take hc)
    · rw [length_drop]
      omega
    · exact fun c hc => hw c (mem_of_mem_drop hc)

theorem mem_language_plus_one :
    w ∈ language (plus (one p)) ↔ w ≠ [] ∧ ∀ c ∈ w, p c = true := by
  unfold plus atLeast
  rw [mem_language_seq]
  constructor
  · rintro ⟨u, hu, v, hv, rfl⟩
    obtain ⟨hlen, hu⟩ := mem_language_times_one.mp hu
    refine ⟨?_, ?_⟩
    · intro hnil
      rw [(append_eq_nil_iff.mp hnil).1] at hlen
      simp at hlen
    · intro c hc
      exact (mem_append.mp hc).elim (hu c) (mem_language_many_one.mp hv c)
  · rintro ⟨hne, hw⟩
    obtain ⟨c, v, rfl⟩ := exists_cons_of_ne_nil hne
    refine ⟨[c], mem_language_times_one.mpr ⟨rfl, ?_⟩, v, mem_language_many_one.mpr ?_, rfl⟩
    · intro d hd
      rw [mem_singleton.mp hd]
      exact hw c (by simp)
    · exact fun d hd => hw d (by simp [hd])

end Words

/-! ### The matcher and the words -/

section Matcher

variable {r : Regex α} {f : Cursor α → List (Cursor α)} {L : Language α}

/-- A round of the matcher takes words of a language. -/
def Sound (f : Cursor α → List (Cursor α)) (L : Language α) : Prop :=
  ∀ s s', s' ∈ f s → ∃ w ∈ L, s.rest = w ++ s'.rest

/-- A round of the matcher can take each word of a language. -/
def Complete (f : Cursor α → List (Cursor α)) (L : Language α) : Prop :=
  ∀ s w z, w ∈ L → s.rest = w ++ z → ∃ s' ∈ f s, s'.rest = z

theorem Sound.iter (hf : Sound f L) (n : Nat) :
    ∀ s s', s' ∈ iter f n s →
      ∃ ws : List (List α), ws.length ≤ n ∧ (∀ w ∈ ws, w ∈ L) ∧ s.rest = ws.flatten ++ s'.rest := by
  induction n with
  | zero =>
    intro s s' h
    rw [mem_singleton.mp h]
    exact ⟨[], Nat.le_refl 0, by simp, rfl⟩
  | succ n ih =>
    intro s s' h
    obtain h | h := mem_append.mp h
    · obtain ⟨m, hm, hs'⟩ := mem_flatMap.mp h
      obtain ⟨w, hw, hrest⟩ := hf s m (mem_filter.mp hm).1
      obtain ⟨ws, hlen, hws, hmrest⟩ := ih m s' hs'
      refine ⟨w :: ws, Nat.succ_le_succ hlen, ?_, ?_⟩
      · exact forall_mem_cons.mpr ⟨hw, hws⟩
      · rw [hrest, hmrest, flatten_cons, append_assoc]
    · rw [mem_singleton.mp h]
      exact ⟨[], Nat.zero_le _, by simp, rfl⟩

/-- Words that are not empty, one round for each. -/
theorem Complete.iter (hf : Complete f L) {ws : List (List α)} (hws : ∀ w ∈ ws, w ∈ L ∧ w ≠ [])
    {n : Nat} (hlen : ws.length ≤ n) {s : Cursor α} {z : List α} (hs : s.rest = ws.flatten ++ z) :
    ∃ s' ∈ Regex.iter f n s, s'.rest = z := by
  induction ws generalizing n s with
  | nil =>
    refine ⟨s, ?_, hs⟩
    cases n with
    | zero => exact mem_singleton_self s
    | succ n => exact mem_append_right _ (mem_singleton_self s)
  | cons w ws ih =>
    obtain ⟨hw, hws⟩ := forall_mem_cons.mp hws
    obtain ⟨n, rfl⟩ := Nat.exists_eq_add_one_of_ne_zero
      (Nat.ne_of_gt (Nat.lt_of_lt_of_le (Nat.succ_pos ws.length) hlen))
    rw [flatten_cons, append_assoc] at hs
    obtain ⟨m, hm, hrest⟩ := hf s w _ hw.1 hs
    obtain ⟨s', hs', hz⟩ := ih hws (Nat.le_of_succ_le_succ hlen) hrest
    refine ⟨s', mem_append_left _ (mem_flatMap.mpr ⟨m, ?_, hs'⟩), hz⟩
    rw [mem_filter]
    refine ⟨hm, ?_⟩
    have hpos := length_pos_of_ne_nil hw.2
    rw [decide_eq_true_iff, hs, hrest]
    simp only [length_append]
    omega

theorem length_le_length_flatten {ws : List (List α)} (h : ∀ w ∈ ws, w ≠ []) :
    ws.length ≤ ws.flatten.length := by
  induction ws with
  | nil => exact Nat.le_refl 0
  | cons w ws ih =>
    obtain ⟨hw, hws⟩ := forall_mem_cons.mp h
    rw [flatten_cons, length_append, length_cons]
    have hpos := length_pos_of_ne_nil hw
    have hrest := ih hws
    omega

theorem sound_run (hr : isPlain r = true) : Sound (run r) (language r) := by
  induction r with
  | empty =>
    intro s s' h
    rw [mem_run_empty.mp h]
    exact ⟨[], rfl, rfl⟩
  | one p =>
    intro s s' h
    obtain ⟨c, rest, hrest, hc, rfl⟩ := mem_run_one.mp h
    exact ⟨[c], ⟨c, hc, rfl⟩, hrest⟩
  | seq r t ihr iht =>
    intro s s' h
    obtain ⟨m, hm, hs'⟩ := mem_run_seq.mp h
    obtain ⟨u, hu, hs⟩ := ihr (Bool.and_eq_true_iff.mp hr).1 s m hm
    obtain ⟨v, hv, hmrest⟩ := iht (Bool.and_eq_true_iff.mp hr).2 m s' hs'
    exact ⟨u ++ v, mem_language_seq.mpr ⟨u, hu, v, hv, rfl⟩, by rw [hs, hmrest, append_assoc]⟩
  | alt r t ihr iht =>
    intro s s' h
    obtain h | h := mem_run_alt.mp h
    · obtain ⟨w, hw, hs⟩ := ihr (Bool.and_eq_true_iff.mp hr).1 s s' h
      exact ⟨w, mem_language_alt.mpr (.inl hw), hs⟩
    · obtain ⟨w, hw, hs⟩ := iht (Bool.and_eq_true_iff.mp hr).2 s s' h
      exact ⟨w, mem_language_alt.mpr (.inr hw), hs⟩
  | upTo n r ih =>
    intro s s' h
    obtain ⟨ws, hlen, hws, hs⟩ := (ih hr).iter n s s' h
    exact ⟨ws.flatten, ⟨ws, hlen, rfl, hws⟩, hs⟩
  | many r ih =>
    intro s s' h
    obtain ⟨ws, -, hws, hs⟩ := (ih hr).iter s.rest.length s s' h
    exact ⟨ws.flatten, mem_language_many.mpr ⟨ws, rfl, hws⟩, hs⟩
  | group r ih =>
    intro s s' h
    obtain ⟨m, hm, rfl⟩ := mem_map.mp h
    exact ih hr s m hm
  | boundary w => exact nomatch hr
  | notBehind p => exact nomatch hr

theorem complete_run (hr : isPlain r = true) : Complete (run r) (language r) := by
  classical
  induction r with
  | empty =>
    intro s w z hw hs
    rw [mem_language_empty.mp hw] at hs
    exact ⟨s, mem_run_empty.mpr rfl, hs⟩
  | one p =>
    rintro s w z ⟨c, hc, rfl⟩ hs
    exact ⟨_, mem_run_one.mpr ⟨c, z, hs, hc, rfl⟩, rfl⟩
  | seq r t ihr iht =>
    intro s w z hw hs
    obtain ⟨u, hu, v, hv, rfl⟩ := mem_language_seq.mp hw
    rw [append_assoc] at hs
    obtain ⟨m, hm, hmrest⟩ := ihr (Bool.and_eq_true_iff.mp hr).1 s u _ hu hs
    obtain ⟨s', hs', hz⟩ := iht (Bool.and_eq_true_iff.mp hr).2 m v z hv hmrest
    exact ⟨s', mem_run_seq.mpr ⟨m, hm, hs'⟩, hz⟩
  | alt r t ihr iht =>
    intro s w z hw hs
    obtain hw | hw := mem_language_alt.mp hw
    · obtain ⟨s', hs', hz⟩ := ihr (Bool.and_eq_true_iff.mp hr).1 s w z hw hs
      exact ⟨s', mem_run_alt.mpr (.inl hs'), hz⟩
    · obtain ⟨s', hs', hz⟩ := iht (Bool.and_eq_true_iff.mp hr).2 s w z hw hs
      exact ⟨s', mem_run_alt.mpr (.inr hs'), hz⟩
  | upTo n r ih =>
    rintro s w z ⟨ws, hlen, rfl, hws⟩ hs
    rw [← flatten_filter_ne_nil] at hs
    refine (ih hr).iter (fun w hw => ?_) ((length_filter_le _ ws).trans hlen) hs
    obtain ⟨hmem, hne⟩ := mem_filter.mp hw
    exact ⟨hws w hmem, of_decide_eq_true hne⟩
  | many r ih =>
    intro s w z hw hs
    obtain ⟨ws, rfl, hws⟩ := mem_language_many.mp hw
    rw [← flatten_filter_ne_nil] at hs
    have hkept : ∀ w ∈ ws.filter (· ≠ []), w ∈ language r ∧ w ≠ [] := fun w hw => by
      obtain ⟨hmem, hne⟩ := mem_filter.mp hw
      exact ⟨hws w hmem, of_decide_eq_true hne⟩
    -- a word for each round, and a character at least for each word
    refine (ih hr).iter hkept ?_ hs
    have hlen := length_le_length_flatten fun w hw => (hkept w hw).2
    rw [hs, length_append]
    omega
  | group r ih =>
    intro s w z hw hs
    obtain ⟨m, hm, hz⟩ := ih hr s w z hw hs
    exact ⟨_, mem_map_of_mem hm, hz⟩
  | boundary w => exact nomatch hr
  | notBehind p => exact nomatch hr

/-- **A pattern that does not look around matches the words of its language.** -/
theorem accepts_iff (hr : isPlain r = true) {t : List α} : accepts r t = true ↔ t ∈ language r := by
  unfold accepts
  rw [any_eq_true]
  constructor
  · rintro ⟨s, hs, hend⟩
    obtain ⟨w, hw, hrest⟩ := sound_run hr _ s hs
    rw [List.isEmpty_iff.mp hend, append_nil] at hrest
    rwa [show t = w from hrest]
  · intro ht
    obtain ⟨s, hs, hend⟩ := complete_run hr ⟨none, t, []⟩ t [] ht (append_nil t).symm
    exact ⟨s, hs, List.isEmpty_iff.mpr hend⟩

end Matcher

end Regex
