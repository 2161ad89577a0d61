/-
Maps that remember the order of their entries.

A map is the list of its entries, the eldest one first.  Writing to a key that is there
changes its value in place; a new entry goes to the end, and with a bound on the size the
eldest one then has to go.  In access order an entry that is looked up goes to the end too.
-/
import Mathlib.Data.List.Basic

namespace LinkedMap

open List

variable {K V : Type} [DecidableEq K]

def get (m : List (K × V)) (k : K) : Option V := (m.find? fun e => decide (e.1 = k)).map Prod.snd

def containsKey (m : List (K × V)) (k : K) : Bool := m.any fun e => decide (e.1 = k)

def remove (m : List (K × V)) (k : K) : List (K × V) := m.filter fun e => decide (e.1 ≠ k)

/-- A lookup in access order. -/
def touch (m : List (K × V)) (k : K) : List (K × V) :=
  match get m k with
  | some v => remove m k ++ [(k, v)]
  | none => m

/-- A write, and the entry that has to go for it. -/
def put (bound : Nat) (m : List (K × V)) (k : K) (v : V) : Option (K × V) × List (K × V) :=
  if containsKey m k then (none, m.map fun e => if e.1 = k then (k, v) else e)
  else if (m ++ [(k, v)]).length > bound then ((m ++ [(k, v)]).head?, (m ++ [(k, v)]).tail)
  else (none, m ++ [(k, v)])

variable {m : List (K × V)} {k : K} {v : V} {e : K × V}

theorem containsKey_iff : containsKey m k = true ↔ ∃ v, (k, v) ∈ m := by
  simp only [containsKey, any_eq_true, decide_eq_true_eq]
  constructor
  · rintro ⟨⟨k', v⟩, hmem, rfl⟩
    exact ⟨v, hmem⟩
  · rintro ⟨v, hmem⟩
    exact ⟨(k, v), hmem, rfl⟩

theorem mem_of_get (h : get m k = some v) : (k, v) ∈ m := by
  obtain ⟨e, hfind, rfl⟩ := Option.map_eq_some_iff.mp h
  have hkey : e.1 = k := by simpa using List.find?_some hfind
  exact hkey ▸ mem_of_find?_eq_some hfind

theorem mem_of_mem_remove (h : e ∈ remove m k) : e ∈ m := mem_of_mem_filter h

theorem length_remove_le (m : List (K × V)) (k : K) : (remove m k).length ≤ m.length :=
  length_filter_le _ _

theorem mem_of_mem_touch (h : e ∈ touch m k) : e ∈ m := by
  unfold touch at h
  split at h
  · next v hget =>
      obtain hmem | hmem := mem_append.mp h
      · exact mem_of_mem_remove hmem
      · rw [mem_singleton.mp hmem]
        exact mem_of_get hget
  · exact h

/-- A write brings in its own entry and no other. -/
theorem mem_of_mem_put {bound : Nat} (h : e ∈ (put bound m k v).2) : e = (k, v) ∨ e ∈ m := by
  unfold put at h
  split at h
  · obtain ⟨e', hmem, rfl⟩ := mem_map.mp h
    by_cases hkey : e'.1 = k
    · exact .inl (if_pos hkey)
    · rw [if_neg hkey]
      exact .inr hmem
  · have hadd : e ∈ m ++ [(k, v)] := by
      split at h
      · exact mem_of_mem_tail h
      · exact h
    obtain hmem | hmem := mem_append.mp hadd
    · exact .inr hmem
    · exact .inl (mem_singleton.mp hmem)

/-- A map within its bound stays there. -/
theorem length_put_le {bound : Nat} (h : m.length ≤ bound) :
    (put bound m k v).2.length ≤ bound := by
  unfold put
  split
  · rwa [length_map]
  · split
    · simpa using h
    · next hle => exact Nat.not_lt.mp hle

end LinkedMap
