/-
The ring of gateways after any sequence of saves.

Two rings are compared: the one in the file, cut at eight entries at every save, and the one of the
whole history.  Cutting first costs nothing, because a save takes at most one entry out of a ring
without repetitions (`take_filter_take`).
-/
import Mathlib.Data.List.DropRight
import Mathlib.Logic.Equiv.List
import Aether.Proofs.Socks.Resolvers
import Aether.Vault.Lastconn

namespace Aether.Lastconn

open List

variable {st : Storage} {s : Save} {saves : List Save} {carrier peer : Text}

/-- What is written is read back. -/
structure Storage.RoundTrips (st : Storage) : Prop where
  reads (file : Option Text) (conn : LastConnection) :
    ∃ text, st.toStringPretty conn = some text ∧ load st (st.write file text) = some conn

/-! ### The ring -/

/-- The peers saved since the carrier last changed, each at its last save, the last one first. -/
def ring (saves : List Save) (carrier : Text) : List Text :=
  ((saves.rtakeWhile (·.carrier = carrier)).map Save.peer).dedup.reverse

theorem dedup_concat (peers : List Text) (p : Text) :
    (peers ++ [p]).dedup = peers.dedup.filter (· ≠ p) ++ [p] := by
  induction peers with
  | nil => rfl
  | cons q peers ih =>
    by_cases hq : q ∈ peers
    · rw [cons_append, dedup_cons_of_mem (mem_append_left _ hq), dedup_cons_of_mem hq, ih]
    · by_cases hqp : q = p
      · subst hqp
        rw [cons_append, dedup_cons_of_mem (by simp), dedup_cons_of_notMem hq, ih,
          filter_cons_of_neg (by simp)]
      · rw [cons_append, dedup_cons_of_notMem (by simp [hq, hqp]), dedup_cons_of_notMem hq, ih,
          filter_cons_of_pos (by simpa using hqp), cons_append]

theorem ring_concat (saves : List Save) (s : Save) (carrier : Text) :
    ring (saves ++ [s]) carrier =
      if s.carrier = carrier then s.peer :: (ring saves carrier).filter (· ≠ s.peer) else [] := by
  rw [ring, rtakeWhile_concat]
  by_cases h : s.carrier = carrier
  · rw [if_pos (decide_eq_true h), if_pos h, map_append, map_singleton, dedup_concat,
      reverse_append, ← filter_reverse]
    rfl
  · rw [if_neg (by simpa using h), if_neg h]
    rfl

/-- At most one entry of the first `n + 1` is taken out. -/
theorem take_filter_take (peer : Text) {l : List Text} (hl : l.Nodup) (n : Nat) :
    ((l.take (n + 1)).filter (· ≠ peer)).take n = (l.filter (· ≠ peer)).take n := by
  induction l generalizing n with
  | nil => rfl
  | cons q l ih =>
    obtain ⟨hq, hl⟩ := nodup_cons.mp hl
    rw [take_succ_cons]
    by_cases hqp : q = peer
    · subst hqp
      have hall : l.filter (· ≠ q) = l :=
        filter_eq_self.mpr fun x hx => decide_eq_true fun heq => hq (heq ▸ hx)
      have htake : (l.take n).filter (· ≠ q) = l.take n :=
        filter_eq_self.mpr fun x hx => decide_eq_true fun heq => hq (heq ▸ mem_of_mem_take hx)
      rw [filter_cons_of_neg (by simp), filter_cons_of_neg (by simp), hall, htake, take_take,
        min_self]
    · rw [filter_cons_of_pos (by simpa using hqp), filter_cons_of_pos (by simpa using hqp)]
      cases n with
      | zero => rfl
      | succ n => rw [take_succ_cons, take_succ_cons, ih hl]

theorem foldl_pushRecent (peer : Text) (entries recent : List Text) :
    entries.foldl (pushRecent peer) recent =
      recent ++ (entries.filter (· ≠ peer)).take (recentCap - recent.length) := by
  induction entries generalizing recent with
  | nil => simp
  | cons e entries ih =>
    rw [foldl_cons, ih, pushRecent]
    by_cases he : e = peer
    · rw [if_neg (by simp [he]), filter_cons_of_neg (by simpa using he)]
    · rw [filter_cons_of_pos (by simpa using he)]
      cases hk : recentCap - recent.length with
      | zero => rw [if_neg (by omega), hk, take_zero, take_zero]
      | succ k =>
        have hk' : recentCap - (recent ++ [e]).length = k := by
          rw [length_append, length_singleton]
          omega
        rw [if_pos ⟨he, by omega⟩, hk', take_succ_cons, append_assoc, singleton_append]

/-! ### Saves -/

theorem load_save (h : st.RoundTrips) (file : Option Text) (s : Save) :
    load st (save st file s) = some
      { peer := s.peer, profile := s.profile, carrier := s.carrier
        recent := (carriedOver (load st file) s.carrier).foldl (pushRecent s.peer) [s.peer] } := by
  obtain ⟨text, htext, hload⟩ := h.reads file
    { peer := s.peer, profile := s.profile, carrier := s.carrier
      recent := (carriedOver (load st file) s.carrier).foldl (pushRecent s.peer) [s.peer] }
  simp only [save, htext]
  exact hload

/-- One more save, where the ring carried over is that of the whole history, cut. -/
theorem load_concat (h : st.RoundTrips) (hcarried : carriedOver (load st (saves.foldl (save st)
    none)) s.carrier = (ring saves s.carrier).take recentCap) :
    load st ((saves ++ [s]).foldl (save st) none) = some
      { peer := s.peer, profile := s.profile, carrier := s.carrier
        recent := (ring (saves ++ [s]) s.carrier).take recentCap } := by
  have hring := take_filter_take s.peer (l := ring saves s.carrier)
    (nodup_reverse.mpr (nodup_dedup _)) 7
  rw [foldl_append, foldl_cons, foldl_nil, load_save h, hcarried, foldl_pushRecent, ring_concat,
    if_pos rfl]
  exact congrArg (fun recent => some (LastConnection.mk _ _ _ (s.peer :: recent))) hring

theorem carriedOver_saves (h : st.RoundTrips) (hne : ∀ s ∈ saves, s.carrier ≠ [])
    (carrier : Text) :
    carriedOver (load st (saves.foldl (save st) none)) carrier =
      (ring saves carrier).take recentCap := by
  induction saves using reverseRecOn generalizing carrier with
  | nil => simp [load, carriedOver, ring]
  | append_singleton saves s ih =>
    have hs : s.carrier ≠ [] := hne s (by simp)
    rw [load_concat h (ih (fun s hs => hne s (mem_append_left _ hs)) _)]
    by_cases hc : s.carrier = carrier
    · simp [carriedOver, hc, Option.filter]
    · simp [carriedOver, hc, hs, Option.filter, ring_concat]

theorem foldl_pushPeer (raws : List Text) (seen : List StdSocketAddr) :
    raws.foldl pushPeer seen.eraseDups = (seen ++ raws.filterMap parseSocketAddr).eraseDups := by
  induction raws generalizing seen with
  | nil => simp
  | cons raw raws ih =>
    cases hraw : parseSocketAddr raw with
    | none =>
      have hpush : pushPeer seen.eraseDups raw = seen.eraseDups := by rw [pushPeer, hraw]
      rw [foldl_cons, hpush, filterMap_cons_none hraw, ih]
    | some addr =>
      have hpush : pushPeer seen.eraseDups raw = (seen ++ [addr]).eraseDups := by
        rw [pushPeer, hraw, Socks.eraseDups_concat]
      rw [foldl_cons, hpush, filterMap_cons_some hraw, ih, append_assoc, singleton_append]

/-- **The file is the recent history of one carrier.**  After any sequence of saves with named
carriers, the file has the last peer and, the last one first, the last eight of the peers saved
since the carrier changed; they are of use to the last carrier only. -/
theorem saves_history (h : st.RoundTrips) (saves : List Save) (last : Save)
    (hne : ∀ s ∈ saves ++ [last], s.carrier ≠ []) :
    ∃ conn, load st ((saves ++ [last]).foldl (save st) none) = some conn ∧
      conn.peer = last.peer ∧
      conn.recent = (ring (saves ++ [last]) last.carrier).take recentCap ∧
      ∀ carrier, usablePeers conn carrier =
        if carrier = last.carrier then (conn.recent.filterMap parseSocketAddr).eraseDups
        else [] := by
  have hlast : last.carrier ≠ [] := hne last (by simp)
  have hsaves := carriedOver_saves h (fun s hs => hne s (mem_append_left [last] hs)) last.carrier
  refine ⟨_, load_concat h hsaves, rfl, rfl, fun carrier => ?_⟩
  rw [usablePeers]
  by_cases hc : carrier = last.carrier
  · rw [if_neg (by simp [hc]), if_pos hc, ring_concat, if_pos rfl]
    refine (foldl_pushPeer _ []).trans ?_
    -- the last peer leads the ring as well
    cases hpeer : parseSocketAddr last.peer with
    | none => simp [hpeer, recentCap]
    | some addr => simp [hpeer, recentCap, eraseDups_cons]
  · rw [if_pos ⟨hlast, fun heq => hc heq.symm⟩, if_neg hc]

instance encodableChar : Encodable Char := .ofLeftInverse Char.toNat Char.ofNat Char.ofNat_toNat

/-- A connection is stored as so many marks. -/
private def marks : Storage where
  fromStr t := (Encodable.decode t.length).map fun (peer, profile, carrier, recent) =>
    { peer, profile, carrier, recent }
  toStringPretty c :=
    some (replicate (Encodable.encode (c.peer, c.profile, c.carrier, c.recent)) '*')
  write _ text := some text

theorem saves_history_marks :
    ∃ conn, load marks (([Save.mk ['a'] [] ['x'], Save.mk ['b'] [] ['y']] ++
        [Save.mk ['c'] [] ['y']]).foldl (save marks) none) = some conn ∧
      conn.recent = [['c'], ['b']] := by
  have hmarks : marks.RoundTrips := ⟨fun _ conn => ⟨_, rfl, by simp [marks, load]⟩⟩
  obtain ⟨conn, hload, -, hrecent, -⟩ := saves_history hmarks
    [Save.mk ['a'] [] ['x'], Save.mk ['b'] [] ['y']] (Save.mk ['c'] [] ['y']) (by simp)
  exact ⟨conn, hload, hrecent.trans rfl⟩

end Aether.Lastconn
