/-
What the scanners try.

Both lists are put together from the tables of the engine (`mem_buildCandidates`,
`mem_buildWgCandidates`), and a strategy that takes whole ranges tries every host of them.  The
variables in which the app writes a range are not read, so a pinned range is kept exactly if it
covers the tables (`range_honoured_iff`).
-/
import Aether.Proofs.Profile.Launch
import Aether.Scan.Candidates

namespace Aether.Scan

open List

open Engine (Environment)
open Profile (bareDevice)

variable {env : Environment} {draws : Draws} {ports : List UInt16} {ip : IpScan}

/-! ### Lists -/

@[simp] theorem mem_pushNew {α : Type} [DecidableEq α] {out : List α} {x y : α} :
    y ∈ pushNew out x ↔ y ∈ out ∨ y = x := by
  unfold pushNew
  split
  · next hx => exact ⟨.inl, fun h => h.elim id fun heq => heq ▸ hx⟩
  · rw [mem_append, mem_singleton]

@[simp] theorem mem_foldl_pushNew {α : Type} [DecidableEq α] {xs out : List α} {y : α} :
    y ∈ xs.foldl pushNew out ↔ y ∈ out ∨ y ∈ xs := by
  induction xs generalizing out with
  | nil => simp
  | cons x xs ih =>
    rw [foldl_cons, ih, mem_pushNew, mem_cons, or_assoc]

theorem mem_interleave {α : Type} {lists : List (List α)} {x : α} :
    x ∈ interleave lists ↔ ∃ l ∈ lists, x ∈ l := by
  unfold interleave
  rw [mem_flatMap]
  constructor
  · rintro ⟨i, -, hx⟩
    obtain ⟨l, hl, hget⟩ := mem_filterMap.mp hx
    exact ⟨l, hl, mem_of_getElem? hget⟩
  · rintro ⟨l, hl, hx⟩
    obtain ⟨i, hget⟩ := mem_iff_getElem?.mp hx
    obtain ⟨hi, -⟩ := List.getElem?_eq_some_iff.mp hget
    refine ⟨i, mem_range.mpr ?_, mem_filterMap.mpr ⟨l, hl, hget⟩⟩
    exact Nat.lt_of_lt_of_le hi (le_max?_getD_of_mem (mem_map_of_mem hl))

@[simp] theorem mem_prioritize {all first : List String} {entry : String} :
    entry ∈ prioritize env all first ↔ entry ∈ all := by
  unfold prioritize
  split
  · rw [mem_foldl_pushNew, mem_filter, contains_iff_mem]
    exact ⟨fun h => h.elim And.right id, .inr⟩
  · exact Iff.rfl

theorem mem_chooseOffsets {usable want : Nat} {chosen result drawn : List Nat} (hpos : 0 < usable)
    (hchosen : ∀ off ∈ chosen, 1 ≤ off ∧ off ≤ usable)
    (h : chooseOffsets usable want chosen drawn = some result) :
    ∀ off ∈ result, 1 ≤ off ∧ off ≤ usable := by
  induction drawn generalizing chosen with
  | nil =>
    unfold chooseOffsets at h
    split at h
    · exact Option.some.inj h ▸ hchosen
    · exact nomatch h
  | cons draw drawn ih =>
    unfold chooseOffsets at h
    split at h
    · exact Option.some.inj h ▸ hchosen
    · refine ih ?_ h
      have hlt := Nat.mod_lt draw hpos
      split
      · exact hchosen
      · rw [forall_mem_append]
        exact ⟨hchosen, by simp; omega⟩

/-- A sample is taken from the hosts of the range. -/
theorem sampleCidrV4_subset {cidr : Text} {n : Nat} {drawn : List Nat} {sample : List Ipv4Addr}
    {base : Nat} (hcidr : parseCidrV4 cidr = some (base, 24))
    (h : sampleCidrV4 cidr n drawn = some sample) : ∀ a ∈ sample, a ∈ enumerateCidrV4 cidr := by
  unfold sampleCidrV4 at h
  rw [hcidr] at h
  obtain ⟨offsets, hoffsets, rfl⟩ := Option.map_eq_some_iff.mp h
  intro a ha
  obtain ⟨off, hoff, rfl⟩ := mem_map.mp ha
  have hrange : 1 ≤ off ∧ off ≤ 254 := mem_chooseOffsets (by decide) (by simp) hoffsets off hoff
  unfold enumerateCidrV4
  rw [hcidr]
  refine mem_map_of_mem (mem_range'_1.mpr ?_)
  omega

/-! ### The hosts of the tables -/

/-- A host of one of the ranges that the engine comes with. -/
def TableHost (a : Ipv4Addr) : Prop :=
  ∃ c ∈ masqueCidrsV4Table, a ∈ enumerateCidrV4 c.toList

theorem parseCidrV4_table {c : String} (h : c ∈ masqueCidrsV4Table) :
    ∃ base, parseCidrV4 c.toList = some (base, 24) := by
  have hall : (masqueCidrsV4Table.all fun c =>
      (parseCidrV4 c.toList).any fun range => range.2 == 24) = true := by decide +kernel
  obtain ⟨range, hrange, hlen⟩ := (Option.any_eq_true _ _).mp (all_eq_true.mp hall c h)
  obtain ⟨base, len⟩ := range
  obtain rfl := beq_iff_eq.mp hlen
  exact ⟨base, hrange⟩

/-- The ranges of the WireGuard scanner are ranges of the other one. -/
theorem wgPrefixes_subset {c : String} (h : c ∈ wgPrefixesV4Table) : c ∈ masqueCidrsV4Table := by
  have hall : (wgPrefixesV4Table.all fun c => masqueCidrsV4Table.contains c) = true := by decide
  exact contains_iff_mem.mp (all_eq_true.mp hall c h)

/-- The seeds of both scanners are hosts of these ranges. -/
theorem tableHost_of_seed {s : String} (h : s ∈ masqueSeeds ++ wgSeedsV4Table) {a : Ipv4Addr}
    (ha : parseIpv4 s.toList = some a) : TableHost a := by
  have hall : ((masqueSeeds ++ wgSeedsV4Table).all fun s => (parseIpv4 s.toList).all fun a =>
      masqueCidrsV4Table.any fun c => (enumerateCidrV4 c.toList).contains a) = true := by
    decide +kernel
  have hseed := all_eq_true.mp hall s h
  rw [ha, Option.all_some] at hseed
  obtain ⟨c, hc, hmem⟩ := any_eq_true.mp hseed
  exact ⟨c, hc, contains_iff_mem.mp hmem⟩

/-- Every list that is built comes from a range. -/
theorem mem_of_mapM {α β : Type} {f : α → Option β} {l : List α} {ys : List β}
    (h : l.mapM f = some ys) : ∀ y ∈ ys, ∃ x ∈ l, f x = some y := by
  induction l generalizing ys with
  | nil =>
    obtain rfl := Option.some.inj h
    exact fun y hy => absurd hy not_mem_nil
  | cons x l ih =>
    rw [mapM_cons] at h
    obtain ⟨z, hz, h⟩ := Option.bind_eq_some_iff.mp h
    obtain ⟨zs, hzs, h⟩ := Option.bind_eq_some_iff.mp h
    obtain rfl := Option.some.inj h
    rw [forall_mem_cons]
    refine ⟨⟨x, mem_cons_self, hz⟩, fun y hy => ?_⟩
    obtain ⟨x', hx', hy'⟩ := ih hzs y hy
    exact ⟨x', mem_cons_of_mem x hx', hy'⟩

variable {st : Strategy} {out : List (IpAddr × UInt16)}

theorem tableHost_of_hostsV4 {cidrs : List String} {hosts : List (List Ipv4Addr)}
    (hcidrs : ∀ c ∈ cidrs, c ∈ masqueCidrsV4Table) (h : hostsV4 .v4 st draws cidrs = some hosts)
    {a : Ipv4Addr} (ha : a ∈ interleave hosts) : TableHost a := by
  obtain ⟨l, hl, ha⟩ := mem_interleave.mp ha
  unfold hostsV4 at h
  rw [if_pos (show IpScan.v4.wantV4 = true from rfl)] at h
  obtain ⟨c, hc, hbuilt⟩ := mem_of_mapM h l hl
  refine ⟨c, hcidrs c hc, ?_⟩
  split at hbuilt
  · exact Option.some.inj hbuilt ▸ ha
  · obtain ⟨base, hbase⟩ := parseCidrV4_table (hcidrs c hc)
    exact sampleCidrV4_subset hbase hbuilt a ha

/-- Whole ranges need no draws. -/
theorem hostsV4_full (ip : IpScan) (n : Nat) (draws : Draws) (cidrs : List String) :
    hostsV4 ip ⟨true, n⟩ draws cidrs =
      some (if ip.wantV4 then cidrs.map fun c => enumerateCidrV4 c.toList else []) := by
  unfold hostsV4
  by_cases hip : ip.wantV4 = true
  · rw [if_pos hip, if_pos hip]
    induction cidrs with
    | nil => rfl
    | cons c cidrs ih =>
      rw [mapM_cons, ih]
      rfl
  · rw [if_neg hip, if_neg hip]

/-! ### What is tried -/

theorem tableHost_of_mem_seeds {table : List String}
    (htable : ∀ s ∈ table, s ∈ masqueSeeds ++ wgSeedsV4Table) {x : IpAddr}
    (hx : x ∈ table.filterMap fun s => (parseIpv4 s.toList).map IpAddr.v4) :
    ∃ a, x = .v4 a ∧ TableHost a := by
  obtain ⟨s, hs, hparse⟩ := mem_filterMap.mp hx
  obtain ⟨a, ha, rfl⟩ := Option.map_eq_some_iff.mp hparse
  exact ⟨a, rfl, tableHost_of_seed (htable s hs) ha⟩

/-- An IPv4 scan for MASQUE tries hosts of the tables. -/
theorem tableHost_of_candidate (h : buildCandidates env draws st ports .v4 = some out) :
    ∀ c ∈ out, ∃ a, c.1 = .v4 a ∧ TableHost a := by
  have hseeds : ∀ x ∈ masqueSeeds.filterMap fun s => (parseIpv4 s.toList).map IpAddr.v4,
      ∃ a, x = .v4 a ∧ TableHost a := fun x hx =>
    tableHost_of_mem_seeds (fun s hs => mem_append_left _ hs) hx
  unfold buildCandidates at h
  obtain ⟨hosts, hhosts, h⟩ := Option.bind_eq_some_iff.mp h
  obtain rfl := Option.some.inj h
  simp only [IpScan.wantV4, IpScan.wantV6, if_true, Bool.false_eq_true, if_false,
    append_nil]
  intro c hc
  obtain hc | hc := mem_foldl_pushNew.mp hc
  · exact absurd hc not_mem_nil
  · obtain hc | hc := mem_append.mp hc
    · obtain ⟨x, hx, rfl⟩ := mem_map.mp hc
      obtain hx | hx := mem_append.mp hx
      · exact hseeds x hx
      · obtain ⟨a, ha, rfl⟩ := mem_map.mp hx
        exact ⟨a, rfl, tableHost_of_hostsV4 (fun c hc => mem_prioritize.mp hc) hhosts ha⟩
    · obtain ⟨x, hx, hport⟩ := mem_flatMap.mp hc
      obtain ⟨port, -, rfl⟩ := mem_map.mp hport
      exact hseeds x hx

/-- Whole ranges are tried whole, and the seeds of IPv6 with them. -/
theorem candidates_thorough (env : Environment) (draws : Draws) (ip : IpScan) :
    ∃ out, buildCandidates env draws ScanMode.thorough.strategy [443] ip = some out ∧
      (ip.wantV4 = true → ∀ a, TableHost a → (.v4 a, 443) ∈ out) ∧
      (ip.wantV6 = true → ∃ a, (.v6 a, 443) ∈ out) := by
  unfold buildCandidates
  simp only [ScanMode.strategy, hostsV4_full, Option.bind_eq_bind, Option.bind_some]
  refine ⟨_, rfl, ?_, ?_⟩
  · rintro hip a ⟨c, hc, ha⟩
    have hmem : a ∈ interleave ((prioritize env masqueCidrsV4Table masqueZtCidrsV4).map
        fun c => enumerateCidrV4 c.toList) :=
      mem_interleave.mpr ⟨_, mem_map_of_mem (mem_prioritize.mpr hc), ha⟩
    simp only [mem_foldl_pushNew, mem_append, hip, if_true, mem_map]
    exact .inr (.inl (.inl (.inl ⟨.v4 a, .inr ⟨a, hmem, rfl⟩, rfl⟩)))
  · intro hip
    have hseed : (IpAddr.v6 0x2606470000d0000000000000a29fc602) ∈
        masqueSeedsV6.filterMap fun s => (parseIpv6 s.toList).map IpAddr.v6 := by decide +kernel
    refine ⟨0x2606470000d0000000000000a29fc602, ?_⟩
    simp only [mem_foldl_pushNew, mem_append, hip, if_true, mem_map]
    exact .inr (.inl (.inl (.inr ⟨_, .inl hseed, rfl⟩)))

/-- An IPv4 scan for WireGuard tries hosts of the same tables. -/
theorem tableHost_of_wgCandidate {st : WgStrategy} {excluded : IpAddr × UInt16 → Bool}
    (h : buildWgCandidates env draws st ports .v4 excluded = some out) :
    ∀ c ∈ out, ∃ a, c.1 = .v4 a ∧ TableHost a := by
  unfold buildWgCandidates at h
  obtain ⟨hosts, hhosts, h⟩ := Option.bind_eq_some_iff.mp h
  obtain rfl := Option.some.inj h
  simp only [IpScan.wantV4, IpScan.wantV6, if_true, Bool.false_eq_true, if_false,
    append_nil]
  intro c hc
  obtain hc | hc := mem_foldl_pushNew.mp hc
  · exact absurd hc not_mem_nil
  · obtain ⟨wave, -, hwave⟩ := mem_flatMap.mp (mem_filter.mp hc).1
    obtain ⟨⟨x, idx⟩, hx, rfl⟩ := mem_map.mp hwave
    obtain hx | hx := mem_foldl_pushNew.mp (fst_mem_of_mem_zipIdx hx)
    · exact absurd hx not_mem_nil
    · obtain hx | hx := mem_append.mp hx
      · exact tableHost_of_mem_seeds (fun s hs => mem_append_right _ (mem_prioritize.mp hs)) hx
      · obtain ⟨a, ha, rfl⟩ := mem_map.mp hx
        refine ⟨a, rfl, tableHost_of_hostsV4 (fun c hc => ?_) hhosts ha⟩
        exact wgPrefixes_subset (mem_prioritize.mp hc)

/-! ### A pinned range -/

/-- An IPv4 block of at most twelve host bits. -/
structure Block where
  addr : Ipv4Addr
  prefixLen : Nat
  small : 20 ≤ prefixLen
  le : prefixLen ≤ 32

def Block.contains (b : Block) (a : IpAddr) : Bool := (IpNet.v4 b.addr b.prefixLen).contains a

def readBlock (t : Text) : Option Block :=
  match parseCidrV4 t with
  | none => none
  | some (base, len) =>
    if h : 20 ≤ len ∧ len ≤ 32 then some ⟨BitVec.ofNat 32 base, len, h.1, h.2⟩ else none

/-- The blocks that a profile pins. -/
def pinnedBlocks (p : Profile.ConnectionProfile) : List Block :=
  if p.endpointMode = .manualRange then
    (Profile.splitAny [','] p.manualRange).filterMap fun e => readBlock (LanGuard.trim e)
  else []

/-- The address lies in one of the blocks. -/
def InBlocks (blocks : List Block) (a : IpAddr) : Prop := ∃ b ∈ blocks, b.contains a = true

theorem not_inBlocks_v6 (blocks : List Block) (a : Ipv6Addr) : ¬ InBlocks blocks (.v6 a) := by
  rintro ⟨b, -, hcontains⟩
  exact absurd hcontains Bool.false_ne_true

/-- Both scanners keep to the blocks, whatever the strategy, the ports and the draws. -/
structure RangeHonoured (env : Environment) (ip : IpScan) (blocks : List Block) : Prop where
  masque : ∀ draws st ports out, buildCandidates env draws st ports ip = some out →
    ∀ c ∈ out, InBlocks blocks c.1
  wireguard : ∀ draws st ports excluded out,
    buildWgCandidates env draws st ports ip excluded = some out → ∀ c ∈ out, InBlocks blocks c.1

/-- **A pinned range is kept exactly if the scan is for IPv4 and the range covers every host of the
engine's own ranges.** -/
theorem range_honoured_iff (D : Profile.Device) (p : Profile.ConnectionProfile) (ip : IpScan) :
    ∃ env, D.launch p = .ok (.run, env) ∧
      (RangeHonoured env ip (pinnedBlocks p) ↔
        ip = .v4 ∧ ∀ c ∈ masqueCidrsV4Table, ∀ a ∈ enumerateCidrV4 c.toList,
          InBlocks (pinnedBlocks p) (.v4 a)) := by
  obtain ⟨env, hlaunch⟩ := D.launches p
  refine ⟨env, hlaunch, ?_⟩
  constructor
  · intro hhonoured
    obtain ⟨out, hout, hv4, hv6⟩ := candidates_thorough env ⟨fun _ => [], fun _ _ => (0, 0)⟩ ip
    have hin := hhonoured.masque _ _ _ _ hout
    have hwant6 : ip.wantV6 = false := by
      rw [Bool.eq_false_iff]
      intro hwant
      obtain ⟨a, ha⟩ := hv6 hwant
      exact not_inBlocks_v6 _ a (hin _ ha)
    obtain rfl : ip = .v4 := by
      cases ip with
      | v4 => rfl
      | v6 | both => exact nomatch hwant6
    exact ⟨rfl, fun c hc a ha => hin _ (hv4 rfl a ⟨c, hc, ha⟩)⟩
  · rintro ⟨rfl, hcover⟩
    have hhost : ∀ x, (∃ a, x = IpAddr.v4 a ∧ TableHost a) → InBlocks (pinnedBlocks p) x := by
      rintro x ⟨a, rfl, c, hc, ha⟩
      exact hcover c hc a ha
    refine ⟨fun draws st ports out hout c hc => ?_, fun draws st ports excluded out hout c hc => ?_⟩
    · exact hhost c.1 (tableHost_of_candidate hout c hc)
    · exact hhost c.1 (tableHost_of_wgCandidate hout c hc)

/-- A profile that pins a range. -/
def pinned (range : String) : Profile.ConnectionProfile where
  endpointMode := .manualRange
  manualRange := range.toList

/-- A host of the engine's own ranges is tried, with a range pinned that does not hold it. -/
theorem pinned_range_ignored :
    ((bareDevice.launch (pinned "10.0.0.0/24")).toOption.bind fun r =>
        buildCandidates r.2 ⟨fun _ => [], fun _ _ => (0, 0)⟩ ScanMode.thorough.strategy [443]
          .v4).any
      (·.contains (.v4 0xa29fc401, 443)) = true ∧
    ((pinnedBlocks (pinned "10.0.0.0/24")).map fun b => (b.addr, b.prefixLen)) =
      [(0x0a000000, 24)] ∧
    ((pinnedBlocks (pinned "10.0.0.0/24")).any fun b => b.contains (.v4 0xa29fc401)) = false := by
  refine ⟨?_, by decide +kernel, by decide +kernel⟩
  obtain ⟨env, hlaunch⟩ := bareDevice.launches (pinned "10.0.0.0/24")
  obtain ⟨out, hout, hv4, -⟩ :=
    candidates_thorough env ⟨fun _ => [], fun _ _ => (0, 0)⟩ .v4
  have hseed : TableHost 0xa29fc401 :=
    tableHost_of_seed (show "162.159.196.1" ∈ masqueSeeds ++ wgSeedsV4Table by decide)
      (by decide +kernel)
  have hmem := contains_iff_mem.mpr (hv4 rfl _ hseed)
  rw [hlaunch]
  show (buildCandidates env _ _ _ _).any _ = true
  rw [hout, Option.any_some]
  exact hmem

end Aether.Scan
