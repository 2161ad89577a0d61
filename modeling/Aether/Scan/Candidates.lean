/-
Which addresses the two scanners try: `build_candidates` of `prober.rs` and
`build_wg_candidates` of `wg_prober.rs`.

The ranges are tables of the engine.  A range is enumerated or sampled; the numbers that the random
generator draws are an argument, and a sample for which they do not suffice is not finished.  Of a
strategy only what the builders read is kept.
-/
import Aether.Engine.Cli

namespace Aether.Scan

open Engine (Environment)

/-! ### Tables -/

def masqueCidrsV4Table : List String :=
  ["162.159.196.0/24", "162.159.195.0/24", "162.159.192.0/24", "162.159.193.0/24",
    "162.159.204.0/24", "162.159.197.0/24", "162.159.198.0/24", "172.65.251.0/24",
    "188.114.96.0/24", "188.114.97.0/24", "188.114.98.0/24", "188.114.99.0/24",
    "162.159.36.0/24", "162.159.46.0/24"]

def masqueSeeds : List String :=
  ["162.159.196.1", "162.159.195.1", "162.159.192.1", "162.159.197.3", "162.159.197.1",
    "162.159.198.2", "162.159.198.1", "162.159.193.1"]

def masqueCidrsV6Table : List String :=
  ["2606:4700:d0::/48", "2606:4700:102::/48", "2606:4700:d1::/48"]

def masqueZtCidrsV4 : List String := ["162.159.197.0/24"]

def masqueZtCidrsV6 : List String := ["2606:4700:102::/48"]

def masqueSeedsV6 : List String :=
  ["2606:4700:d0::a29f:c602", "2606:4700:d1::a29f:c602", "2606:4700:d0::a29f:c601",
    "2606:4700:d0::a29f:c001"]

def wgPrefixesV4Table : List String :=
  ["162.159.192.0/24", "162.159.195.0/24", "188.114.96.0/24", "188.114.97.0/24",
    "188.114.98.0/24", "188.114.99.0/24", "162.159.193.0/24"]

def wgPrefixesV6Table : List String :=
  ["2606:4700:d0::/64", "2606:4700:d1::/64", "2606:4700:100::/48"]

def wgZtPrefixesV4 : List String := ["162.159.193.0/24"]

def wgZtPrefixesV6 : List String := ["2606:4700:100::/48"]

def wgSeedsV4Table : List String :=
  ["162.159.192.1", "162.159.195.1", "188.114.96.1", "188.114.97.1", "162.159.193.1"]

def wgSeedsV6 : List String :=
  ["2606:4700:d0::a29f:c001", "2606:4700:d1::a29f:c001", "2606:4700:d0::a29f:c301",
    "2606:4700:d0::bc72:6001"]

/-- `insert` into the set of what has been seen, and `push`. -/
def pushNew {α : Type} [DecidableEq α] (out : List α) (x : α) : List α :=
  if x ∈ out then out else out ++ [x]

/-- A team is set. -/
def zeroTrustMode (env : Environment) : Bool :=
  match env "AETHER_TEAM" with
  | some value => Text.trim value ≠ []
  | none => false

/-- With a team, the entries of `first` come first. -/
def prioritize (env : Environment) (all first : List String) : List String :=
  if zeroTrustMode env then
    all.foldl pushNew (first.filter all.contains)
  else all

/-! ### Strategies -/

inductive IpScan
  | v4 | v6 | both
deriving DecidableEq, Repr

def IpScan.wantV4 : IpScan → Bool
  | .v4 | .both => true
  | .v6 => false

def IpScan.wantV6 : IpScan → Bool
  | .v6 | .both => true
  | .v4 => false

structure Strategy where
  fullSubnet : Bool
  samplePerCidr : Nat
deriving DecidableEq, Repr

structure WgStrategy extends Strategy where
  poolPortWaves : Nat
deriving DecidableEq, Repr

inductive ScanMode
  | turbo | balanced | thorough | verified | ironclad
deriving DecidableEq, Repr

def ScanMode.strategy : ScanMode → Strategy
  | .turbo => ⟨false, 64⟩
  | .balanced => ⟨false, 140⟩
  | .thorough => ⟨true, 0⟩
  | .verified => ⟨false, 48⟩
  | .ironclad => ⟨false, 140⟩

/-! ### Ranges -/

/-- `parse::<Ipv4Addr>`. -/
def parseIpv4 (t : Text) : Option Ipv4Addr :=
  match readIpv4Addr t with
  | some (ip, []) => some ip
  | _ => none

/-- `parse::<Ipv6Addr>`. -/
def parseIpv6 (t : Text) : Option Ipv6Addr :=
  match readIpv6Addr t with
  | some (ip, []) => some ip
  | _ => none

def parseCidrV4 (cidr : Text) : Option (Nat × Nat) := do
  let (ip, len) ← Text.splitOnce ['/'] cidr
  let ip ← parseIpv4 ip
  let len ← Text.parseUnsigned 256 len
  some (ip.toNat, len)

def parseCidrV6 (cidr : Text) : Option (Nat × Nat) := do
  let (ip, len) ← Text.splitOnce ['/'] cidr
  let ip ← parseIpv6 ip
  let len ← Text.parseUnsigned 256 len
  some (ip.toNat, len)

/-- The hosts of a range but for its first and last address; of a range that is too large, none. -/
def enumerateCidrV4 (cidr : Text) : List Ipv4Addr :=
  match parseCidrV4 cidr with
  | none => []
  | some (base, len) =>
    let hostBits := 32 - len
    if hostBits = 0 then [BitVec.ofNat 32 base]
    else if 12 < hostBits then []
    else (List.range' 1 (2 ^ hostBits - 2)).map fun off => BitVec.ofNat 32 (base + off)

/-- The loop of `sample_cidr_v4`: draws until `want` offsets have been chosen. -/
def chooseOffsets (usable want : Nat) : (chosen : List Nat) → (draws : List Nat) → Option (List Nat)
  | chosen, [] => if want ≤ chosen.length then some chosen else none
  | chosen, draw :: draws =>
    if want ≤ chosen.length then some chosen
    else
      let off := 1 + draw % usable
      chooseOffsets usable want (if off ∈ chosen then chosen else chosen ++ [off]) draws

def sampleCidrV4 (cidr : Text) (n : Nat) (draws : List Nat) : Option (List Ipv4Addr) :=
  match parseCidrV4 cidr with
  | none => some []
  | some (base, len) =>
    let hostBits := 32 - len
    let size := if 32 ≤ hostBits then 2 ^ 32 - 1 else 2 ^ hostBits
    if size ≤ 2 then some [BitVec.ofNat 32 base]
    else
      let usable := size - 2
      (chooseOffsets usable (min (n % 2 ^ 32) usable) [] draws).map fun offsets =>
        offsets.map fun off => BitVec.ofNat 32 (base + off)

/-- An IPv6 range holds addresses of IPv4 ranges in its last bits.  A draw picks the range and the
host. -/
def sampleCidrV6 (cidr : Text) (n : Nat) (v4Cidrs : List String) (draws : Nat → Nat × Nat) :
    List Ipv6Addr :=
  match parseCidrV6 cidr with
  | none => []
  | some (base, len) =>
    if 128 - len = 0 then [BitVec.ofNat 128 base]
    else
      let v4 := v4Cidrs.filterMap fun c => parseCidrV4 c.toList
      (List.range n).map fun i =>
        let (pick, random) := draws i
        let embedded :=
          match v4[pick % v4.length]? with
          | none => random % 2 ^ 32
          | some (b, p) =>
            let hostBits := 32 - p
            b ||| (if hostBits = 0 then 0 else random % 2 ^ hostBits)
        BitVec.ofNat 128 (base ||| embedded)

/-- What the random generator answers, for each range. -/
structure Draws where
  v4 : String → List Nat
  v6 : String → Nat → Nat × Nat

/-! ### Candidates -/

/-- The first of every list, the second of every list, and so on. -/
def interleave {α : Type} (lists : List (List α)) : List α :=
  let maxLen := (lists.map List.length).max?.getD 0
  (List.range maxLen).flatMap fun i => lists.filterMap (·[i]?)

/-- The hosts of every range, as a strategy wants them, for a scan that wants IPv4. -/
def hostsV4 (ip : IpScan) (st : Strategy) (draws : Draws) (cidrs : List String) :
    Option (List (List Ipv4Addr)) :=
  if ip.wantV4 then
    cidrs.mapM fun c =>
      if st.fullSubnet then some (enumerateCidrV4 c.toList)
      else sampleCidrV4 c.toList st.samplePerCidr (draws.v4 c)
  else some []

def buildCandidates (env : Environment) (draws : Draws) (st : Strategy) (ports : List UInt16)
    (ip : IpScan) : Option (List (IpAddr × UInt16)) := do
  let primary := ports.head?.getD 443
  let seeds := masqueSeeds.filterMap fun s => (parseIpv4 s.toList).map IpAddr.v4
  let seeds6 := masqueSeedsV6.filterMap fun s => (parseIpv6 s.toList).map IpAddr.v6
  let secondary := fun (a : IpAddr) => (ports.filter (· ≠ primary)).map fun port => (a, port)
  let cidrHosts ← hostsV4 ip st draws (prioritize env masqueCidrsV4Table masqueZtCidrsV4)
  let per := if st.samplePerCidr = 0 then 96 else st.samplePerCidr
  let cidr6 := (prioritize env masqueCidrsV6Table masqueZtCidrsV6).map fun c =>
    sampleCidrV6 c.toList per masqueCidrsV4Table (draws.v6 c)
  let first4 := seeds ++ (interleave cidrHosts).map IpAddr.v4
  let first6 := seeds6 ++ (interleave cidr6).map IpAddr.v6
  let tried :=
    (if ip.wantV4 then first4.map fun a => (a, primary) else []) ++
    (if ip.wantV6 then first6.map fun a => (a, primary) else []) ++
    (if ip.wantV4 then seeds.flatMap secondary else []) ++
    (if ip.wantV6 then seeds6.flatMap secondary else [])
  some (tried.foldl pushNew [])

def buildWgCandidates (env : Environment) (draws : Draws) (st : WgStrategy) (ports : List UInt16)
    (ip : IpScan) (excluded : IpAddr × UInt16 → Bool) : Option (List (IpAddr × UInt16)) := do
  let deduped := ports.foldl pushNew []
  let ports := if deduped = [] then [2408] else deduped
  let seeds := (prioritize env wgSeedsV4Table ["162.159.193.1"]).filterMap fun s =>
    (parseIpv4 s.toList).map IpAddr.v4
  let seeds6 := wgSeedsV6.filterMap fun s => (parseIpv6 s.toList).map IpAddr.v6
  let cidrHosts ← hostsV4 ip st.toStrategy draws (prioritize env wgPrefixesV4Table wgZtPrefixesV4)
  let per := if st.samplePerCidr = 0 then 80 else st.samplePerCidr
  let cidr6 := (prioritize env wgPrefixesV6Table wgZtPrefixesV6).map fun c =>
    sampleCidrV6 c.toList per wgPrefixesV4Table (draws.v6 c)
  let anchors := (if ip.wantV4 then seeds else []) ++ (if ip.wantV6 then seeds6 else [])
  let pool :=
    (if ip.wantV4 then (interleave cidrHosts).map IpAddr.v4 else []) ++
    (if ip.wantV6 then (interleave cidr6).map IpAddr.v6 else [])
  let ips := (anchors ++ pool).foldl pushNew []
  let tried := (List.range (max st.poolPortWaves 1)).flatMap fun wave =>
    ips.zipIdx.map fun (a, idx) => (a, ports.getD ((idx + wave) % ports.length) 0)
  some ((tried.filter fun c => !excluded c).foldl pushNew [])

end Aether.Scan
