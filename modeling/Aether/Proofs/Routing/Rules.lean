/-
What the routing decision depends on.

A rule looks at the port, at the address or at the name of a connection, and never at two of
them.  Which rules tell two spellings of one destination apart is therefore a matter of their
kinds: domain rules see a literal that was sent as a name and address rules see the address, a
block holds an IPv4 address or the IPv6 address that stands for it, and of the domain rules it is
the text that says whether a trailing dot makes a difference.

A connection that announces a name is decided by the name first.  Blocking comes before direct
within each of the two decisions only, so a direct rule for the name hides a block rule for the
address.
-/
import Aether.Proofs.Net.Grammar
import Aether.Routing.Rules

namespace Aether

open Routing

variable {lower : Text → Text} {set : RuleSet} {port : Nat}

/-! ### Addresses and names -/

/-- An IPv4 address inside an IPv6 one is private to no rule. -/
theorem isPrivate_mapped (ip : Ipv4Addr) : isPrivate (.v6 ip.toIpv6Mapped) = false := by
  have hnat : ip.toIpv6Mapped.toNat = 0xffff * 2 ^ 32 + ip.toNat := by
    rw [Ipv4Addr.toIpv6Mapped, BitVec.toNat_ofNat, Nat.mod_eq_of_lt]
    omega
  have hseg : Ipv6Addr.segment ip.toIpv6Mapped 0 = 0 := by
    rw [Ipv6Addr.segment, hnat]
    omega
  simp only [isPrivate, hseg, hnat]
  simp
  omega

variable {name : Text} {addr : IpAddr} {rules : List Matcher} {target : Socks.Target}

theorem parseIpAddr_not_localhost (h : parseIpAddr name = some addr) :
    Text.eqIgnoreAsciiCase name "localhost".toList = false := by
  cases name with
  | nil => rfl
  | cons c rest =>
    by_contra hlocal
    have hc : c.toLower = 'l' := by
      simp [Text.eqIgnoreAsciiCase] at hlocal
      exact hlocal.1
    have hl : c = 'l' ∨ c = 'L' := by
      unfold Char.toLower at hc
      split at hc
      · have hval : c.val = 76 := by
          have h108 : c.val + 32 = 108 := congrArg Char.val hc
          grind
        exact Or.inr (Char.ext hval)
      · exact Or.inl hc
    rcases hl with rfl | rfl
    all_goals
      rw [parseIpAddr_eq_none List.mem_cons_self (by decide)] at h
      cases h

/-! ### One decision -/

/-- Some rule of the list matches the host at the port. -/
def Routing.Matched (lower : Text → Text) (rules : List Matcher) (host : Host) (port : Nat) :
    Prop :=
  ∃ rule ∈ rules, rule.matches lower host port = true

theorem Routing.matchesAny_iff {host : Host} :
    matchesAny lower rules host port = true ↔ Matched lower rules host port := by
  rw [matchesAny, List.any_eq_true, Matched]

/-- The three decisions and when each is taken. -/
theorem Routing.RuleSet.decide_cases (lower : Text → Text) (set : RuleSet) (host : Host)
    (port : Nat) :
    (Matched lower set.block host port ∧ set.decide lower host port = .block) ∨
    (¬ Matched lower set.block host port ∧ Matched lower set.direct host port ∧
      set.decide lower host port = .direct) ∨
    (¬ Matched lower set.block host port ∧ ¬ Matched lower set.direct host port ∧
      set.decide lower host port = .proxy) := by
  simp only [← matchesAny_iff]
  unfold RuleSet.decide
  split
  · next hb => exact Or.inl ⟨hb, rfl⟩
  · next hb =>
    split
    · next hd => exact Or.inr (Or.inl ⟨hb, hd, rfl⟩)
    · next hd => exact Or.inr (Or.inr ⟨hb, hd, rfl⟩)

theorem Routing.RuleSet.decide_eq_block_iff {host : Host} :
    set.decide lower host port = .block ↔ Matched lower set.block host port := by
  rcases set.decide_cases lower host port with ⟨hb, h⟩ | ⟨hb, -, h⟩ | ⟨hb, -, h⟩ <;> simp [h, hb]

theorem Routing.RuleSet.decide_eq_direct_iff {host : Host} :
    set.decide lower host port = .direct ↔
      ¬ Matched lower set.block host port ∧ Matched lower set.direct host port := by
  rcases set.decide_cases lower host port with ⟨hb, h⟩ | ⟨hb, hd, h⟩ | ⟨hb, hd, h⟩ <;>
    simp [*]

/-! ### The name and the address of a connection -/

/-- Some rule of the list matches the announced name or the target. -/
def Socks.Known (lower : Text → Text) (rules : List Matcher) (target : Socks.Target)
    (sniffed : Option Text) (port : Nat) : Prop :=
  Matched lower rules (Socks.hostOf target) port ∨
    ∃ name, sniffed = some name ∧ Matched lower rules (.domain name) port

/-- Block rules come before everything else that is known of a connection. -/
structure Socks.BlockFirst (lower : Text → Text) (set : RuleSet) (target : Socks.Target)
    (sniffed : Option Text) (port : Nat) : Prop where
  block : Socks.decideRoute lower set target sniffed port = .block ↔
    Socks.Known lower set.block target sniffed port
  direct : Socks.decideRoute lower set target sniffed port = .direct →
    ¬ Socks.Known lower set.block target sniffed port ∧
      Socks.Known lower set.direct target sniffed port

theorem Socks.known_none :
    Known lower rules target none port ↔ Matched lower rules (hostOf target) port := by
  simp [Known]

theorem Socks.known_some :
    Known lower rules target (some name) port ↔
      Matched lower rules (hostOf target) port ∨ Matched lower rules (.domain name) port := by
  simp [Known]

/-- A decision on one host alone puts block rules first for that host. -/
theorem Socks.blockFirst_of_decide {sniffed : Option Text} (host : Host)
    (hroute : decideRoute lower set target sniffed port = set.decide lower host port)
    (hblock : Known lower set.block target sniffed port ↔ Matched lower set.block host port)
    (hdirect : Matched lower set.direct host port → Known lower set.direct target sniffed port) :
    BlockFirst lower set target sniffed port := by
  constructor
  · rw [hroute, hblock]
    exact RuleSet.decide_eq_block_iff
  · rw [hroute, hblock]
    exact fun h => (RuleSet.decide_eq_direct_iff.mp h).imp_right hdirect

/-- **Block rules come first unless a direct rule for the announced name hides one for the
target.** -/
theorem Socks.block_first_iff (lower : Text → Text) (set : RuleSet) (target : Socks.Target)
    (sniffed : Option Text) (port : Nat) :
    BlockFirst lower set target sniffed port ↔
      ¬ ∃ name, sniffed = some name ∧ set.decide lower (.domain name) port = .direct ∧
        Matched lower set.block (hostOf target) port := by
  cases sniffed with
  | none =>
    refine iff_of_true (blockFirst_of_decide (hostOf target) rfl known_none known_none.mpr) ?_
    rintro ⟨name, hname, -⟩
    cases hname
  | some name =>
    rcases set.decide_cases lower (.domain name) port with ⟨hb, h⟩ | ⟨hb, hd, h⟩ | ⟨hb, hd, h⟩
    · -- the name is blocked
      refine iff_of_true (blockFirst_of_decide (.domain name) ?_ ?_ ?_) ?_
      · rw [decideRoute, h]
      · rw [known_some]
        exact iff_of_true (Or.inr hb) hb
      · intro hmatched
        exact known_some.mpr (Or.inr hmatched)
      · rintro ⟨name', hname, hdirect, -⟩
        cases hname
        rw [h] at hdirect
        cases hdirect
    · -- the name goes direct, whatever the rules say of the target
      have hroute : decideRoute lower set target (some name) port = .direct := by
        rw [decideRoute, h]
      constructor
      · rintro hfirst ⟨name', -, -, hmatched⟩
        exact (hfirst.direct hroute).1 (Or.inl hmatched)
      · intro hhidden
        have hblock : ¬ Known lower set.block target (some name) port := by
          rw [known_some]
          rintro (hmatched | hmatched)
          · exact hhidden ⟨name, rfl, h, hmatched⟩
          · exact hb hmatched
        refine ⟨?_, fun _ => ⟨hblock, known_some.mpr (Or.inr hd)⟩⟩
        rw [hroute]
        exact iff_of_false (by decide) hblock
    · -- no rule knows the name, and the target decides
      refine iff_of_true (blockFirst_of_decide (hostOf target) ?_ ?_ ?_) ?_
      · rw [decideRoute, h]
      · rw [known_some]
        exact or_iff_left hb
      · intro hmatched
        exact known_some.mpr (Or.inl hmatched)
      · rintro ⟨name', hname, hdirect, -⟩
        cases hname
        rw [h] at hdirect
        cases hdirect

/-- One rule for the address and one for the name. -/
private def hidingRules : RuleSet :=
  { block := [.net (IpNet.v4 0x0a000000 8).contains]
    direct := [.domainSuffix "example.com".toList] }

/-- A private address behind a name that goes direct. -/
theorem Socks.block_rule_hidden :
    ¬ BlockFirst (List.map Char.toLower) hidingRules (.ip (.v4 0x0a000001))
      (some "example.com".toList) 443 := by
  intro hfirst
  have hroute : decideRoute (List.map Char.toLower) hidingRules (.ip (.v4 0x0a000001))
      (some "example.com".toList) 443 = .direct := by decide
  exact (hfirst.direct hroute).1 (Or.inl ⟨_, List.mem_singleton_self _, by decide⟩)

/-! ### Two spellings of one destination -/

/-- Both spellings are caught by the list: by one rule, or by a rule for each. -/
def Routing.Caught (rules : List Matcher) (both first second : Matcher → Prop) : Prop :=
  (∃ rule ∈ rules, both rule) ∨ ((∃ rule ∈ rules, first rule) ∧ ∃ rule ∈ rules, second rule)

/-- No rule of the list is for one spelling alone. -/
def Routing.Untold (rules : List Matcher) (first second : Matcher → Prop) : Prop :=
  ∀ rule ∈ rules, ¬ first rule ∧ ¬ second rule

/-- The rules do not tell two spellings apart: `both` are the rules for either of them, `first` and
`second` those for the one and not for the other. -/
def Routing.RuleSet.Alike (set : RuleSet) (both first second : Matcher → Prop) : Prop :=
  Caught set.block both first second ∨
    (Untold set.block first second ∧
      (Caught set.direct both first second ∨ Untold set.direct first second))

/-- Two hosts are decided alike when both are blocked, or neither is and the direct rules do
not tell them apart. -/
theorem Routing.RuleSet.decide_eq_iff_matched {h₁ h₂ : Host} :
    set.decide lower h₁ port = set.decide lower h₂ port ↔
      (Matched lower set.block h₁ port ↔ Matched lower set.block h₂ port) ∧
        (Matched lower set.block h₁ port ∨
          (Matched lower set.direct h₁ port ↔ Matched lower set.direct h₂ port)) := by
  rcases set.decide_cases lower h₁ port with ⟨hb₁, h⟩ | ⟨hb₁, hd₁, h⟩ | ⟨hb₁, hd₁, h⟩ <;>
    rcases set.decide_cases lower h₂ port with ⟨hb₂, h'⟩ | ⟨hb₂, hd₂, h'⟩ | ⟨hb₂, hd₂, h'⟩ <;>
    rw [h, h'] <;> simp [*]

/-- `both`, `first` and `second` sort the rules of a set by the spellings that they match. -/
structure Routing.Sorts (lower : Text → Text) (set : RuleSet) (h₁ h₂ : Host) (port : Nat)
    (both first second : Matcher → Prop) : Prop where
  first : ∀ rule ∈ set.block ++ set.direct,
    (rule.matches lower h₁ port = true ↔ both rule ∨ first rule)
  second : ∀ rule ∈ set.block ++ set.direct,
    (rule.matches lower h₂ port = true ↔ both rule ∨ second rule)

theorem Routing.matched_iff {P Q : Matcher → Prop} {host : Host}
    (h : ∀ rule ∈ rules, (rule.matches lower host port = true ↔ P rule ∨ Q rule)) :
    Matched lower rules host port ↔ (∃ rule ∈ rules, P rule) ∨ ∃ rule ∈ rules, Q rule := by
  constructor
  · rintro ⟨rule, hmem, hmatch⟩
    rcases (h rule hmem).mp hmatch with hP | hQ
    · exact Or.inl ⟨rule, hmem, hP⟩
    · exact Or.inr ⟨rule, hmem, hQ⟩
  · rintro (⟨rule, hmem, hP⟩ | ⟨rule, hmem, hQ⟩)
    · exact ⟨rule, hmem, (h rule hmem).mpr (Or.inl hP)⟩
    · exact ⟨rule, hmem, (h rule hmem).mpr (Or.inr hQ)⟩

theorem Routing.Sorts.decide_eq_iff {h₁ h₂ : Host} {both first second : Matcher → Prop}
    (h : Sorts lower set h₁ h₂ port both first second) :
    set.decide lower h₁ port = set.decide lower h₂ port ↔ set.Alike both first second := by
  have hcaught : ∀ rules ⊆ set.block ++ set.direct, (Caught rules both first second ↔
      Matched lower rules h₁ port ∧ Matched lower rules h₂ port) := by
    intro rules hsub
    rw [matched_iff fun rule hmem => h.first rule (hsub hmem),
      matched_iff fun rule hmem => h.second rule (hsub hmem)]
    exact or_and_left
  have huntold : ∀ rules ⊆ set.block ++ set.direct, Untold rules first second →
      (Matched lower rules h₁ port ↔ Matched lower rules h₂ port) := by
    intro rules hsub hnone
    refine exists_congr fun rule => and_congr_right fun hmem => ?_
    rw [h.first rule (hsub hmem), h.second rule (hsub hmem), or_iff_left (hnone rule hmem).1,
      or_iff_left (hnone rule hmem).2]
  have hnone : ∀ rules ⊆ set.block ++ set.direct, ¬ Matched lower rules h₁ port →
      ¬ Matched lower rules h₂ port → Untold rules first second := by
    intro rules hsub h₁ h₂ rule hmem
    refine ⟨fun hfirst => h₁ ⟨rule, hmem, ?_⟩, fun hsecond => h₂ ⟨rule, hmem, ?_⟩⟩
    · exact (h.first rule (hsub hmem)).mpr (Or.inr hfirst)
    · exact (h.second rule (hsub hmem)).mpr (Or.inr hsecond)
  have hblock := List.subset_append_left set.block set.direct
  have hdirect := List.subset_append_right set.block set.direct
  rw [RuleSet.decide_eq_iff_matched, RuleSet.Alike, hcaught _ hblock, hcaught _ hdirect]
  constructor
  · rintro ⟨hsame, hrest⟩
    by_cases hb : Matched lower set.block h₁ port
    · exact Or.inl ⟨hb, hsame.mp hb⟩
    · refine Or.inr ⟨hnone _ hblock hb (mt hsame.mpr hb), ?_⟩
      have hdirects := hrest.resolve_left hb
      by_cases hd : Matched lower set.direct h₁ port
      · exact Or.inl ⟨hd, hdirects.mp hd⟩
      · exact Or.inr (hnone _ hdirect hd (mt hdirects.mpr hd))
  · rintro (⟨hb₁, hb₂⟩ | ⟨hfree, hrest⟩)
    · exact ⟨iff_of_true hb₁ hb₂, Or.inl hb₁⟩
    · refine ⟨huntold _ hblock hfree, Or.inr ?_⟩
      rcases hrest with ⟨hd₁, hd₂⟩ | hfree'
      · exact iff_of_true hd₁ hd₂
      · exact huntold _ hdirect hfree'

/-- No rule of the set is a regular expression. -/
def Routing.RuleSet.NoRegex (set : RuleSet) : Prop :=
  ∀ rule ∈ set.block ++ set.direct, ∀ isMatch, rule ≠ .domainRegex isMatch

/-- What is assumed of `to_lowercase`. -/
structure Routing.Lowers (lower : Text → Text) : Prop where
  ascii : ∀ s, (∀ c ∈ s, c.toNat < 128) → lower s = s.map Char.toLower
  case : ∀ s s', Text.eqIgnoreAsciiCase s s' = true → lower s = lower s'
  dot : ∀ s, lower (s ++ ['.']) = lower s ++ ['.']

theorem Routing.lowers_toLower : Lowers (List.map Char.toLower) where
  ascii _ _ := rfl
  case _ _ h := by simpa [Text.eqIgnoreAsciiCase] using h
  dot _ := List.map_append

namespace Routing.Matcher

/-- The port rules that cover a port. -/
def CoversPort (port : Nat) : Matcher → Prop
  | .ports lo hi => lo ≤ port ∧ port ≤ hi
  | _ => False

/-! #### A literal that is sent as a name -/

/-- `t` is the name `s` or one below it. -/
def Covers (s t : Text) : Prop := t = s ∨ '.' :: s <:+ t

/-- The domain rules whose text is the literal, a dotted end of it or, for a keyword, a part. -/
def NamesLiteral (literal : Text) : Matcher → Prop
  | .domainSuffix suffix => Covers suffix (literal.map Char.toLower)
  | .domainFull full => Text.eqIgnoreAsciiCase literal full = true
  | .domainKeyword needle => needle <:+: literal.map Char.toLower
  | _ => False

/-- The blocks that contain the address, and `private` for a private one. -/
def HoldsAddr (addr : IpAddr) : Matcher → Prop
  | .net contains => contains addr = true
  | .privateNets => isPrivate addr = true
  | _ => False

/-! #### An IPv4 address inside an IPv6 one -/

/-- The blocks that contain both. -/
def HoldsBoth (ip : Ipv4Addr) : Matcher → Prop
  | .net contains => contains (.v6 ip.toIpv6Mapped) = true ∧ contains (.v4 ip) = true
  | _ => False

/-- The blocks that contain the IPv6 address only. -/
def HoldsMapped (ip : Ipv4Addr) : Matcher → Prop
  | .net contains => contains (.v6 ip.toIpv6Mapped) = true ∧ contains (.v4 ip) = false
  | _ => False

/-- The blocks that contain the IPv4 address only, and `private` for a private one. -/
def HoldsPlain (ip : Ipv4Addr) : Matcher → Prop
  | .net contains => contains (.v6 ip.toIpv6Mapped) = false ∧ contains (.v4 ip) = true
  | .privateNets => isPrivate (.v4 ip) = true
  | _ => False

/-! #### A trailing dot -/

/-- The text ends in a dot, and what stands before the dot is a `P`. -/
def Dotted (P : Text → Prop) (s : Text) : Prop := ∃ t, s = t ++ ['.'] ∧ P t

/-- The suffixes that fit a name with a dot behind it. -/
def FitsDotted (name suffix : Text) : Prop := suffix = [] ∨ Dotted (Covers · name) suffix

/-- The keywords in the name, and suffixes that fit it with the dot and without. -/
def EitherDot (lower : Text → Text) (name : Text) : Matcher → Prop
  | .domainSuffix suffix => Covers suffix (lower name) ∧ FitsDotted (lower name) suffix
  | .domainKeyword needle => needle <:+: lower name
  | _ => False

/-- The rules whose text has the dot. -/
def WithDot (lower : Text → Text) (name : Text) : Matcher → Prop
  | .domainSuffix suffix => FitsDotted (lower name) suffix ∧ ¬ Covers suffix (lower name)
  | .domainFull full => Dotted (Text.eqIgnoreAsciiCase name · = true) full
  | .domainKeyword needle => Dotted (· <:+ lower name) needle ∧ ¬ needle <:+: lower name
  | _ => False

/-- The rules whose text has it not. -/
def WithoutDot (lower : Text → Text) (name : Text) : Matcher → Prop
  | .domainSuffix suffix => Covers suffix (lower name) ∧ ¬ FitsDotted (lower name) suffix
  | .domainFull full => Text.eqIgnoreAsciiCase name full = true
  | .privateNets => Text.eqIgnoreAsciiCase name "localhost".toList = true
  | _ => False

theorem covers_dot (s t : Text) : Covers s (t ++ ['.']) ↔ FitsDotted t s := by
  unfold Covers FitsDotted Dotted
  rw [List.suffix_concat_iff]
  constructor
  · rintro (rfl | h | ⟨u, hu, hsuffix⟩)
    · exact Or.inr ⟨t, rfl, Or.inl rfl⟩
    · cases h
    · cases u with
      | nil =>
        cases hu
        exact Or.inl rfl
      | cons c u =>
        obtain ⟨rfl, rfl⟩ := List.cons.inj hu
        exact Or.inr ⟨u, rfl, Or.inr hsuffix⟩
  · rintro (rfl | ⟨u, rfl, rfl | hsuffix⟩)
    · exact Or.inr (Or.inr ⟨[], rfl, List.nil_suffix⟩)
    · exact Or.inl rfl
    · exact Or.inr (Or.inr ⟨'.' :: u, rfl, hsuffix⟩)

theorem infix_dot (needle t : Text) :
    needle <:+: t ++ ['.'] ↔ needle <:+: t ∨ Dotted (· <:+ t) needle := by
  rw [List.infix_concat_iff, List.suffix_concat_iff, Dotted]
  constructor
  · rintro ((rfl | h) | h)
    · exact Or.inl (List.nil_infix)
    · exact Or.inr h
    · exact Or.inl h
  · rintro (h | h)
    · exact Or.inr h
    · exact Or.inl (Or.inr h)

theorem toLower_eq_dot {c : Char} (h : c.toLower = '.') : c = '.' := by
  unfold Char.toLower at h
  split at h
  · have hval : c.val + 32 = 46 := congrArg Char.val h
    grind
  · exact h

theorem eqIgnoreAsciiCase_dot (name full : Text) :
    Text.eqIgnoreAsciiCase (name ++ ['.']) full = true ↔
      Dotted (Text.eqIgnoreAsciiCase name · = true) full := by
  simp only [Text.eqIgnoreAsciiCase, beq_iff_eq, Dotted, List.map_append]
  constructor
  · intro h
    obtain ⟨t, u, rfl, ht, hu⟩ := List.map_eq_append_iff.mp h.symm
    obtain ⟨c, rfl, hc⟩ := List.map_eq_singleton_iff.mp hu
    exact ⟨t, by rw [toLower_eq_dot hc], ht.symm⟩
  · rintro ⟨t, rfl, ht⟩
    rw [List.map_append, ht]

variable {rule : Matcher}

theorem matches_suffix (suffix name : Text) :
    (domainSuffix suffix).matches lower (.domain name) port = true ↔
      Covers suffix (lower name) := by
  simp [Matcher.matches, Covers]

theorem matches_keyword (needle name : Text) :
    (domainKeyword needle).matches lower (.domain name) port = true ↔
      needle <:+: lower name := by
  simp [Matcher.matches]

/-! #### What the rules match -/

theorem matches_literal (hlower : Lowers lower) (hliteral : parseIpAddr name = some addr)
    (hregex : ∀ isMatch, rule ≠ .domainRegex isMatch) :
    rule.matches lower (.domain name) port = true ↔
      rule.CoversPort port ∨ rule.NamesLiteral name := by
  have hascii : lower name = name.map Char.toLower := by
    refine hlower.ascii name fun c hc => ?_
    have hchar := List.all_eq_true.mp (all_isAddrChar_of_parseIpAddr hliteral) c hc
    have hrange := isAddrChar_range hchar
    omega
  cases rule with
  | domainSuffix suffix => simp [matches_suffix, hascii, CoversPort, NamesLiteral]
  | domainKeyword needle => simp [matches_keyword, hascii, CoversPort, NamesLiteral]
  | domainRegex isMatch => exact absurd rfl (hregex isMatch)
  | privateNets =>
    have hlocal := parseIpAddr_not_localhost hliteral
    simp only [Matcher.matches, CoversPort, NamesLiteral, hlocal, Bool.false_eq_true, or_self]
  | domainFull | net | ports => simp [Matcher.matches, CoversPort, NamesLiteral]

theorem matches_addr (rule : Matcher) (addr : IpAddr) :
    rule.matches lower (.ip addr) port = true ↔ rule.CoversPort port ∨ rule.HoldsAddr addr := by
  cases rule <;> simp [Matcher.matches, CoversPort, HoldsAddr]

theorem matches_mapped (rule : Matcher) (ip : Ipv4Addr) :
    rule.matches lower (.ip (.v6 ip.toIpv6Mapped)) port = true ↔
      (rule.CoversPort port ∨ rule.HoldsBoth ip) ∨ rule.HoldsMapped ip := by
  rw [matches_addr]
  cases rule with
  | net contains => cases hplain : contains (.v4 ip) <;>
      simp [CoversPort, HoldsAddr, HoldsBoth, HoldsMapped, hplain]
  | privateNets => simp [CoversPort, HoldsAddr, HoldsBoth, HoldsMapped, isPrivate_mapped]
  | _ => simp [CoversPort, HoldsAddr, HoldsBoth, HoldsMapped]

theorem matches_plain (rule : Matcher) (ip : Ipv4Addr) :
    rule.matches lower (.ip (.v4 ip)) port = true ↔
      (rule.CoversPort port ∨ rule.HoldsBoth ip) ∨ rule.HoldsPlain ip := by
  rw [matches_addr]
  cases rule with
  | net contains => cases hmapped : contains (.v6 ip.toIpv6Mapped) <;>
      simp [CoversPort, HoldsAddr, HoldsBoth, HoldsPlain, hmapped]
  | _ => simp [CoversPort, HoldsAddr, HoldsBoth, HoldsPlain]

theorem matches_withDot (hlower : Lowers lower) (hregex : ∀ isMatch, rule ≠ .domainRegex isMatch) :
    rule.matches lower (.domain (name ++ ['.'])) port = true ↔
      (rule.CoversPort port ∨ rule.EitherDot lower name) ∨ rule.WithDot lower name := by
  cases rule with
  | domainSuffix suffix =>
    rw [matches_suffix, hlower.dot, covers_dot]
    by_cases hcovers : Covers suffix (lower name) <;>
      simp [CoversPort, EitherDot, WithDot, hcovers]
  | domainFull full =>
    simp only [Matcher.matches, eqIgnoreAsciiCase_dot, CoversPort, EitherDot, WithDot, false_or]
  | domainKeyword needle =>
    rw [matches_keyword, hlower.dot, infix_dot]
    by_cases hinside : needle <:+: lower name <;>
      simp [CoversPort, EitherDot, WithDot, hinside]
  | domainRegex isMatch => exact absurd rfl (hregex isMatch)
  | privateNets =>
    -- "localhost" does not end in a dot
    have hlocal : ¬ Dotted (Text.eqIgnoreAsciiCase name · = true) "localhost".toList := by
      rintro ⟨t, ht, -⟩
      have hlast := congrArg List.getLast? ht
      rw [List.getLast?_concat] at hlast
      exact absurd hlast (by decide)
    simp only [Matcher.matches, eqIgnoreAsciiCase_dot, hlocal, CoversPort, EitherDot, WithDot,
      or_self]
  | net | ports => simp [Matcher.matches, CoversPort, EitherDot, WithDot]

theorem matches_withoutDot (hregex : ∀ isMatch, rule ≠ .domainRegex isMatch) :
    rule.matches lower (.domain name) port = true ↔
      (rule.CoversPort port ∨ rule.EitherDot lower name) ∨ rule.WithoutDot lower name := by
  cases rule with
  | domainSuffix suffix =>
    rw [matches_suffix]
    by_cases hfits : FitsDotted (lower name) suffix <;>
      simp [CoversPort, EitherDot, WithoutDot, hfits]
  | domainKeyword needle => simp [matches_keyword, CoversPort, EitherDot, WithoutDot]
  | domainRegex isMatch => exact absurd rfl (hregex isMatch)
  | domainFull | privateNets | net | ports =>
    simp [Matcher.matches, CoversPort, EitherDot, WithoutDot]

theorem matches_case {name' : Text} (hlower : Lowers lower)
    (hcase : Text.eqIgnoreAsciiCase name name' = true)
    (hregex : ∀ isMatch, rule ≠ .domainRegex isMatch) :
    rule.matches lower (.domain name) port = rule.matches lower (.domain name') port := by
  have hmap : name.map Char.toLower = name'.map Char.toLower := by
    simpa [Text.eqIgnoreAsciiCase] using hcase
  cases rule with
  | domainRegex isMatch => exact absurd rfl (hregex isMatch)
  | domainSuffix | domainKeyword => simp only [Matcher.matches, hlower.case name name' hcase]
  | domainFull | privateNets => simp only [Matcher.matches, Text.eqIgnoreAsciiCase, hmap]
  | net | ports => rfl

end Routing.Matcher

/-- **When two spellings of a destination are decided alike.**  Letter case never matters.  For an
address written as a name, an IPv4 address inside an IPv6 one and a trailing dot, the kinds of the
rules and their texts say which rules tell the spellings apart. -/
theorem Routing.spellings_decided_alike_iff (lower : Text → Text) (hlower : Lowers lower)
    (set : RuleSet) (hregex : set.NoRegex) (port : Nat) :
    (∀ name addr, parseIpAddr name = some addr →
      (set.decide lower (.domain name) port = set.decide lower (.ip addr) port ↔
        set.Alike (·.CoversPort port) (·.NamesLiteral name) (·.HoldsAddr addr))) ∧
    (∀ ip : Ipv4Addr,
      (set.decide lower (.ip (.v6 ip.toIpv6Mapped)) port = set.decide lower (.ip (.v4 ip)) port ↔
        set.Alike (fun rule => rule.CoversPort port ∨ rule.HoldsBoth ip) (·.HoldsMapped ip)
          (·.HoldsPlain ip))) ∧
    (∀ name,
      (set.decide lower (.domain (name ++ ['.'])) port = set.decide lower (.domain name) port ↔
        set.Alike (fun rule => rule.CoversPort port ∨ rule.EitherDot lower name)
          (·.WithDot lower name) (·.WithoutDot lower name))) ∧
    (∀ name name', Text.eqIgnoreAsciiCase name name' = true →
      set.decide lower (.domain name) port = set.decide lower (.domain name') port) := by
  refine ⟨?_, ?_, ?_, ?_⟩
  · intro name addr hliteral
    exact Sorts.decide_eq_iff
      ⟨fun rule hmem => Matcher.matches_literal hlower hliteral (hregex rule hmem),
        fun rule _ => rule.matches_addr addr⟩
  · intro ip
    exact Sorts.decide_eq_iff ⟨fun rule _ => rule.matches_mapped ip,
      fun rule _ => rule.matches_plain ip⟩
  · intro name
    exact Sorts.decide_eq_iff
      ⟨fun rule hmem => Matcher.matches_withDot hlower (hregex rule hmem),
        fun rule hmem => Matcher.matches_withoutDot (hregex rule hmem)⟩
  · intro name name' hcase
    have hlist : ∀ rules ⊆ set.block ++ set.direct,
        (Matched lower rules (.domain name) port ↔ Matched lower rules (.domain name') port) := by
      intro rules hsub
      refine exists_congr fun rule => and_congr_right fun hmem => ?_
      rw [Matcher.matches_case hlower hcase (hregex rule (hsub hmem))]
    rw [RuleSet.decide_eq_iff_matched]
    exact ⟨hlist _ (List.subset_append_left _ _), Or.inr (hlist _ (List.subset_append_right _ _))⟩

/-- A block for each family, a literal as a name and a keyword. -/
private def doubledRules : RuleSet :=
  { block := [.net (IpNet.v4 0x0a000000 8).contains,
      .net (IpNet.v6 0xffff0a000000 104).contains, .domainFull "10.0.0.1".toList,
      .domainKeyword "example".toList]
    direct := [] }

/-- Two rules catch the spellings of an address, and one keyword those of a name. -/
theorem Routing.spellings_decided_alike_doubled :
    doubledRules.decide (List.map Char.toLower) (.domain "10.0.0.1".toList) 443 =
      doubledRules.decide (List.map Char.toLower) (.ip (.v4 0x0a000001)) 443 ∧
    doubledRules.decide (List.map Char.toLower)
        (.ip (.v6 (Ipv4Addr.toIpv6Mapped 0x0a000001))) 443 =
      doubledRules.decide (List.map Char.toLower) (.ip (.v4 0x0a000001)) 443 ∧
    doubledRules.decide (List.map Char.toLower) (.domain "Example.com.".toList) 443 =
      doubledRules.decide (List.map Char.toLower) (.domain "Example.com".toList) 443 := by
  have hregex : doubledRules.NoRegex := by
    intro rule hmem isMatch heq
    subst heq
    simp [doubledRules] at hmem
  obtain ⟨hliteral, hmapped, hdot, -⟩ :=
    spellings_decided_alike_iff _ lowers_toLower doubledRules hregex 443
  refine ⟨?_, ?_, ?_⟩
  · refine (hliteral _ _ (by decide)).mpr (Or.inl (Or.inr ⟨?_, ?_⟩))
    · refine ⟨.domainFull "10.0.0.1".toList, by simp [doubledRules], ?_⟩
      exact (by decide : Text.eqIgnoreAsciiCase "10.0.0.1".toList "10.0.0.1".toList = true)
    · refine ⟨.net (IpNet.v4 0x0a000000 8).contains, by simp [doubledRules], ?_⟩
      exact (by decide : (IpNet.v4 0x0a000000 8).contains (.v4 0x0a000001) = true)
  · refine (hmapped _).mpr (Or.inl (Or.inr ⟨?_, ?_⟩))
    · exact ⟨.net (IpNet.v6 0xffff0a000000 104).contains, by simp [doubledRules], by decide, rfl⟩
    · exact ⟨.net (IpNet.v4 0x0a000000 8).contains, by simp [doubledRules], rfl, by decide⟩
  · refine (hdot "Example.com".toList).mpr (Or.inl (Or.inl ?_))
    refine ⟨.domainKeyword "example".toList, by simp [doubledRules], Or.inr ?_⟩
    exact (by decide : "example".toList <:+: "Example.com".toList.map Char.toLower)

/-- An address block and a domain. -/
private def spelledRules : RuleSet :=
  { block := [.net (IpNet.v4 0x0a000000 8).contains, .domainSuffix "example.com".toList]
    direct := [] }

/-- Each of the three spellings gets past a rule. -/
theorem Routing.spellings_decided_apart :
    spelledRules.decide (List.map Char.toLower) (.domain "10.0.0.1".toList) 443 ≠
      spelledRules.decide (List.map Char.toLower) (.ip (.v4 0x0a000001)) 443 ∧
    parseIpAddr "10.0.0.1".toList = some (.v4 0x0a000001) ∧
    spelledRules.decide (List.map Char.toLower)
        (.ip (.v6 (Ipv4Addr.toIpv6Mapped 0x0a000001))) 443 ≠
      spelledRules.decide (List.map Char.toLower) (.ip (.v4 0x0a000001)) 443 ∧
    spelledRules.decide (List.map Char.toLower) (.domain "example.com.".toList) 443 ≠
      spelledRules.decide (List.map Char.toLower) (.domain "example.com".toList) 443 := by
  decide

end Aether
