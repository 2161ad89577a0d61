/-
The resolvers of a profile, for the app and for the engine.

The app keeps the entries that match a pattern, the engine takes the entries its address parser
reads.  Both sides are told by the texts of addresses (`IpText`, `SocketText`), so what one of them
lets through and the other does not can be read off (`resolvers_agree_iff`).
-/
import Aether.Proofs.Profile.Entries
import Aether.Proofs.Profile.Launch
import Aether.Proofs.Socks.Resolvers

namespace Aether.Profile

open List

open Engine
open Socks (ResolverText readResolver readResolver_iff resolverAddresses defaultResolvers)
open AiRedaction (Flavour literal)

variable {P : Platform} {p : ConnectionProfile}

/-! ### What an entry names -/

/-- The address that an entry names, with port 53 where none is written. -/
inductive Names : Text → StdSocketAddr → Prop
  | v4 {w : Text} {ip : Ipv4Addr} (h : Ipv4Text w ip) : Names w (.v4 ip 53)
  | v4Port {w d : Text} {ip : Ipv4Addr} {port : UInt16} (h : Ipv4Text w ip) (hd : PortText d port) :
      Names (w ++ ':' :: d) (.v4 ip port)
  | v6 {w : Text} {ip : Ipv6Addr} (h : Ipv6Text w ip) : Names ('[' :: (w ++ [']'])) (.v6 ip 53 0 0)
  | v6Port {w d : Text} {ip : Ipv6Addr} {port : UInt16} (h : Ipv6Text w ip) (hd : PortText d port) :
      Names ('[' :: (w ++ ']' :: ':' :: d)) (.v6 ip port 0 0)

/-- An entry that names an address, and behind a bracket its port. -/
def Written (e : Text) : Prop := (∃ a, Names e a) ∧ e.getLast? ≠ some ']'

/-- A resolver that the pattern of the app does not know. -/
inductive Overlooked : Text → Prop
  /-- White space that is none to the app is around it. -/
  | padded {e : Text} {a : StdSocketAddr} (hpad : Text.trim e ≠ e)
      (h : ResolverText (Text.trim e) a) : Overlooked e
  /-- An IPv6 address without brackets. -/
  | bare {e : Text} {ip : Ipv6Addr} (h : Ipv6Text e ip) : Overlooked e
  /-- A port of more than five digits. -/
  | longPort {w d : Text} {ip : Ipv4Addr} {port : UInt16} (h : Ipv4Text w ip) (hd : PortText d port)
      (hlen : 5 < d.length) : Overlooked (w ++ ':' :: d)
  /-- A scope, an IPv4 address inside, or such a port. -/
  | bracketed {w s d : Text} {ip : Ipv6Addr} {scope : UInt32} {port : UInt16} (h : Ipv6Text w ip)
      (hs : ScopeText s scope) (hd : PortText d port) (hodd : s ≠ [] ∨ '.' ∈ w ∨ 5 < d.length) :
      Overlooked ('[' :: (w ++ (s ++ ']' :: ':' :: d)))

/-! ### The pattern -/

section Pattern

variable {F : Flavour}

/-- What the pattern takes for an octet or a port. -/
def Digits (F : Flavour) (most : Nat) (t : Text) : Prop :=
  1 ≤ t.length ∧ t.length ≤ most ∧ ∀ c ∈ t, F.digit c = true

inductive HostShape (F : Flavour) : Text → Prop
  | quad {a b c d : Text} (ha : Digits F 3 a) (hb : Digits F 3 b) (hc : Digits F 3 c)
      (hd : Digits F 3 d) : HostShape F (a ++ '.' :: (b ++ '.' :: (c ++ '.' :: d)))
  | bracket {x : Text} (hne : x ≠ []) (hx : ∀ c ∈ x, isBracketed c = true) :
      HostShape F ('[' :: (x ++ [']']))

/-- The entries that match `DNS_ENTRY`. -/
inductive DnsShape (F : Flavour) : Text → Prop
  | alone {host : Text} (h : HostShape F host) : DnsShape F host
  | port {host d : Text} (h : HostShape F host) (hd : Digits F 5 d) : DnsShape F (host ++ ':' :: d)

variable {w e d t : Text} {c : Char} {ip : Ipv4Addr} {addr : StdSocketAddr}

theorem mem_octetPattern :
    w ∈ Regex.language (AiRedaction.octetPattern F) ↔ Digits F 3 w := Regex.mem_language_between_one

/-- A literal character and a part behind it. -/
theorem mem_literal_seq {x : Char} {r : Regex Char} :
    w ∈ Regex.language (.seq (literal [x]) r) ↔ ∃ v ∈ Regex.language r, w = x :: v := by
  rw [Regex.mem_language_seq]
  constructor
  · rintro ⟨u, hu, v, hv, rfl⟩
    rw [Regex.mem_language_literal.mp hu]
    exact ⟨v, hv, rfl⟩
  · rintro ⟨v, hv, rfl⟩
    exact ⟨[x], Regex.mem_language_literal.mpr rfl, v, hv, rfl⟩

theorem mem_quadPattern :
    w ∈ Regex.language (.seq (AiRedaction.octetPattern F)
        (Regex.times 3 (.seq (literal ['.']) (AiRedaction.octetPattern F)))) ↔
      ∃ a b c d, Digits F 3 a ∧ Digits F 3 b ∧ Digits F 3 c ∧ Digits F 3 d ∧
        w = a ++ '.' :: (b ++ '.' :: (c ++ '.' :: d)) := by
  simp only [Regex.times, Regex.mem_language_seq (r := AiRedaction.octetPattern F),
    mem_octetPattern]
  constructor
  · rintro ⟨a, ha, t₁, h₁, rfl⟩
    obtain ⟨u₁, hu₁, t₂, h₂, rfl⟩ := Regex.mem_language_seq.mp h₁
    obtain ⟨u₂, hu₂, t₃, h₃, rfl⟩ := Regex.mem_language_seq.mp h₂
    obtain ⟨u₃, hu₃, t₄, h₄, rfl⟩ := Regex.mem_language_seq.mp h₃
    obtain ⟨b, hb, rfl⟩ := mem_literal_seq.mp hu₁
    obtain ⟨c, hc, rfl⟩ := mem_literal_seq.mp hu₂
    obtain ⟨d, hd, rfl⟩ := mem_literal_seq.mp hu₃
    rw [Regex.mem_language_empty.mp h₄]
    exact ⟨a, b, c, d, ha, mem_octetPattern.mp hb, mem_octetPattern.mp hc, mem_octetPattern.mp hd,
      by simp⟩
  · rintro ⟨a, b, c, d, ha, hb, hc, hd, rfl⟩
    have hpart : ∀ {t : Text}, Digits F 3 t →
        '.' :: t ∈ Regex.language (.seq (literal ['.']) (AiRedaction.octetPattern F)) :=
      fun ht => mem_literal_seq.mpr ⟨_, mem_octetPattern.mpr ht, rfl⟩
    exact ⟨a, ha, _, Regex.mem_language_seq.mpr ⟨_, hpart hb, _, Regex.mem_language_seq.mpr
      ⟨_, hpart hc, _, Regex.mem_language_seq.mpr ⟨_, hpart hd, [],
        Regex.mem_language_empty.mpr rfl, rfl⟩, rfl⟩, rfl⟩, by simp⟩

theorem mem_bracketPattern :
    w ∈ Regex.language (Regex.all [literal ['['], Regex.plus (.one isBracketed), literal [']']]) ↔
      ∃ x, x ≠ [] ∧ (∀ c ∈ x, isBracketed c = true) ∧ w = '[' :: (x ++ [']']) := by
  show w ∈ Regex.language
    (.seq (literal ['[']) (.seq (Regex.plus (.one isBracketed)) (literal [']']))) ↔ _
  rw [mem_literal_seq]
  constructor
  · rintro ⟨v, hv, rfl⟩
    obtain ⟨x, hx, u, hu, rfl⟩ := Regex.mem_language_seq.mp hv
    rw [Regex.mem_language_literal.mp hu]
    obtain ⟨hne, hall⟩ := Regex.mem_language_plus_one.mp hx
    exact ⟨x, hne, hall, rfl⟩
  · rintro ⟨x, hne, hall, rfl⟩
    exact ⟨_, Regex.mem_language_seq.mpr ⟨x, Regex.mem_language_plus_one.mpr ⟨hne, hall⟩, [']'],
      Regex.mem_language_literal.mpr rfl, rfl⟩, rfl⟩

theorem accepts_dnsEntry_iff : Regex.accepts (dnsEntry F) e = true ↔ DnsShape F e := by
  have hhost : ∀ {w : Text}, w ∈ Regex.language (.alt (.seq (AiRedaction.octetPattern F)
      (Regex.times 3 (.seq (literal ['.']) (AiRedaction.octetPattern F))))
      (Regex.all [literal ['['], Regex.plus (.one isBracketed), literal [']']])) ↔
      HostShape F w := by
    intro w
    rw [Regex.mem_language_alt, mem_quadPattern, mem_bracketPattern]
    constructor
    · rintro (⟨a, b, c, d, ha, hb, hc, hd, rfl⟩ | ⟨x, hne, hx, rfl⟩)
      · exact .quad ha hb hc hd
      · exact .bracket hne hx
    · rintro (⟨ha, hb, hc, hd⟩ | ⟨hne, hx⟩)
      · exact .inl ⟨_, _, _, _, ha, hb, hc, hd, rfl⟩
      · exact .inr ⟨_, hne, hx, rfl⟩
  have hport : ∀ {w : Text}, w ∈ Regex.language (portPattern F) ↔ Digits F 5 w :=
    Regex.mem_language_between_one
  rw [Regex.accepts_iff rfl]
  unfold dnsEntry
  rw [Regex.mem_language_seq]
  constructor
  · rintro ⟨host, hh, tail, ht, rfl⟩
    obtain rfl | ht := Regex.mem_language_opt.mp ht
    · rw [append_nil]
      exact .alone (hhost.mp hh)
    · obtain ⟨d, hd, rfl⟩ := mem_literal_seq.mp ht
      exact .port (hhost.mp hh) (hport.mp hd)
  · rintro (h | ⟨h, hd⟩)
    · exact ⟨e, hhost.mpr h, [], Regex.mem_language_opt.mpr (.inl rfl), append_nil e⟩
    · exact ⟨_, hhost.mpr h, _, Regex.mem_language_opt.mpr
        (.inr (mem_literal_seq.mpr ⟨_, hport.mpr hd, rfl⟩)), rfl⟩

/-! ### Characters -/

theorem digit_ascii (h : (toDigit 10 c).isSome = true) : F.digit c = true := by
  have hdigit := isSome_toDigit_ten.mp h
  have hle : c.toNat ≤ 57 := (isDigit_iff.mp hdigit).2
  rw [F.digit_ascii c (by omega)]
  exact hdigit

theorem isHex_iff : AiRedaction.isHex c = true ↔ (toDigit 16 c).isSome = true := by
  rw [isSome_toDigit_sixteen, ← isDigit_iff]
  simp only [AiRedaction.isHex, Bool.or_eq_true, Bool.and_eq_true, decide_eq_true_eq, or_assoc]

theorem isBracketed_iff : isBracketed c = true ↔ isAddrChar c = true ∧ c ≠ '.' := by
  have hdot : AiRedaction.isHex '.' = false := by decide
  unfold isBracketed isAddrChar
  simp only [Bool.or_eq_true, beq_iff_eq, isHex_iff]
  constructor
  · rintro (h | rfl)
    · refine ⟨.inl (.inl h), ?_⟩
      rintro rfl
      exact Bool.false_ne_true (hdot.symm.trans (isHex_iff.mpr h))
    · exact ⟨.inr rfl, by decide⟩
  · rintro ⟨(h | h) | h, hne⟩
    · exact .inl h
    · exact absurd h hne
    · exact .inr h

/-- An address character is not one of these. -/
theorem isAddrChar_odd :
    isAddrChar '[' = false ∧ isAddrChar ']' = false ∧ isAddrChar '%' = false := by
  decide

theorem digit_false (hascii : c.toNat < 128) (h : c.isDigit = false) : F.digit c = false := by
  rw [F.digit_ascii c hascii, h]

/-- What the pattern takes for digits has no such character. -/
theorem Digits.notMem {most : Nat} (h : Digits F most t) (hascii : c.toNat < 128)
    (hc : c.isDigit = false) : c ∉ t := fun hmem =>
  Bool.false_ne_true ((digit_false hascii hc).symm.trans (h.2.2 c hmem))

theorem Digits.ne_nil {most : Nat} (h : Digits F most t) : t ≠ [] := by
  rintro rfl
  exact absurd h.1 (by decide)

/-! ### The texts of addresses under the pattern -/

theorem digits_of_octet {g : Text} {n : Nat} (h : Octet g n) : Digits F 3 g :=
  ⟨length_pos_of_ne_nil h.ne_nil, h.length, fun c hc => digit_ascii (h.digits c hc)⟩

theorem digits_of_port {port : UInt16} (h : PortText d port) (hlen : d.length ≤ 5) :
    Digits F 5 d := by
  obtain ⟨n, h, -⟩ := h
  exact ⟨length_pos_of_ne_nil h.ne_nil, hlen, fun c hc => digit_ascii (h.digits c hc)⟩

theorem hostShape_of_ipv4Text (h : Ipv4Text w ip) : HostShape F w := by
  obtain ⟨ha, hb, hc, hd⟩ := h
  exact .quad (digits_of_octet ha) (digits_of_octet hb) (digits_of_octet hc) (digits_of_octet hd)

theorem hostShape_of_ipv6Text {ip : Ipv6Addr} (h : Ipv6Text w ip) (hdot : '.' ∉ w) :
    HostShape F ('[' :: (w ++ [']'])) := by
  refine .bracket ?_ fun c hc => isBracketed_iff.mpr ⟨h.chars c hc, fun heq => hdot (heq ▸ hc)⟩
  rintro rfl
  obtain ⟨g, u, hcolon, -⟩ := h.colon
  simp at hcolon

/-- A resolver that does not match the pattern is one of those the app overlooks. -/
theorem overlooked_of_not_shape (h : ResolverText (Text.trim e) addr) (hshape : ¬ DnsShape F e) :
    Overlooked e := by
  by_cases hpad : Text.trim e = e
  · rw [hpad] at h
    cases h with
    | socket h =>
      cases h with
      | @v4 w d ip port hw hd =>
        refine .longPort hw hd ?_
        by_contra hlen
        exact hshape (.port (hostShape_of_ipv4Text hw) (digits_of_port hd (Nat.not_lt.mp hlen)))
      | @v6 w s d ip scope port hw hs hd =>
        refine .bracketed hw hs hd ?_
        by_contra hodd
        rw [not_or, not_or, not_not, not_lt] at hodd
        obtain ⟨rfl, hdot, hlen⟩ := hodd
        have hport :=
          DnsShape.port (F := F) (hostShape_of_ipv6Text hw hdot) (digits_of_port hd hlen)
        rw [cons_append, append_assoc] at hport
        exact hshape hport
    | ip h =>
      cases h with
      | v4 hw => exact absurd (.alone (hostShape_of_ipv4Text hw)) hshape
      | v6 hw => exact .bare hw
  · exact .padded hpad h

/-! ### What is written is visible -/

theorem solid_of_portText {port : UInt16} (h : PortText d port) : Text.Solid d :=
  solid_of_addrChars fun c hc => isAddrChar_of_digit (by decide) (h.digits c hc)

theorem Names.ne_nil (h : Names e addr) : e ≠ [] := by
  cases h with
  | v4 h =>
    obtain ⟨_, _, _, _⟩ := h
    simp
  | v4Port _ _ => simp
  | v6 _ => simp
  | v6Port _ _ => simp

theorem Names.solid (h : Names e addr) : Text.Solid e := by
  cases h with
  | v4 h => exact solid_of_addrChars h.chars
  | v4Port h hd =>
    exact forall_mem_append.mpr
      ⟨solid_of_addrChars h.chars, forall_mem_cons.mpr ⟨by decide, solid_of_portText hd⟩⟩
  | v6 h =>
    exact forall_mem_cons.mpr
      ⟨by decide, forall_mem_append.mpr
        ⟨solid_of_addrChars h.chars, forall_mem_singleton.mpr (by decide)⟩⟩
  | v6Port h hd =>
    exact forall_mem_cons.mpr ⟨by decide, forall_mem_append.mpr ⟨solid_of_addrChars h.chars,
      forall_mem_cons.mpr ⟨by decide, forall_mem_cons.mpr ⟨by decide, solid_of_portText hd⟩⟩⟩⟩

/-- What is overlooked is a resolver. -/
theorem Overlooked.resolver (h : Overlooked e) : ∃ a, ResolverText (Text.trim e) a := by
  cases h with
  | padded _ h => exact ⟨_, h⟩
  | bare h =>
    rw [Text.trim_of_solid (solid_of_addrChars h.chars)]
    exact ⟨_, .ip (.v6 h)⟩
  | longPort h hd _ =>
    rw [Text.trim_of_solid]
    · exact ⟨_, .socket (.v4 h hd)⟩
    · exact (Names.v4Port h hd).solid
  | @bracketed w s d ip scope port h hs hd _ =>
    have hscope : Text.Solid s := by
      cases hs with
      | none => exact fun c hc => absurd hc not_mem_nil
      | some hn =>
        exact forall_mem_cons.mpr ⟨by decide, solid_of_addrChars (hn.chars (by decide))⟩
    rw [Text.trim_of_solid]
    · exact ⟨_, .socket (.v6 h hs hd)⟩
    · simp only [Text.Solid, forall_mem_cons, forall_mem_append]
      exact ⟨by decide, solid_of_addrChars h.chars, hscope, by decide, by decide,
        solid_of_portText hd⟩

/-! ### What is overlooked does not match -/

/-- A text of digits and dots has no colon. -/
theorem colon_notMem_quad {a b c : Text} (ha : Digits F 3 a) (hb : Digits F 3 b)
    (hc : Digits F 3 c) (hd : Digits F 3 d) : ':' ∉ a ++ '.' :: (b ++ '.' :: (c ++ '.' :: d)) := by
  have hcolon : ∀ {t : Text}, Digits F 3 t → ':' ∉ t := fun ht => ht.notMem (by decide) (by decide)
  simp [hcolon ha, hcolon hb, hcolon hc, hcolon hd]

theorem colon_notMem_ipv4Text (h : Ipv4Text w ip) : ':' ∉ w := by
  obtain ⟨ha, hb, hc, hd⟩ := h
  exact colon_notMem_quad (F := .ascii) (digits_of_octet ha) (digits_of_octet hb)
    (digits_of_octet hc) (digits_of_octet hd)

theorem ipv4Text_head (h : Ipv4Text w ip) (t : Text) : (w ++ t).head? ≠ some '[' := by
  obtain ⟨ha, hb, hc, hd⟩ := h
  obtain ⟨c, rest, rfl⟩ := exists_cons_of_ne_nil ha.ne_nil
  intro hhead
  obtain rfl : c = '[' := by simpa using hhead
  exact absurd (ha.digits '[' mem_cons_self) (by decide)

theorem not_shape_longPort (h : Ipv4Text w ip) (hlen : 5 < d.length) :
    ¬ DnsShape F (w ++ ':' :: d) := by
  intro hshape
  have hw := colon_notMem_ipv4Text h
  generalize he : w ++ ':' :: d = e at hshape
  cases hshape with
  | alone hhost =>
    cases hhost with
    | quad ha hb hc hd =>
      have hmem : ':' ∈ w ++ ':' :: d := by simp
      rw [he] at hmem
      exact colon_notMem_quad ha hb hc hd hmem
    | bracket _ _ => exact ipv4Text_head h _ (by rw [he]; rfl)
  | port hhost hd' =>
    cases hhost with
    | quad ha hb hc hd =>
      obtain ⟨-, rfl⟩ := Text.cut_unique hw (colon_notMem_quad ha hb hc hd) he
      exact absurd hd'.2.1 (Nat.not_le.mpr hlen)
    | bracket _ _ => exact ipv4Text_head h _ (by rw [he]; rfl)

theorem not_shape_bare {ip : Ipv6Addr} (h : Ipv6Text e ip) : ¬ DnsShape F e := by
  obtain ⟨g, u, he, hg⟩ := h.colon
  have hleft := takeWhile_of_noDigit hg (show NoDigit 16 (':' :: u) from noDigit_cons rfl u)
  -- the first character behind the digits would be a dot
  have hquad : ∀ {a v : Text}, Digits F 3 a → e ≠ a ++ '.' :: v := by
    intro a v ha heq
    have hdigits : ∀ c ∈ a, (toDigit 16 c).isSome = true := by
      intro c hc
      have hchar := h.chars c (by rw [heq]; simp [hc])
      have hdigit := ha.2.2 c hc
      rw [F.digit_ascii c (by have := isAddrChar_range hchar; omega)] at hdigit
      exact isSome_toDigit_16 (by decide) (isSome_toDigit_ten.mpr hdigit)
    have hright := takeWhile_of_noDigit hdigits (show NoDigit 16 ('.' :: v) from noDigit_cons rfl v)
    rw [← heq, he, hleft] at hright
    subst hright
    rw [he] at heq
    exact absurd (append_cancel_left heq) (by simp)
  have hbracket : '[' ∉ e := fun hmem =>
    Bool.false_ne_true (isAddrChar_odd.1.symm.trans (h.chars _ hmem))
  intro hshape
  cases hshape with
  | alone hhost =>
    cases hhost with
    | quad ha _ _ _ => exact hquad ha rfl
    | bracket _ _ => exact hbracket mem_cons_self
  | port hhost hd =>
    cases hhost with
    | quad ha _ _ _ => exact hquad ha (by rw [append_assoc]; rfl)
    | bracket _ _ => exact hbracket mem_cons_self

theorem not_shape_bracketed {s : Text} {ip : Ipv6Addr} {scope : UInt32} (h : Ipv6Text w ip)
    (hs : ScopeText s scope) (hodd : s ≠ [] ∨ '.' ∈ w ∨ 5 < d.length) :
    ¬ DnsShape F ('[' :: (w ++ (s ++ ']' :: ':' :: d))) := by
  have hclose : ']' ∉ w ++ s := by
    rw [mem_append, not_or]
    refine ⟨fun hmem => Bool.false_ne_true (isAddrChar_odd.2.1.symm.trans (h.chars _ hmem)), ?_⟩
    cases hs with
    | none => exact not_mem_nil
    | some hd =>
      rw [mem_cons, not_or]
      exact ⟨by decide, fun hmem => absurd (hd.digits _ hmem) (by decide)⟩
  have hbracketed : ∀ {x : Text}, (∀ c ∈ x, isBracketed c = true) → ']' ∉ x := fun hx hmem =>
    absurd (hx _ hmem) (by decide)
  intro hshape
  generalize he : '[' :: (w ++ (s ++ ']' :: ':' :: d)) = e at hshape
  have hquad : ∀ {a v : Text}, Digits F 3 a → '[' :: (w ++ (s ++ ']' :: ':' :: d)) ≠ a ++ v := by
    intro a v ha heq
    obtain ⟨c, rest, rfl⟩ := exists_cons_of_ne_nil ha.ne_nil
    obtain ⟨rfl, -⟩ := List.cons.inj heq
    exact ha.notMem (by decide) (by decide) mem_cons_self
  cases hshape with
  | alone hhost =>
    cases hhost with
    | quad ha _ _ _ => exact hquad ha he
    | bracket hne hx =>
      have hcut := (List.cons.inj he).2
      rw [← append_assoc] at hcut
      exact nomatch (Text.cut_unique hclose (hbracketed hx) hcut).2
  | port hhost hd =>
    cases hhost with
    | quad ha _ _ _ => exact hquad ha (he.trans (append_assoc _ _ _))
    | @bracket x hne hx =>
      rw [cons_append, append_assoc x, ← append_assoc w] at he
      obtain ⟨rfl, htail⟩ := Text.cut_unique hclose (hbracketed hx) (List.cons.inj he).2
      obtain ⟨-, rfl⟩ := List.cons.inj htail
      obtain hs' | hdot | hlen := hodd
      · cases hs with
        | none => exact hs' rfl
        | some _ => exact absurd (hx '%' (by simp)) (by decide)
      · exact absurd (hx '.' (by simp [hdot])) (by decide)
      · exact absurd hd.2.1 (Nat.not_le.mpr hlen)

/-- What is overlooked does not match, unless white space counts as a digit. -/
theorem not_written_of_overlooked (h : Overlooked e) (hshape : DnsShape F e) : ¬ Written e := by
  intro hwritten
  cases h with
  | padded hpad _ =>
    obtain ⟨⟨addr, hnames⟩, -⟩ := hwritten
    exact hpad (Text.trim_of_solid hnames.solid)
  | bare h => exact not_shape_bare h hshape
  | longPort h _ hlen => exact not_shape_longPort h hlen hshape
  | bracketed h hs _ hodd => exact not_shape_bracketed h hs hodd hshape

end Pattern

/-! ### What is written is read -/

variable {t e : Text} {α β : Type}

theorem ResolverText.last {addr : StdSocketAddr} (h : ResolverText t addr) :
    t.getLast? ≠ some ']' := by
  have haddr : ∀ {t : Text}, (∀ c ∈ t, isAddrChar c = true) → t.getLast? ≠ some ']' :=
    fun ht hlast => Bool.false_ne_true
      (isAddrChar_odd.2.1.symm.trans (ht _ (mem_of_getLast? hlast)))
  have hport : ∀ {d : Text} {port : UInt16} (front : Text), PortText d port →
      (front ++ d).getLast? ≠ some ']' := by
    rintro d port front ⟨n, hd, -⟩
    rw [List.getLast?_append_of_ne_nil _ hd.ne_nil]
    exact haddr (hd.chars (by decide))
  cases h with
  | socket h =>
    cases h with
    | @v4 w d ip port _ hd =>
      have hlast := hport (w ++ [':']) hd
      rwa [append_assoc, singleton_append] at hlast
    | @v6 w s d ip scope port _ _ hd =>
      have hlast := hport ('[' :: (w ++ (s ++ [']', ':']))) hd
      simpa using hlast
  | ip h =>
    cases h with
    | v4 h => exact haddr h.chars
    | v6 h => exact haddr h.chars

theorem written_iff : Written e ↔ ∃ a, Names e a ∧ readResolver (Text.trim e) = some a := by
  constructor
  · rintro ⟨⟨a, hnames⟩, hlast⟩
    refine ⟨a, hnames, ?_⟩
    rw [Text.trim_of_solid hnames.solid, readResolver_iff]
    cases hnames with
    | v4 h => exact .ip (.v4 h)
    | v4Port h hd => exact .socket (.v4 h hd)
    | @v6 w ip h =>
      refine absurd ?_ hlast
      rw [← cons_append, List.getLast?_append_of_ne_nil _ (by simp)]
      rfl
    | v6Port h hd => exact .socket (.v6 h .none hd)
  · rintro ⟨a, hnames, hread⟩
    rw [Text.trim_of_solid hnames.solid, readResolver_iff] at hread
    exact ⟨⟨a, hnames⟩, ResolverText.last hread⟩

/-! ### The entries of the text -/

/-- What is written between the separators. -/
def dnsEntries (t : Text) : List Text :=
  ((splitAny [',', ' ', ';', '\n'] t).map LanGuard.trim).filter (· ≠ [])

/-- The different entries that match `DNS_ENTRY`. -/
def matching (F : Flavour) (t : Text) : List Text :=
  ((dnsEntries t).filter (Regex.accepts (dnsEntry F))).eraseDups

theorem sanitizedDns_eq (P : Platform) (p : ConnectionProfile) :
    p.sanitizedDns P = (matching P.flavour p.dnsServers).take maxDnsServers := by
  unfold ConnectionProfile.sanitizedDns entries matching dnsEntries
  rw [filter_filter]
  simp only [Bool.and_comm]

theorem mem_matching {F : Flavour} : e ∈ matching F t ↔ e ∈ dnsEntries t ∧ DnsShape F e := by
  unfold matching
  rw [mem_eraseDups, mem_filter, accepts_dnsEntry_iff]

theorem mem_take_or {l : List α} {x : α} (h : x ∈ l) (n : Nat) : x ∈ l.take n ∨ n ≤ l.length := by
  by_cases hn : n ≤ l.length
  · exact .inr hn
  · rw [take_of_length_le (by omega)]
    exact .inl h

/-! ### The variable -/

theorem gives_listArg {flag key : String} (h : operationOf flag = some (.setNext [key]))
    (entries : List Text) :
    Gives key (fun old => if entries = [] then old else some ([','].intercalate entries))
      (ConnectionProfile.listArg flag entries) := by
  unfold ConnectionProfile.listArg
  by_cases hnil : entries = []
  · simp only [hnil, if_true]
    exact fun env => ⟨env, rfl, rfl⟩
  · simp only [hnil, if_false]
    exact Gives.setNext h _

theorem launch_dns (D : Device) (p : ConnectionProfile) :
    ∃ env, D.launch p = .ok (.run, env) ∧
      env "AETHER_DNS" = if p.sanitizedDns D.platform = [] then D.inherited "AETHER_DNS"
        else some ([','].intercalate (p.sanitizedDns D.platform)) := by
  obtain ⟨env, hlaunch, hvalue⟩ := Device.launch_ok (D := D) (ConnectionProfile.gives_toArgs
    (by decide) (by decide) (by decide)
    (ConnectionProfile.spares_bridgeArgs D.platform p (by decide))
    (gives_listArg (show operationOf "--dns" = _ from rfl) (p.sanitizedDns D.platform)))
  refine ⟨env, hlaunch, ?_⟩
  rw [hvalue, Device.environment_other (by decide) (by decide) (by decide)]
  rfl

/-! ### Both sides -/

/-- The app and the engine agree on the resolvers of a profile. -/
structure ResolversAgree (D : Device) (p : ConnectionProfile) : Prop where
  /-- What is kept is read, as what it names. -/
  read : ∃ env addrs, D.launch p = .ok (.run, env) ∧
    List.Forall₂ (fun e a => Names e a ∧ readResolver (Text.trim e) = some a)
      (p.sanitizedDns D.platform) addrs ∧
    (addrs ≠ [] → resolverAddresses (env "AETHER_DNS") = addrs.eraseDups)
  /-- What would be read is kept, as long as there is room. -/
  kept : ∀ e ∈ dnsEntries p.dnsServers, (readResolver (Text.trim e)).isSome = true →
    e ∈ p.sanitizedDns D.platform ∨ (p.sanitizedDns D.platform).length = maxDnsServers

theorem exists_forall₂ {R : α → β → Prop} {l : List α} (h : ∀ x ∈ l, ∃ y, R x y) :
    ∃ ys, List.Forall₂ R l ys := by
  induction l with
  | nil => exact ⟨[], .nil⟩
  | cons x l ih =>
    obtain ⟨y, hy⟩ := h x mem_cons_self
    obtain ⟨ys, hys⟩ := ih fun x hx => h x (mem_cons_of_mem _ hx)
    exact ⟨y :: ys, .cons hy hys⟩

theorem exists_of_forall₂ {R : α → β → Prop} {l : List α} {ys : List β} (h : List.Forall₂ R l ys) :
    ∀ x ∈ l, ∃ y, R x y := by
  induction h with
  | nil => exact fun x hx => absurd hx not_mem_nil
  | cons hxy _ ih => exact forall_mem_cons.mpr ⟨⟨_, hxy⟩, ih⟩

/-- A kept list that is read as a whole. -/
theorem read_iff {D : Device} :
    (∃ env addrs, D.launch p = .ok (.run, env) ∧
      List.Forall₂ (fun e a => Names e a ∧ readResolver (Text.trim e) = some a)
        (p.sanitizedDns D.platform) addrs ∧
      (addrs ≠ [] → resolverAddresses (env "AETHER_DNS") = addrs.eraseDups)) ↔
      ∀ e ∈ p.sanitizedDns D.platform, Written e := by
  constructor
  · rintro ⟨env, addrs, -, hread, -⟩ e he
    exact written_iff.mpr (exists_of_forall₂ hread e he)
  · intro hwritten
    obtain ⟨env, hlaunch, hvalue⟩ := launch_dns D p
    obtain ⟨addrs, hread⟩ := exists_forall₂ fun e he => written_iff.mp (hwritten e he)
    refine ⟨env, addrs, hlaunch, hread, fun haddrs => ?_⟩
    have hnil : p.sanitizedDns D.platform ≠ [] := by
      intro hnil
      rw [hnil] at hread
      exact haddrs (forall₂_nil_left_iff.mp hread)
    rw [hvalue, if_neg hnil]
    refine Socks.resolverAddresses_join hnil ?_ (hread.imp ?_)
    · intro e he c hc
      have hsep := (isEntry_of_mem he).whole c hc
      simp only [contains_cons, contains_nil, Bool.or_false, Bool.or_eq_false_iff] at hsep ⊢
      exact ⟨⟨hsep.1, hsep.2.1⟩, hsep.2.2.1⟩
    · rintro e a ⟨hnames, hread⟩
      refine ⟨?_, hread⟩
      rw [Text.trim_of_solid hnames.solid]
      exact hnames.ne_nil

/-- **The app and the engine agree where the first eight entries that match are addresses, with a
port behind a bracket, and no other resolver of the text is overlooked for want of a pattern.** -/
theorem resolvers_agree_iff {D : Device} :
    ResolversAgree D p ↔
      (∀ e ∈ (matching D.platform.flavour p.dnsServers).take maxDnsServers, Written e) ∧
      ∀ e ∈ dnsEntries p.dnsServers, Overlooked e →
        maxDnsServers ≤ (matching D.platform.flavour p.dnsServers).length := by
  have hlength : (p.sanitizedDns D.platform).length = maxDnsServers ↔
      maxDnsServers ≤ (matching D.platform.flavour p.dnsServers).length := by
    rw [sanitizedDns_eq, length_take]
    omega
  have hsplit : ResolversAgree D p ↔ (∀ e ∈ p.sanitizedDns D.platform, Written e) ∧
      ∀ e ∈ dnsEntries p.dnsServers, (readResolver (Text.trim e)).isSome = true →
        e ∈ p.sanitizedDns D.platform ∨ (p.sanitizedDns D.platform).length = maxDnsServers := by
    rw [← read_iff]
    exact ⟨fun hagree => ⟨hagree.read, hagree.kept⟩, fun hboth => ⟨hboth.1, hboth.2⟩⟩
  rw [hsplit, ← sanitizedDns_eq]
  refine and_congr_right fun hwritten => forall₂_congr fun e he => ?_
  rw [hlength]
  constructor
  · intro hkept hover
    obtain ⟨a, ha⟩ := hover.resolver
    obtain hmem | hfull := hkept (by rw [readResolver_iff.mpr ha]; rfl)
    · have hshape := (mem_matching.mp (mem_of_mem_take (sanitizedDns_eq D.platform p ▸ hmem))).2
      exact absurd (hwritten e hmem) (not_written_of_overlooked hover hshape)
    · exact hfull
  · intro hfull hread
    obtain ⟨a, ha⟩ := Option.isSome_iff_exists.mp hread
    by_cases hshape : DnsShape D.platform.flavour e
    · rw [sanitizedDns_eq]
      exact mem_take_or (mem_matching.mpr ⟨he, hshape⟩) maxDnsServers
    · exact .inr (hfull (overlooked_of_not_shape (readResolver_iff.mp ha) hshape))

/-- A profile with these resolvers. -/
def resolving (servers : String) : ConnectionProfile where
  dnsServers := servers.toList

/-- A bracketed address is kept and then not read, so the default resolvers are used; a bare one
would be read and is not kept. -/
theorem bracketed_resolver_replaced :
    (resolving "[2606:4700:4700::1111]").sanitizedDns .ascii = ["[2606:4700:4700::1111]".toList] ∧
    (bareDevice.launch (resolving "[2606:4700:4700::1111]")).toOption.map
      (fun r => resolverAddresses (r.2 "AETHER_DNS")) = some defaultResolvers ∧
    (resolving "2606:4700:4700::1111").sanitizedDns .ascii = [] ∧
    readResolver "2606:4700:4700::1111".toList =
      some (.v6 0x26064700470000000000000000001111 53 0 0) := by
  decide +kernel

end Aether.Profile
