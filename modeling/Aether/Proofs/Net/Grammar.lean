/-
The texts that stand for an address.

The grammar is said here without a parser: numerals, four of them with dots, groups of hexadecimal
digits with colons, `::` for groups of zeros.  The parser of the standard library reads exactly
these texts (`readIpv4Addr_iff`, `readIpv6Addr_iff`, `parseIpAddr_iff`, `parseSocketAddr_iff`).

A part that is read ends where the next character cannot go on with it, so every statement says
what may follow.
-/
import Aether.Lib.Pieces
import Aether.Lib.Text
import Aether.Net.Addr

namespace Aether

open List

/-! ### Digits -/

variable {c : Char} {t rest w g : Text} {radix n bound maxDigits : Nat} {ip : Ipv6Addr}
  {port : UInt16} {addr : StdSocketAddr}

theorem isDigit_iff : c.isDigit = true ↔ '0' ≤ c ∧ c ≤ '9' := by
  unfold Char.isDigit
  rw [Bool.and_eq_true, decide_eq_true_eq, decide_eq_true_eq]
  exact Iff.rfl

theorem isSome_toDigit_ten : (toDigit 10 c).isSome = true ↔ c.isDigit = true := by
  rw [isDigit_iff]
  unfold toDigit
  by_cases hd : '0' ≤ c ∧ c ≤ '9'
  · have hle : c.toNat ≤ 57 := hd.2
    rw [if_pos hd]
    simp only [Option.filter, hd, and_self, iff_true]
    rw [if_pos]
    · rfl
    · rw [decide_eq_true_iff]
      show c.toNat - 48 < 10
      omega
  · -- the letters stand for ten and more
    rw [if_neg hd]
    simp only [hd, iff_false]
    split
    · simp [Option.filter]
    · split
      · simp [Option.filter]
      · simp

theorem isSome_toDigit_sixteen :
    (toDigit 16 c).isSome = true ↔
      ('0' ≤ c ∧ c ≤ '9') ∨ ('a' ≤ c ∧ c ≤ 'f') ∨ ('A' ≤ c ∧ c ≤ 'F') := by
  have hsmall : ∀ {v : Nat}, v < 16 → ((some v).filter (· < 16)).isSome = true := fun hv => by
    simp [Option.filter, hv]
  unfold toDigit
  by_cases hd : '0' ≤ c ∧ c ≤ '9'
  · have hle : c.toNat ≤ 57 := hd.2
    rw [if_pos hd]
    simp only [hd, and_self, true_or, iff_true]
    exact hsmall (show c.toNat - 48 < 16 by omega)
  · rw [if_neg hd]
    by_cases hlow : 'a' ≤ c ∧ c ≤ 'f'
    · have hle : c.toNat ≤ 102 := hlow.2
      rw [if_pos hlow]
      simp only [hlow, and_self, true_or, or_true, iff_true]
      exact hsmall (show c.toNat - 97 + 10 < 16 by omega)
    · rw [if_neg hlow]
      by_cases hup : 'A' ≤ c ∧ c ≤ 'F'
      · have hle : c.toNat ≤ 70 := hup.2
        rw [if_pos hup]
        simp only [hup, and_self, or_true, iff_true]
        exact hsmall (show c.toNat - 65 + 10 < 16 by omega)
      · rw [if_neg hup]
        simp [hd, hlow, hup]

/-! ### Numerals -/

/-- The value of a text of digits. -/
def numeralValue (radix : Nat) (g : Text) : Nat :=
  (g.filterMap (toDigit radix)).foldl (fun n d => n * radix + d) 0

/-- A number below a bound, in so many digits at most. -/
structure Numeral (radix maxDigits bound : Nat) (zeros : Bool) (g : Text) (n : Nat) : Prop where
  ne_nil : g ≠ []
  digits : ∀ c ∈ g, (toDigit radix c).isSome = true
  length : g.length ≤ maxDigits
  value : numeralValue radix g = n
  below : n < bound
  front : zeros = true ∨ g.head? ≠ some '0' ∨ g.length = 1

/-- A digit does not follow. -/
def NoDigit (radix : Nat) (rest : Text) : Prop :=
  rest.head?.any (fun c => (toDigit radix c).isSome) = false

theorem noDigit_nil (radix : Nat) : NoDigit radix [] := rfl

section Numeral

variable {radix maxDigits bound : Nat} {zeros : Bool} {g rest t : Text} {n : Nat}

theorem length_filterMap_toDigit (h : ∀ c ∈ g, (toDigit radix c).isSome = true) :
    (g.filterMap (toDigit radix)).length = g.length := by
  induction g with
  | nil => rfl
  | cons c g ih =>
    obtain ⟨d, hd⟩ := Option.isSome_iff_exists.mp (h c mem_cons_self)
    rw [filterMap_cons_some hd, length_cons, length_cons,
      ih fun c hc => h c (mem_cons_of_mem _ hc)]

theorem takeWhile_of_noDigit (hg : ∀ c ∈ g, (toDigit radix c).isSome = true)
    (hrest : NoDigit radix rest) :
    (g ++ rest).takeWhile (fun c => (toDigit radix c).isSome) = g := by
  rw [takeWhile_append_of_pos hg]
  cases rest with
  | nil => simp
  | cons c rest =>
    rw [takeWhile_cons_of_neg (by simpa [NoDigit] using hrest), append_nil]

theorem noDigit_drop (t : Text) :
    NoDigit radix (t.dropWhile fun c => (toDigit radix c).isSome) :=
  Pieces.head?_dropWhile _ t

/-- What `readNumber` makes of the digits in front. -/
theorem readNumber_append (hg : ∀ c ∈ g, (toDigit radix c).isSome = true)
    (hrest : NoDigit radix rest) {rest' : Text} :
    readNumber radix maxDigits bound zeros (g ++ rest) = some (n, rest') ↔
      Numeral radix maxDigits bound zeros g n ∧ rest = rest' := by
  unfold readNumber
  dsimp only
  rw [takeWhile_of_noDigit hg hrest, length_filterMap_toDigit hg, drop_left,
    Option.ite_none_left_eq_some, Option.ite_none_left_eq_some, Option.some.injEq, Prod.mk.injEq]
  constructor
  · rintro ⟨hbounds, hzeros, hvalue, hrest'⟩
    rw [not_or, not_or, not_lt, not_le, hvalue] at hbounds
    have hne : g ≠ [] := fun hnil => hbounds.1 (congrArg List.length hnil)
    refine ⟨⟨hne, hg, hbounds.2.1, hvalue, hbounds.2.2, ?_⟩, hrest'⟩
    rw [List.head?_append_of_ne_nil _ hne] at hzeros
    by_contra hfront
    simp only [not_or, Bool.not_eq_true, not_not] at hfront
    exact hzeros (by simp [hfront.1, hfront.2.1]; omega)
  · rintro ⟨h, rfl⟩
    have hlen := length_pos_of_ne_nil h.ne_nil
    refine ⟨?_, ?_, h.value, rfl⟩
    · have hbelow : numeralValue radix g < bound := h.value ▸ h.below
      rw [not_or, not_or, not_lt, not_le]
      exact ⟨Nat.ne_of_gt hlen, h.length, hbelow⟩
    · rw [List.head?_append_of_ne_nil _ h.ne_nil]
      obtain hz | hz | hz := h.front
      · simp [hz]
      · simp [hz]
      · simp [hz]

/-- **A number is read where a numeral stands that no digit follows.** -/
theorem readNumber_iff :
    readNumber radix maxDigits bound zeros t = some (n, rest) ↔
      ∃ g, t = g ++ rest ∧ Numeral radix maxDigits bound zeros g n ∧ NoDigit radix rest := by
  constructor
  · intro h
    have hg : ∀ c ∈ t.takeWhile (fun c => (toDigit radix c).isSome), (toDigit radix c).isSome =
        true := fun c hc => mem_takeWhile_imp (p := fun c => (toDigit radix c).isSome) hc
    rw [← takeWhile_append_dropWhile (p := fun c => (toDigit radix c).isSome) (l := t),
      readNumber_append hg (noDigit_drop t)] at h
    obtain ⟨hnumeral, rfl⟩ := h
    exact ⟨_, takeWhile_append_dropWhile.symm, hnumeral, noDigit_drop t⟩
  · rintro ⟨g, rfl, hg, hrest⟩
    exact (readNumber_append hg.digits hrest).mpr ⟨hg, rfl⟩

end Numeral

/-! ### IPv4 -/

theorem readGivenChar_iff : readGivenChar c t = some rest ↔ t = c :: rest := by
  cases t with
  | nil => simp [readGivenChar]
  | cons x t =>
    unfold readGivenChar
    split
    · next h => simp [h]
    · next h => simp [h]

theorem readSeparator_succ {α : Type} {sep : Char} {i : Nat} {inner : Text → Option (α × Text)}
    {x : α} :
    readSeparator sep (i + 1) inner t = some (x, rest) ↔
      ∃ t', t = sep :: t' ∧ inner t' = some (x, rest) := by
  show (readGivenChar sep t).bind inner = some (x, rest) ↔ _
  rw [Option.bind_eq_some_iff]
  exact exists_congr fun t' => and_congr_left fun _ => readGivenChar_iff

abbrev Octet : Text → Nat → Prop := Numeral 10 3 256 false

/-- Four octets with dots between them. -/
inductive Ipv4Text : Text → Ipv4Addr → Prop
  | mk {a b c d : Text} {na nb nc nd : Nat} (ha : Octet a na) (hb : Octet b nb) (hc : Octet c nc)
      (hd : Octet d nd) : Ipv4Text (a ++ '.' :: (b ++ '.' :: (c ++ '.' :: d)))
        (BitVec.ofNat 32 (((na * 256 + nb) * 256 + nc) * 256 + nd))

/-- A separator is not a digit. -/
theorem noDigit_cons (h : (toDigit radix c).isSome = false) (rest : Text) :
    NoDigit radix (c :: rest) := h

/-- **An IPv4 address is read where one stands that no digit follows.** -/
theorem readIpv4Addr_iff {ip : Ipv4Addr} :
    readIpv4Addr t = some (ip, rest) ↔ ∃ w, t = w ++ rest ∧ Ipv4Text w ip ∧ NoDigit 10 rest := by
  unfold readIpv4Addr
  simp only [Option.bind_eq_bind, Option.bind_eq_some_iff, Prod.exists]
  constructor
  · rintro ⟨na, t₁, h₁, nb, t₂, h₂, nc, t₃, h₃, nd, t₄, h₄, heq⟩
    cases heq
    obtain ⟨a, rfl, ha, -⟩ := readNumber_iff.mp h₁
    obtain ⟨t₁', rfl, h₂⟩ := readSeparator_succ.mp h₂
    obtain ⟨b, rfl, hb, -⟩ := readNumber_iff.mp h₂
    obtain ⟨t₂', rfl, h₃⟩ := readSeparator_succ.mp h₃
    obtain ⟨c, rfl, hc, -⟩ := readNumber_iff.mp h₃
    obtain ⟨t₃', rfl, h₄⟩ := readSeparator_succ.mp h₄
    obtain ⟨d, rfl, hd, hrest⟩ := readNumber_iff.mp h₄
    exact ⟨_, by simp only [append_assoc, cons_append], .mk ha hb hc hd, hrest⟩
  · rintro ⟨w, rfl, ⟨ha, hb, hc, hd⟩, hrest⟩
    refine ⟨_, _, readNumber_iff.mpr ⟨_, ?_, ha, noDigit_cons rfl _⟩, _, _,
      readSeparator_succ.mpr ⟨_, rfl, readNumber_iff.mpr ⟨_, rfl, hb, noDigit_cons rfl _⟩⟩, _, _,
      readSeparator_succ.mpr ⟨_, rfl, readNumber_iff.mpr ⟨_, rfl, hc, noDigit_cons rfl _⟩⟩, _, _,
      readSeparator_succ.mpr ⟨_, rfl, readNumber_iff.mpr ⟨_, rfl, hd, hrest⟩⟩, rfl⟩
    simp only [append_assoc, cons_append]

/-! ### IPv6 -/

abbrev Hextet : Text → Nat → Prop := Numeral 16 4 65536 true

/-- The separator in front of every group but the first. -/
def mark (first : Bool) : Text := if first then [] else [':']

/-- Groups, the last two of which may be written as an IPv4 address. -/
inductive Groups : Bool → Text → List Nat → Bool → Prop
  | nil {first : Bool} : Groups first [] [] false
  | quad {first : Bool} {q : Text} {ip : Ipv4Addr} (h : Ipv4Text q ip) :
      Groups first (mark first ++ q) [ip.toNat / 65536, ip.toNat % 65536] true
  | cons {first : Bool} {g w : Text} {n : Nat} {ns : List Nat} {v4 : Bool} (hg : Hextet g n)
      (hw : Groups false w ns v4) : Groups first (mark first ++ (g ++ w)) (n :: ns) v4

/-- All groups, or some with `::` for at least one group of zeros. -/
inductive Ipv6Text : Text → Ipv6Addr → Prop
  | full {w : Text} {ns : List Nat} {v4 : Bool} (h : Groups true w ns v4) (hlen : ns.length = 8) :
      Ipv6Text w (.ofSegments ns)
  | compressed {w w' : Text} {ns ns' : List Nat} {v4 : Bool} (h : Groups true w ns false)
      (h' : Groups true w' ns' v4) (hlen : ns.length + ns'.length ≤ 7) :
      Ipv6Text (w ++ ':' :: ':' :: w')
        (.ofSegments (ns ++ List.replicate (8 - ns.length - ns'.length) 0 ++ ns'))

/-- A character of an address. -/
def isAddrChar (c : Char) : Bool := (toDigit 16 c).isSome || c == '.' || c == ':'

/-- No address goes on here. -/
def AddressEnds (rest : Text) : Prop := rest.head?.any isAddrChar = false

/-- No group goes on here. -/
def Stops (rest : Text) : Prop := AddressEnds rest ∨ ∃ r, rest = ':' :: ':' :: r

theorem addressEnds_nil : AddressEnds [] := rfl

section Groups

variable {rest t w : Text} {limit left index : Nat} {radix n maxDigits bound : Nat}
  {zeros v4 : Bool} {ns : List Nat} {ip : Ipv6Addr}

/-- A digit of a smaller radix is one of radix 16. -/
theorem isSome_toDigit_16 (hle : radix ≤ 16) {c : Char} (h : (toDigit radix c).isSome = true) :
    (toDigit 16 c).isSome = true := by
  unfold toDigit at h ⊢
  obtain ⟨v, hv⟩ := Option.isSome_iff_exists.mp h
  obtain ⟨hval, hlt⟩ := Option.filter_eq_some_iff.mp hv
  rw [hval]
  have hlt' : v < radix := of_decide_eq_true hlt
  simp [Option.filter, show v < 16 by omega]

theorem readSeparator_iff {α : Type} {inner : Text → Option (α × Text)} {x : α} :
    readSeparator ':' index inner t = some (x, rest) ↔
      ∃ t', t = mark (index == 0) ++ t' ∧ inner t' = some (x, rest) := by
  cases index with
  | zero =>
    show inner t = some (x, rest) ↔ ∃ t', t = t' ∧ inner t' = some (x, rest)
    simp
  | succ i => exact readSeparator_succ

theorem Stops.noDigit (h : Stops rest) : NoDigit 16 rest := by
  obtain h | ⟨r, rfl⟩ := h
  · cases rest with
    | nil => rfl
    | cons c rest =>
      have hc : isAddrChar c = false := h
      unfold isAddrChar at hc
      rw [Bool.or_eq_false_iff, Bool.or_eq_false_iff] at hc
      exact hc.1.1
  · exact noDigit_cons rfl _

theorem NoDigit.ten (h : NoDigit 16 rest) : NoDigit 10 rest := by
  cases rest with
  | nil => rfl
  | cons c rest =>
    have hc : (toDigit 16 c).isSome = false := h
    show (toDigit 10 c).isSome = false
    by_contra hten
    rw [Bool.not_eq_false] at hten
    rw [isSome_toDigit_16 (by decide) hten] at hc
    exact nomatch hc

theorem Numeral.not_noDigit {g : Text} (h : Numeral radix maxDigits bound zeros g n) (rest : Text) :
    ¬ NoDigit radix (g ++ rest) := by
  obtain ⟨c, g, rfl⟩ := exists_cons_of_ne_nil h.ne_nil
  intro hno
  have hc : (toDigit radix c).isSome = false := hno
  rw [h.digits c mem_cons_self] at hc
  exact nomatch hc

/-- Where groups stop, no further part is read. -/
theorem Stops.readSeparator {α : Type} (h : Stops rest) {inner : Text → Option (α × Text)}
    (hinner : ∀ t, NoDigit 16 t → inner t = none) :
    Aether.readSeparator ':' index inner rest = none := by
  rw [Option.eq_none_iff_forall_ne_some]
  rintro ⟨x, after⟩ hread
  obtain ⟨t', ht', hx⟩ := readSeparator_iff.mp hread
  have hno : NoDigit 16 t' := by
    cases index with
    | zero =>
      have ht' : rest = t' := ht'
      rw [← ht']
      exact h.noDigit
    | succ i =>
      subst ht'
      obtain h | ⟨r, hr⟩ := h
      · exact nomatch (show isAddrChar ':' = false from h)
      · cases hr
        exact noDigit_cons rfl _
  rw [hinner t' hno] at hx
  exact nomatch hx

theorem readNumber_none (h : NoDigit radix t) :
    readNumber radix maxDigits bound zeros t = none := by
  rw [Option.eq_none_iff_forall_ne_some]
  rintro ⟨n, rest⟩ hread
  obtain ⟨g, rfl, hg, -⟩ := readNumber_iff.mp hread
  exact hg.not_noDigit rest h

theorem readIpv4Addr_none (h : NoDigit 10 t) : readIpv4Addr t = none := by
  rw [Option.eq_none_iff_forall_ne_some]
  rintro ⟨ip, rest⟩ hread
  obtain ⟨w, rfl, ⟨ha, -, -, -⟩, -⟩ := readIpv4Addr_iff.mp hread
  rw [append_assoc] at h
  exact ha.not_noDigit _ h

/-- Digits that no dot follows are not the beginning of an IPv4 address. -/
theorem readIpv4Addr_of_hextet {g : Text} (hg : Hextet g n) (hno : NoDigit 16 t)
    (hdot : t.head? ≠ some '.') : readIpv4Addr (g ++ t) = none := by
  rw [Option.eq_none_iff_forall_ne_some]
  rintro ⟨ip, rest⟩ hread
  obtain ⟨w, hw, hip, -⟩ := readIpv4Addr_iff.mp hread
  cases hip with
  | @mk a b c d na nb nc nd ha hb hc hd =>
    -- the digits in front are those of the first octet, so the dot would follow them
    rw [append_assoc, cons_append] at hw
    have hleft := takeWhile_of_noDigit hg.digits hno
    rw [hw, takeWhile_of_noDigit (fun c hc => isSome_toDigit_16 (by decide) (ha.digits c hc))
      (noDigit_cons rfl _)] at hleft
    subst hleft
    rw [append_cancel_left hw] at hdot
    exact hdot rfl

theorem Stops.head_ne_dot (h : Stops rest) : rest.head? ≠ some '.' := by
  intro hdot
  obtain h | ⟨r, rfl⟩ := h
  · rw [AddressEnds, hdot] at h
    exact nomatch h
  · exact nomatch hdot

/-- What follows a group: a colon, or what follows all groups. -/
theorem Groups.follows (h : Groups false w ns v4) (hrest : Stops rest) :
    NoDigit 16 (w ++ rest) ∧ (w ++ rest).head? ≠ some '.' := by
  cases h with
  | nil => exact ⟨hrest.noDigit, hrest.head_ne_dot⟩
  | quad h | cons hg hw => exact ⟨noDigit_cons rfl _, nofun⟩

/-- What `readGroups` takes is a text of groups, no more of them than there is room for. -/
theorem groups_of_readGroups (hsum : left + index = limit)
    (h : readGroups limit left index t = (ns, v4, rest)) :
    ∃ w, t = w ++ rest ∧ Groups (index == 0) w ns v4 ∧ ns.length ≤ left := by
  induction left generalizing index t ns with
  | zero =>
    cases h
    exact ⟨[], rfl, .nil, Nat.le_refl 0⟩
  | succ left ih =>
    unfold readGroups at h
    dsimp only at h
    split at h
    · next ip rest hquad =>
        cases h
        obtain ⟨hroom, hquad⟩ := Option.ite_none_right_eq_some.mp hquad
        obtain ⟨t', rfl, hread⟩ := readSeparator_iff.mp hquad
        obtain ⟨q, rfl, hq, -⟩ := readIpv4Addr_iff.mp hread
        exact ⟨mark (index == 0) ++ q, (append_assoc _ _ _).symm, .quad hq,
          by simp only [length_cons, length_nil]; omega⟩
    · split at h
      · next group after hgroup =>
          obtain ⟨rfl, htail⟩ := Prod.mk.inj h
          obtain ⟨t', rfl, hread⟩ := readSeparator_iff.mp hgroup
          obtain ⟨g, rfl, hg, -⟩ := readNumber_iff.mp hread
          obtain ⟨w, hw, hgroups, hlen⟩ := @ih after (index + 1) _ (by omega) (Prod.ext rfl htail)
          refine ⟨mark (index == 0) ++ (g ++ w), ?_, .cons hg hgroups, Nat.succ_le_succ hlen⟩
          simp only [append_assoc]
          rw [← hw]
      · cases h
        exact ⟨[], rfl, .nil, Nat.zero_le _⟩

/-- A text of groups is taken as a whole, where groups stop behind it. -/
theorem readGroups_of_groups {first : Bool} (h : Groups first w ns v4) (hrest : Stops rest) :
    ∀ {left index : Nat}, first = (index == 0) → left + index = limit → ns.length ≤ left →
      readGroups limit left index (w ++ rest) = (ns, v4, rest) := by
  induction h with
  | nil =>
    intro left index _ _ _
    cases left with
    | zero => rfl
    | succ left =>
      have hquad : ∀ i, readSeparator ':' i readIpv4Addr rest = none := fun i =>
        hrest.readSeparator fun t ht => readIpv4Addr_none ht.ten
      have hgroup : readSeparator ':' index (readNumber 16 4 65536 true) rest = none :=
        hrest.readSeparator fun t ht => readNumber_none ht
      rw [nil_append, readGroups, hquad, hgroup, ite_self]
  | @quad first q ip hq =>
    intro left index hfirst hsum hlen
    obtain ⟨left, rfl⟩ : ∃ l, left = l + 1 := Nat.exists_eq_add_one_of_ne_zero (by
      simp only [length_cons, length_nil] at hlen
      omega)
    have hroom : index + 1 < limit := by
      simp only [length_cons, length_nil] at hlen
      omega
    have hread : readSeparator ':' index readIpv4Addr (mark first ++ q ++ rest) =
        some (ip, rest) := by
      rw [hfirst]
      exact readSeparator_iff.mpr ⟨q ++ rest, append_assoc _ _ _,
        readIpv4Addr_iff.mpr ⟨q, rfl, hq, hrest.noDigit.ten⟩⟩
    rw [readGroups, if_pos hroom, hread]
  | @cons first g w n ns v4 hg hw ih =>
    intro left index hfirst hsum hlen
    obtain ⟨left, rfl⟩ : ∃ l, left = l + 1 := Nat.exists_eq_add_one_of_ne_zero (by
      simp only [length_cons] at hlen
      omega)
    obtain ⟨hno, hdot⟩ := hw.follows hrest
    have hassoc : mark first ++ (g ++ w) ++ rest = mark (index == 0) ++ (g ++ (w ++ rest)) := by
      rw [hfirst]
      simp only [append_assoc]
    have hquad : readSeparator ':' index readIpv4Addr (mark first ++ (g ++ w) ++ rest) = none := by
      rw [Option.eq_none_iff_forall_ne_some]
      rintro ⟨ip, after⟩ hread
      obtain ⟨t', ht', hip⟩ := readSeparator_iff.mp hread
      rw [hassoc] at ht'
      rw [← append_cancel_left ht', readIpv4Addr_of_hextet hg hno hdot] at hip
      exact nomatch hip
    have hgroup : readSeparator ':' index (readNumber 16 4 65536 true)
        (mark first ++ (g ++ w) ++ rest) = some (n, w ++ rest) := by
      rw [hassoc]
      exact readSeparator_iff.mpr ⟨_, rfl, readNumber_iff.mpr ⟨g, rfl, hg, hno⟩⟩
    have hnext := @ih left (index + 1) rfl (by omega) (Nat.le_of_succ_le_succ hlen)
    rw [readGroups, hquad, hgroup, ite_self]
    dsimp only
    rw [hnext]

/-- What is left to read behind the first groups. -/
theorem readIpv6Addr_short {t₁ : Text} (hread : readGroups 8 8 0 t = (ns, false, t₁))
    (hshort : ns.length ≠ 8) :
    readIpv6Addr t = some (ip, rest) ↔
      ∃ t₂, t₁ = ':' :: ':' :: t₂ ∧
        ∃ ns' v4, readGroups (7 - ns.length) (7 - ns.length) 0 t₂ = (ns', v4, rest) ∧
          ip = .ofSegments (ns ++ List.replicate (8 - ns.length - ns'.length) 0 ++ ns') := by
  have hlimit : 8 - (ns.length + 1) = 7 - ns.length := by omega
  unfold readIpv6Addr
  rw [hread]
  dsimp only
  rw [if_neg hshort, if_neg Bool.false_ne_true]
  simp only [Option.bind_eq_bind, Option.bind_eq_some_iff, readGivenChar_iff, hlimit]
  constructor
  · rintro ⟨t', rfl, t₂, rfl, h⟩
    refine ⟨t₂, rfl, ?_⟩
    generalize readGroups (7 - ns.length) (7 - ns.length) 0 t₂ = tail at h
    obtain ⟨ns', v4, t₃⟩ := tail
    cases h
    exact ⟨ns', v4, rfl, rfl⟩
  · rintro ⟨t₂, rfl, ns', v4, htail, rfl⟩
    refine ⟨_, rfl, t₂, rfl, ?_⟩
    rw [htail]
    rfl

/-- **An IPv6 address is read where one stands and ends.** -/
theorem readIpv6Addr_iff (hrest : AddressEnds rest) :
    readIpv6Addr t = some (ip, rest) ↔ ∃ w, t = w ++ rest ∧ Ipv6Text w ip := by
  constructor
  · intro h
    rcases hread : readGroups 8 8 0 t with ⟨ns, v4, t₁⟩
    obtain ⟨w, hw, hgroups, hlen⟩ := groups_of_readGroups (Nat.add_zero 8) hread
    by_cases hfull : ns.length = 8
    · unfold readIpv6Addr at h
      rw [hread] at h
      dsimp only at h
      rw [if_pos hfull] at h
      cases h
      exact ⟨w, hw, .full hgroups hfull⟩
    · cases v4 with
      | true =>
        -- an IPv4 address ends the groups, and there were too few of them
        unfold readIpv6Addr at h
        rw [hread] at h
        dsimp only at h
        rw [if_neg hfull, if_pos rfl] at h
        exact nomatch h
      | false =>
        obtain ⟨t₂, rfl, ns', v4', htail, rfl⟩ := (readIpv6Addr_short hread hfull).mp h
        obtain ⟨w', hw', hgroups', hlen'⟩ := groups_of_readGroups (Nat.add_zero _) htail
        refine ⟨w ++ ':' :: ':' :: w', ?_, .compressed hgroups hgroups' (by omega)⟩
        rw [hw, hw', append_assoc]
        rfl
  · rintro ⟨w, rfl, h⟩
    cases h with
    | @full _ ns v4 h hlen =>
      have hread : readGroups 8 8 0 (w ++ rest) = (ns, v4, rest) :=
        readGroups_of_groups h (.inl hrest) rfl rfl (Nat.le_of_eq hlen)
      unfold readIpv6Addr
      rw [hread]
      exact if_pos hlen
    | @compressed w w' ns ns' v4 h h' hlen =>
      have hread : readGroups 8 8 0 (w ++ ':' :: ':' :: w' ++ rest) =
          (ns, false, ':' :: ':' :: (w' ++ rest)) := by
        rw [append_assoc]
        exact readGroups_of_groups h (.inr ⟨_, rfl⟩) rfl rfl (by omega)
      have htail : readGroups (7 - ns.length) (7 - ns.length) 0 (w' ++ rest) = (ns', v4, rest) :=
        readGroups_of_groups h' (.inl hrest) rfl rfl (by omega)
      exact (readIpv6Addr_short hread (by omega)).mpr ⟨w' ++ rest, rfl, ns', v4, htail, rfl⟩

end Groups

/-! ### Addresses -/

inductive IpText : Text → IpAddr → Prop
  | v4 {t : Text} {ip : Ipv4Addr} (h : Ipv4Text t ip) : IpText t (.v4 ip)
  | v6 {t : Text} {ip : Ipv6Addr} (h : Ipv6Text t ip) : IpText t (.v6 ip)

/-- The first group of an IPv6 address is not an octet. -/
theorem Ipv6Text.readIpv4Addr (h : Ipv6Text t ip) : Aether.readIpv4Addr t = none := by
  have hfirst : ∀ {g w : Text} {n : Nat} {ns : List Nat} {v4 : Bool} {rest : Text}, Hextet g n →
      Groups false w ns v4 → Stops rest → Aether.readIpv4Addr (g ++ (w ++ rest)) = none :=
    fun hg hw hrest =>
      readIpv4Addr_of_hextet hg (hw.follows hrest).1 (hw.follows hrest).2
  cases h with
  | full h hlen =>
    cases h with
    | nil => exact nomatch hlen
    | quad h => exact nomatch hlen
    | @cons _ g w n ns v4 hg hw =>
      have hnone := hfirst hg hw (.inl addressEnds_nil)
      rw [append_nil] at hnone
      exact hnone
  | @compressed w w' ns ns' v4 h h' hlen =>
    cases h with
    | nil => exact readIpv4Addr_none rfl
    | @cons _ g w n ns _ hg hw =>
      have hnone := hfirst hg hw (.inr ⟨w', rfl⟩)
      rw [← append_assoc] at hnone
      exact hnone

/-- **The texts that are read as addresses.** -/
theorem parseIpAddr_iff {ip : IpAddr} : parseIpAddr t = some ip ↔ IpText t ip := by
  constructor
  · intro h
    revert h
    fun_cases parseIpAddr t <;> intro h <;> cases h
    · next v4 rest hv4 hempty =>
        obtain ⟨w, rfl, hw, -⟩ := readIpv4Addr_iff.mp hv4
        rw [List.isEmpty_iff.mp hempty, append_nil]
        exact .v4 hw
    · next _ v6 rest hv6 hempty =>
        rw [List.isEmpty_iff.mp hempty] at hv6
        obtain ⟨w, rfl, hw⟩ := (readIpv6Addr_iff addressEnds_nil).mp hv6
        rw [append_nil]
        exact .v6 hw
  · intro h
    unfold parseIpAddr
    cases h with
    | v4 h =>
      have hread := readIpv4Addr_iff.mpr ⟨t, (append_nil t).symm, h, rfl⟩
      rw [hread]
      rfl
    | v6 h =>
      have hread := (readIpv6Addr_iff addressEnds_nil).mpr ⟨t, (append_nil t).symm, h⟩
      rw [h.readIpv4Addr, hread]
      rfl

/-! ### Characters -/

theorem isAddrChar_range (h : isAddrChar c = true) : 46 ≤ c.toNat ∧ c.toNat ≤ 102 := by
  unfold isAddrChar at h
  rw [Bool.or_eq_true, Bool.or_eq_true, beq_iff_eq, beq_iff_eq, isSome_toDigit_sixteen] at h
  obtain ((h | h | h) | rfl) | rfl := h
  · have hlo : 48 ≤ c.toNat := h.1
    have hhi : c.toNat ≤ 57 := h.2
    omega
  · have hlo : 97 ≤ c.toNat := h.1
    have hhi : c.toNat ≤ 102 := h.2
    omega
  · have hlo : 65 ≤ c.toNat := h.1
    have hhi : c.toNat ≤ 70 := h.2
    omega
  · decide
  · decide

theorem isWhitespace_of_isAddrChar (h : isAddrChar c = true) : Text.isWhitespace c = false := by
  have hrange := isAddrChar_range h
  simp only [Text.isWhitespace, Bool.or_eq_false_iff, Bool.and_eq_false_iff,
    decide_eq_false_iff_not, beq_eq_false_iff_ne]
  omega

theorem solid_of_addrChars (h : ∀ c ∈ t, isAddrChar c = true) : Text.Solid t :=
  fun c hc => isWhitespace_of_isAddrChar (h c hc)

theorem isAddrChar_of_digit (hle : radix ≤ 16) (h : (toDigit radix c).isSome = true) :
    isAddrChar c = true := by
  unfold isAddrChar
  rw [isSome_toDigit_16 hle h]
  rfl

theorem Numeral.chars {zeros : Bool} (h : Numeral radix maxDigits bound zeros g n)
    (hle : radix ≤ 16) : ∀ c ∈ g, isAddrChar c = true :=
  fun c hc => isAddrChar_of_digit hle (h.digits c hc)

theorem Ipv4Text.chars {ip : Ipv4Addr} (h : Ipv4Text w ip) : ∀ c ∈ w, isAddrChar c = true := by
  have hdot : isAddrChar '.' = true := by decide
  obtain ⟨ha, hb, hc, hd⟩ := h
  simp only [forall_mem_append, forall_mem_cons]
  exact ⟨ha.chars (by decide), hdot, hb.chars (by decide), hdot, hc.chars (by decide), hdot,
    hd.chars (by decide)⟩

theorem mark_chars (first : Bool) : ∀ c ∈ mark first, isAddrChar c = true := by
  cases first with
  | true => exact nofun
  | false =>
    intro c hc
    rw [mem_singleton.mp hc]
    decide

theorem Groups.chars {first v4 : Bool} {ns : List Nat} (h : Groups first w ns v4) :
    ∀ c ∈ w, isAddrChar c = true := by
  induction h with
  | nil => exact nofun
  | quad h => exact forall_mem_append.mpr ⟨mark_chars _, h.chars⟩
  | cons hg _ ih =>
    exact forall_mem_append.mpr
      ⟨mark_chars _, forall_mem_append.mpr ⟨hg.chars (by decide), ih⟩⟩

theorem Ipv6Text.chars (h : Ipv6Text w ip) : ∀ c ∈ w, isAddrChar c = true := by
  cases h with
  | full h _ => exact h.chars
  | compressed h h' _ =>
    have hcolon : isAddrChar ':' = true := by decide
    simp only [forall_mem_append, forall_mem_cons]
    exact ⟨h.chars, hcolon, hcolon, h'.chars⟩

/-- The first character of an IPv6 address that is not a digit is a colon. -/
theorem Ipv6Text.colon (h : Ipv6Text w ip) :
    ∃ g u, w = g ++ ':' :: u ∧ ∀ c ∈ g, (toDigit 16 c).isSome = true := by
  cases h with
  | full h hlen =>
    cases h with
    | nil => exact nomatch hlen
    | quad _ => exact nomatch hlen
    | cons hg hw =>
      cases hw with
      | nil => exact nomatch hlen
      | quad _ => exact nomatch hlen
      | cons _ _ => exact ⟨_, _, rfl, hg.digits⟩
  | compressed h h' _ =>
    cases h with
    | nil => exact ⟨[], _, rfl, nofun⟩
    | cons hg hw =>
      cases hw with
      | nil | cons _ _ => exact ⟨_, _, by simp [mark]; rfl, hg.digits⟩

/-- **A text that is read as an address is written with the characters of addresses.** -/
theorem all_isAddrChar_of_parseIpAddr {ip : IpAddr} (h : parseIpAddr t = some ip) :
    t.all isAddrChar = true := by
  rw [all_eq_true]
  cases parseIpAddr_iff.mp h with
  | v4 hw => exact hw.chars
  | v6 hw => exact hw.chars

/-- Any other character keeps a text from being an address. -/
theorem parseIpAddr_eq_none (hc : c ∈ t) (hnot : isAddrChar c = false) : parseIpAddr t = none := by
  cases hparse : parseIpAddr t with
  | none => rfl
  | some ip =>
    have hchar := all_eq_true.mp (all_isAddrChar_of_parseIpAddr hparse) c hc
    rw [hnot] at hchar
    cases hchar

/-! ### Socket addresses -/

/-- A decimal number below a bound, of any length. -/
abbrev Decimal (bound : Nat) (d : Text) (n : Nat) : Prop := Numeral 10 d.length bound true d n

def PortText (d : Text) (port : UInt16) : Prop := ∃ n, Decimal 65536 d n ∧ port = UInt16.ofNat n

theorem PortText.digits {d : Text} (h : PortText d port) :
    ∀ c ∈ d, (toDigit 10 c).isSome = true := by
  obtain ⟨n, h, -⟩ := h
  exact h.digits

/-- The scope of an address, or none. -/
inductive ScopeText : Text → UInt32 → Prop
  | none : ScopeText [] 0
  | some {d : Text} {n : Nat} (h : Decimal (2 ^ 32) d n) : ScopeText ('%' :: d) (UInt32.ofNat n)

inductive SocketText : Text → StdSocketAddr → Prop
  | v4 {w d : Text} {ip : Ipv4Addr} {port : UInt16} (h : Ipv4Text w ip) (hd : PortText d port) :
      SocketText (w ++ ':' :: d) (.v4 ip port)
  | v6 {w s d : Text} {ip : Ipv6Addr} {scope : UInt32} {port : UInt16} (h : Ipv6Text w ip)
      (hs : ScopeText s scope) (hd : PortText d port) :
      SocketText ('[' :: (w ++ (s ++ ']' :: ':' :: d))) (.v6 ip port 0 scope)

theorem Numeral.resize {maxDigits' : Nat} {zeros : Bool}
    (h : Numeral radix maxDigits bound zeros g n) (hlen : g.length ≤ maxDigits') :
    Numeral radix maxDigits' bound zeros g n := { h with length := hlen }

theorem readDecimal_iff :
    readNumber 10 t.length bound true t = some (n, rest) ↔
      ∃ d, t = d ++ rest ∧ Decimal bound d n ∧ NoDigit 10 rest := by
  rw [readNumber_iff]
  constructor
  · rintro ⟨d, ht, hd, hrest⟩
    exact ⟨d, ht, hd.resize (Nat.le_refl _), hrest⟩
  · rintro ⟨d, rfl, hd, hrest⟩
    refine ⟨d, rfl, hd.resize ?_, hrest⟩
    rw [length_append]
    exact Nat.le_add_right _ _

theorem readPort_iff :
    readPort t = some (port, rest) ↔
      ∃ d, t = ':' :: (d ++ rest) ∧ PortText d port ∧ NoDigit 10 rest := by
  unfold readPort
  simp only [Option.bind_eq_bind, Option.bind_eq_some_iff, Prod.exists, readGivenChar_iff,
    readDecimal_iff]
  constructor
  · rintro ⟨t', rfl, n, t'', ⟨d, rfl, hd, hrest⟩, heq⟩
    cases heq
    exact ⟨d, rfl, ⟨n, hd, rfl⟩, hrest⟩
  · rintro ⟨d, rfl, ⟨n, hd, rfl⟩, hrest⟩
    exact ⟨_, rfl, n, rest, ⟨d, rfl, hd, hrest⟩, rfl⟩

theorem readScopeId_iff {scope : UInt32} :
    readScopeId t = some (scope, rest) ↔
      ∃ d n, t = '%' :: (d ++ rest) ∧ Decimal (2 ^ 32) d n ∧ scope = UInt32.ofNat n ∧
        NoDigit 10 rest := by
  unfold readScopeId
  simp only [Option.bind_eq_bind, Option.bind_eq_some_iff, Prod.exists, readGivenChar_iff,
    readDecimal_iff]
  constructor
  · rintro ⟨t', rfl, n, t'', ⟨d, rfl, hd, hrest⟩, heq⟩
    cases heq
    exact ⟨d, n, rfl, hd, rfl, hrest⟩
  · rintro ⟨d, n, rfl, hd, rfl, hrest⟩
    exact ⟨_, rfl, n, rest, ⟨d, rfl, hd, hrest⟩, rfl⟩

theorem readSocketAddrV4_iff :
    readSocketAddrV4 t = some (addr, rest) ↔
      ∃ w d ip port, t = w ++ ':' :: (d ++ rest) ∧ Ipv4Text w ip ∧ PortText d port ∧
        addr = .v4 ip port ∧ NoDigit 10 rest := by
  unfold readSocketAddrV4
  simp only [Option.bind_eq_bind, Option.bind_eq_some_iff, Prod.exists, readIpv4Addr_iff,
    readPort_iff]
  constructor
  · rintro ⟨ip, t₁, ⟨w, rfl, hw, -⟩, port, t₂, ⟨d, rfl, hd, hrest⟩, heq⟩
    cases heq
    exact ⟨w, d, ip, port, rfl, hw, hd, rfl, hrest⟩
  · rintro ⟨w, d, ip, port, rfl, hw, hd, rfl, hrest⟩
    exact ⟨ip, _, ⟨w, rfl, hw, noDigit_cons rfl _⟩, port, rest, ⟨d, rfl, hd, hrest⟩, rfl⟩

theorem readScopeId_none (h : t.head? ≠ some '%') : readScopeId t = none := by
  rw [Option.eq_none_iff_forall_ne_some]
  rintro ⟨scope, rest⟩ hread
  obtain ⟨d, n, rfl, -⟩ := readScopeId_iff.mp hread
  exact h rfl

theorem readSocketAddrV6_iff :
    readSocketAddrV6 t = some (addr, rest) ↔
      ∃ w s d ip scope port, t = '[' :: (w ++ (s ++ ']' :: ':' :: (d ++ rest))) ∧ Ipv6Text w ip ∧
        ScopeText s scope ∧ PortText d port ∧ addr = .v6 ip port 0 scope ∧ NoDigit 10 rest := by
  unfold readSocketAddrV6
  simp only [Option.bind_eq_bind, Option.bind_eq_some_iff, Prod.exists, readGivenChar_iff,
    readPort_iff]
  constructor
  · rintro ⟨t₁, rfl, ip, t₂, hip, h⟩
    cases hscope : readScopeId t₂ with
    | none =>
      rw [hscope] at h
      obtain ⟨t₃, ht₂, port, t₄, ⟨d, rfl, hd, hrest⟩, heq⟩ := h
      obtain rfl : t₂ = ']' :: ':' :: (d ++ t₄) := ht₂
      cases heq
      obtain ⟨w, rfl, hw⟩ := (readIpv6Addr_iff (by rfl)).mp hip
      exact ⟨w, [], d, ip, 0, port, rfl, hw, .none, hd, rfl, hrest⟩
    | some found =>
      obtain ⟨scope, t₃⟩ := found
      rw [hscope] at h
      obtain ⟨t₄, ht₃, port, t₅, ⟨d, rfl, hd, hrest⟩, heq⟩ := h
      obtain rfl : t₃ = ']' :: ':' :: (d ++ t₅) := ht₃
      obtain ⟨s, n, rfl, hs, rfl, -⟩ := readScopeId_iff.mp hscope
      cases heq
      obtain ⟨w, rfl, hw⟩ := (readIpv6Addr_iff (by rfl)).mp hip
      exact ⟨w, '%' :: s, d, ip, _, port, rfl, hw, .some hs, hd, rfl, hrest⟩
  · rintro ⟨w, s, d, ip, scope, port, rfl, hw, hs, hd, rfl, hrest⟩
    have hends : AddressEnds (s ++ ']' :: ':' :: (d ++ rest)) := by
      cases hs with
      | none => rfl
      | some _ => rfl
    refine ⟨_, rfl, ip, _, (readIpv6Addr_iff hends).mpr ⟨w, rfl, hw⟩, ?_⟩
    have hscope : (readScopeId (s ++ ']' :: ':' :: (d ++ rest))).getD
        (0, s ++ ']' :: ':' :: (d ++ rest)) = (scope, ']' :: ':' :: (d ++ rest)) := by
      cases hs with
      | none =>
        rw [readScopeId_none (by simp)]
        rfl
      | @some d' n h =>
        have hread : readScopeId ('%' :: d' ++ ']' :: ':' :: (d ++ rest)) =
            some (UInt32.ofNat n, ']' :: ':' :: (d ++ rest)) :=
          readScopeId_iff.mpr ⟨d', n, rfl, h, rfl, noDigit_cons rfl _⟩
        rw [hread]
        rfl
    rw [hscope]
    exact ⟨_, rfl, port, rest, ⟨d, rfl, hd, hrest⟩, rfl⟩

/-- An IPv4 address does not begin with a bracket. -/
theorem readSocketAddrV4_bracket (t : Text) : readSocketAddrV4 ('[' :: t) = none := by
  have hnone : readIpv4Addr ('[' :: t) = none := readIpv4Addr_none rfl
  unfold readSocketAddrV4
  rw [hnone]
  rfl

/-- **The texts that are read as socket addresses.** -/
theorem parseSocketAddr_iff : parseSocketAddr t = some addr ↔ SocketText t addr := by
  constructor
  · intro h
    revert h
    fun_cases parseSocketAddr t <;> intro h <;> cases h
    next rest hempty hread =>
      rw [List.isEmpty_iff.mp hempty] at hread
      obtain hv4 | ⟨-, hv6⟩ := Option.or_eq_some_iff.mp (Option.or_eq_orElse.trans hread)
      · obtain ⟨w, d, ip, port, rfl, hw, hd, rfl, -⟩ := readSocketAddrV4_iff.mp hv4
        rw [append_nil]
        exact .v4 hw hd
      · obtain ⟨w, s, d, ip, scope, port, rfl, hw, hs, hd, rfl, -⟩ := readSocketAddrV6_iff.mp hv6
        rw [append_nil]
        exact .v6 hw hs hd
  · intro h
    unfold parseSocketAddr
    cases h with
    | @v4 w d ip port h hd =>
      have hread := readSocketAddrV4_iff.mpr
        ⟨w, d, ip, port, by rw [append_nil], h, hd, rfl, noDigit_nil 10⟩
      rw [hread]
      rfl
    | @v6 w s d ip scope port h hs hd =>
      have hread := readSocketAddrV6_iff.mpr
        ⟨w, s, d, ip, scope, port, by rw [append_nil], h, hs, hd, rfl, noDigit_nil 10⟩
      rw [readSocketAddrV4_bracket, hread]
      rfl

end Aether
