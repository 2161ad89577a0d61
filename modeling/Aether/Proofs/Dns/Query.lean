/-
Which names can be looked up through the tunnel.

A name without a trailing dot is written as RFC 1035 has it, by both encoders alike, and every
response that echoes it is recognised.  A trailing dot makes `build_dns_query` write the root
twice, and a label that is too long is written all the same.
-/
import Aether.Dns.Query
import Aether.Proofs.Socks.Udp
import Mathlib.Data.List.Forall2

namespace Aether.Socks

open List

/-! ### Names and questions -/

/-- The labels of a name that can be looked up. -/
structure ValidLabels (labels : List Text) : Prop where
  count : 1 ≤ labels.length ∧ labels.length ≤ 127
  label : ∀ l ∈ labels, l ≠ [] ∧ '.' ∉ l ∧ (Utf8.encode l).length ≤ 63

/-- The name with these labels, with or without a dot at the end. -/
def dotted (labels : List Text) (trailing : Bool) : Text :=
  ['.'].intercalate labels ++ if trailing then ['.'] else []

/-- A name as RFC 1035 encodes it: labels with their lengths in front, and the root. -/
def rfcName : List Bytes → Bytes
  | [] => [0]
  | label :: rest => UInt8.ofNat label.length :: (label ++ rfcName rest)

/-- The question for a name: qtype and class IN follow it. -/
def rfcQuestion (labels : List Bytes) (qtype : UInt16) : Bytes :=
  rfcName labels ++ (u16ToBe qtype ++ [0x00, 0x01])

/-- The header of a query with one question. -/
def queryHeader (id : UInt16) : Bytes :=
  u16ToBe id ++ [0x01, 0x00, 0x00, 0x01, 0x00, 0x00, 0x00, 0x00, 0x00, 0x00]

/-- A response that echoes a question, in any ASCII case: QR is set, the id is the same, and
one question is announced. -/
structure Echoes (resp : Bytes) (id : UInt16) (labels : List Bytes) (qtype : UInt16) : Prop where
  parts : ∃ header echoed more, resp = header ++ (rfcQuestion echoed qtype ++ more) ∧
    header.length = 12 ∧ slice header 0 2 = u16ToBe id ∧ header.getD 2 0 &&& 0x80 ≠ 0 ∧
    slice header 4 2 = [0x00, 0x01] ∧
    List.Forall₂ (fun a b => bytesEqIgnoreCase a b = true) echoed labels

theorem flatMap_writeLabel (labels : List Text) :
    labels.flatMap writeLabel ++ [0] = rfcName (labels.map Utf8.encode) := by
  induction labels with
  | nil => rfl
  | cons label rest ih =>
    rw [flatMap_cons, append_assoc, ih]
    rfl

theorem writeQuery_eq (id : UInt16) (labels : List Text) (qtype : UInt16) :
    writeQuery id labels qtype =
      queryHeader id ++ rfcQuestion (labels.map Utf8.encode) qtype := by
  unfold writeQuery queryHeader rfcQuestion
  rw [← flatMap_writeLabel]
  simp

variable {labels : List Text} {qtype id : UInt16} {name : Text}

theorem splitOn_dotted (h : ValidLabels labels) (trailing : Bool) :
    (dotted labels trailing).splitOn '.' = labels ++ if trailing then [[]] else [] := by
  have hne : labels ≠ [] := by
    intro hnil
    have hcount := h.count.1
    rw [hnil] at hcount
    simp at hcount
  have hsplit := splitOn_intercalate '.' (fun l hl => (h.label l hl).2.1) hne
  unfold dotted
  cases trailing with
  | false => simpa using hsplit
  | true =>
    rw [if_pos rfl, if_pos rfl, splitOn_append_cons_self, hsplit, splitOn_nil]

/-! ### Responses -/

theorem slice_left {a b : Bytes} {pos len : Nat} (h : pos + len ≤ a.length) :
    slice (a ++ b) pos len = slice a pos len := by
  unfold slice
  rw [drop_append_of_le_length (by omega), take_append_of_le_length]
  rw [length_drop]
  omega

theorem slice_right (a b c : Bytes) : slice (a ++ (b ++ c)) a.length b.length = b := by
  unfold slice
  rw [drop_left, take_left]

theorem length_eq_of_case {a b : Bytes} (h : bytesEqIgnoreCase a b = true) :
    a.length = b.length := by
  have hlower := congrArg List.length (beq_iff_eq.mp h)
  rwa [length_map, length_map] at hlower

/-- The loop over the labels stops at the root behind them. -/
theorem matchLabels_echo {echoed : List Bytes}
    (hecho : List.Forall₂ (fun a b => bytesEqIgnoreCase a b = true) echoed (labels.map Utf8.encode))
    (hlabels : ∀ l ∈ labels, l ≠ [] ∧ (Utf8.encode l).length ≤ 63) (before after : Bytes) :
    ∃ before', before ++ (rfcName echoed ++ after) = before' ++ 0 :: after ∧
      matchLabels (before ++ (rfcName echoed ++ after)) labels before.length =
        some before'.length := by
  induction labels generalizing echoed before with
  | nil =>
    cases hecho
    exact ⟨before, rfl, rfl⟩
  | cons label rest ih =>
    cases hecho with
    | @cons e _ es _ hcase hrest =>
      obtain ⟨hne, hshort⟩ := hlabels label (by simp)
      have hlen := length_eq_of_case hcase
      have hoctet : (UInt8.ofNat e.length).toNat = e.length := by
        simp
        omega
      have hresp : before ++ (rfcName (e :: es) ++ after) =
          (before ++ UInt8.ofNat e.length :: e) ++ (rfcName es ++ after) := by
        simp [rfcName]
      obtain ⟨before', heq, hmatch⟩ := ih hrest (fun l hl => hlabels l (by simp [hl]))
        (before ++ UInt8.ofNat e.length :: e)
      rw [← hresp] at heq hmatch
      refine ⟨before', heq, ?_⟩
      have hget : (before ++ (rfcName (e :: es) ++ after))[before.length]? =
          some (UInt8.ofNat e.length) := by
        simp [rfcName]
      have hslice : slice (before ++ (rfcName (e :: es) ++ after)) (before.length + 1) e.length =
          e := by
        have hright := slice_right (before ++ [UInt8.ofNat e.length]) e (rfcName es ++ after)
        rw [hresp]
        simpa using hright
      have hroom : ¬ (before ++ (rfcName (e :: es) ++ after)).length <
          before.length + 1 + e.length := by
        rw [hresp]
        simp
        omega
      have hpos : (before ++ UInt8.ofNat e.length :: e).length = before.length + 1 + e.length := by
        simp
        omega
      rw [hpos] at hmatch
      unfold matchLabels
      simp only [hget, hoctet, hslice, hcase, if_neg hne, if_neg hroom, if_true, hmatch]
      rw [if_neg (by simpa using hlen)]

/-- With the header in order, the question decides. -/
theorem answersQuery_header {header rest : Bytes} (hlen : header.length = 12)
    (hid : slice header 0 2 = u16ToBe id) (hqr : header.getD 2 0 &&& 0x80 ≠ 0)
    (hcount : slice header 4 2 = [0x00, 0x01]) :
    answersQuery (header ++ rest) id name qtype =
      match matchLabels (header ++ rest) (name.splitOn '.') 12 with
      | none => false
      | some pos =>
        if (header ++ rest)[pos]? ≠ some 0 then false
        else if (header ++ rest).length < pos + 1 + 4 then false
        else u16FromBe (slice (header ++ rest) (pos + 1) 2) = qtype := by
  have hlong : ¬ (header ++ rest).length < 12 := by
    rw [length_append]
    omega
  have hid' : u16FromBe (slice (header ++ rest) 0 2) = id := by
    rw [slice_left (by omega), hid, u16FromBe_u16ToBe]
  have hqr' : (header ++ rest).getD 2 0 &&& 0x80 ≠ 0 := by
    rwa [getD_eq_getElem?_getD, List.getElem?_append_left (by omega),
      ← getD_eq_getElem?_getD]
  have hcount' : u16FromBe (slice (header ++ rest) 4 2) = 1 := by
    rw [slice_left (by omega), hcount]
    rfl
  unfold answersQuery
  rewrite [if_neg hlong, if_neg (by simpa using hid'), if_neg hqr',
    if_neg (by simpa using hcount')]
  rfl

/-- **An echo is recognised.** -/
theorem answersQuery_echo (hname : name.splitOn '.' = labels)
    (hlabels : ∀ l ∈ labels, l ≠ [] ∧ (Utf8.encode l).length ≤ 63) {resp : Bytes}
    (hecho : Echoes resp id (labels.map Utf8.encode) qtype) :
    answersQuery resp id name qtype = true := by
  obtain ⟨header, echoed, more, rfl, hlen, hid, hqr, hcount, hcase⟩ := hecho.parts
  obtain ⟨before, hresp, hmatch⟩ := matchLabels_echo hcase hlabels header
    (u16ToBe qtype ++ ([0x00, 0x01] ++ more))
  have hquestion : rfcQuestion echoed qtype ++ more =
      rfcName echoed ++ (u16ToBe qtype ++ ([0x00, 0x01] ++ more)) := by
    simp [rfcQuestion]
  rw [answersQuery_header hlen hid hqr hcount, hname, hquestion, ← hlen, hmatch, hresp]
  have hroot :
      (before ++ 0 :: (u16ToBe qtype ++ ([0x00, 0x01] ++ more)))[before.length]? = some 0 := by
    simp
  have hroom : ¬ (before ++ 0 :: (u16ToBe qtype ++ ([0x00, 0x01] ++ more))).length <
      before.length + 1 + 4 := by
    simp
    omega
  have hqtype : slice (before ++ 0 :: (u16ToBe qtype ++ ([0x00, 0x01] ++ more)))
      (before.length + 1) 2 = u16ToBe qtype := by
    have hright := slice_right (before ++ [0]) (u16ToBe qtype) ([0x00, 0x01] ++ more)
    simpa using hright
  simp only [hroot, hqtype, u16FromBe_u16ToBe, if_neg hroom]
  simp

/-! ### Which names can be looked up -/

/-- What a name needs to be looked up: its question is the encoding of its labels, both
encoders agree, echoes are recognised by both checks; and of a label that is too long, that
nothing is sent. -/
structure Resolvable (name : Text) : Prop where
  question : ∀ labels trailing, ValidLabels labels → name = dotted labels trailing → ∀ id qtype,
    buildDnsQuery name qtype id = queryHeader id ++ rfcQuestion (labels.map Utf8.encode) qtype
  agree : ∀ labels trailing, ValidLabels labels → name = dotted labels trailing → ∀ id qtype,
    buildDnsQuery name qtype id = Dns.buildQuery name qtype id
  recognised : ∀ labels trailing, ValidLabels labels → name = dotted labels trailing →
    ∀ id qtype resp, Echoes resp id (labels.map Utf8.encode) qtype →
      dnsResponseMatches resp id name qtype = true ∧ Dns.responseMatches resp id name qtype = true
  tooLong : (∃ label ∈ name.splitOn '.', 63 < (Utf8.encode label).length) →
    ∀ last servers, (dnsExchange name last servers).1 = []

/-- A name that ends in a dot ends in an empty piece. -/
theorem nil_mem_splitOn (h : name.getLast? = some '.') : [] ∈ name.splitOn '.' := by
  obtain ⟨front, rfl⟩ := List.getLast?_eq_some_iff.mp h
  rw [splitOn_append_cons_self, splitOn_nil]
  simp

theorem length_rfcName_snoc (labels : List Bytes) :
    (rfcName (labels ++ [[]])).length = (rfcName labels).length + 1 := by
  induction labels with
  | nil => rfl
  | cons label rest ih =>
    simp only [cons_append, rfcName, length_cons, length_append, ih]
    omega

/-- With a trailing dot the root is written twice. -/
theorem buildDnsQuery_trailing (h : ValidLabels labels) (id qtype : UInt16) :
    buildDnsQuery (dotted labels true) qtype id ≠
      queryHeader id ++ rfcQuestion (labels.map Utf8.encode) qtype := by
  intro heq
  unfold buildDnsQuery at heq
  rw [splitOn_dotted h true, if_pos rfl, writeQuery_eq, map_append] at heq
  have hlen := congrArg List.length (append_cancel_left heq)
  unfold rfcQuestion at hlen
  simp only [length_append, map_singleton, Utf8.encode_nil, length_rfcName_snoc] at hlen
  omega

/-- A name that can be looked up has no long label, since a query is sent. -/
theorem Resolvable.short (h : Resolvable name) :
    ∀ label ∈ name.splitOn '.', (Utf8.encode label).length ≤ 63 := by
  intro label hmem
  by_contra hlong
  have hnone := h.tooLong ⟨label, hmem, Nat.lt_of_not_le hlong⟩ .noAnswer
    [({ ip := .v4 0x01010101, port := 53 },
      { id := 0, sends := true, responses := [], closes := false })]
  exact cons_ne_nil _ _ hnone

/-- Without the trailing dot the pieces are the labels. -/
theorem splitOn_of_noDot (hdot : name.getLast? ≠ some '.') {trailing : Bool}
    (hvalid : ValidLabels labels) (heq : name = dotted labels trailing) :
    name.splitOn '.' = labels := by
  cases trailing with
  | true =>
    exfalso
    apply hdot
    rw [heq]
    simp [dotted]
  | false => simpa [heq] using splitOn_dotted hvalid false

/-- **Which names can be looked up.**  Of the valid names and those with a label that is too
long, the ones without a trailing dot whose labels are short enough. -/
theorem resolvable_iff {name : Text}
    (hname : (∃ labels trailing, ValidLabels labels ∧ name = dotted labels trailing) ∨
      ∃ label ∈ name.splitOn '.', 63 < (Utf8.encode label).length) :
    Resolvable name ↔
      name.getLast? ≠ some '.' ∧ ∀ label ∈ name.splitOn '.', (Utf8.encode label).length ≤ 63 := by
  constructor
  · intro h
    refine ⟨fun hdot => ?_, h.short⟩
    obtain ⟨labels, trailing, hvalid, rfl⟩ | ⟨label, hmem, hlong⟩ := hname
    · cases trailing with
      | true =>
        exact buildDnsQuery_trailing hvalid 0 qtypeA (h.question labels true hvalid rfl 0 qtypeA)
      | false =>
        have hnil := nil_mem_splitOn hdot
        rw [splitOn_dotted hvalid false] at hnil
        exact (hvalid.label [] (by simpa using hnil)).1 rfl
    · have hle := h.short label hmem
      omega
  · intro h
    obtain ⟨hdot, hshort⟩ := h
    refine ⟨?_, ?_, ?_, ?_⟩
    · intro labels trailing hvalid heq id qtype
      unfold buildDnsQuery
      rw [splitOn_of_noDot hdot hvalid heq, writeQuery_eq]
    · intro labels trailing hvalid heq id qtype
      unfold buildDnsQuery Dns.buildQuery
      rw [splitOn_of_noDot hdot hvalid heq, filter_eq_self.mpr fun label hmem => by
        simpa using (hvalid.label label hmem).1]
    · intro labels trailing hvalid heq id qtype resp hecho
      have hlabels : ∀ l ∈ labels, l ≠ [] ∧ (Utf8.encode l).length ≤ 63 := fun l hl =>
        ⟨(hvalid.label l hl).1, (hvalid.label l hl).2.2⟩
      have hanswer := answersQuery_echo (splitOn_of_noDot hdot hvalid heq) hlabels hecho
      exact ⟨hanswer, hanswer⟩
    · intro hlong
      obtain ⟨label, hmem, hlt⟩ := hlong
      have hle := hshort label hmem
      omega

/-- A name of two labels can be looked up, and not with a dot behind it or with a label of 64
octets. -/
theorem resolvable_iff_labels :
    Resolvable "api.example".toList ∧ ¬ Resolvable "api.example.".toList ∧
      ¬ Resolvable (replicate 64 'a' ++ ".example".toList) := by
  have hvalid : ValidLabels ["api".toList, "example".toList] := ⟨by decide, by decide⟩
  refine ⟨?_, fun h => ?_, fun h => ?_⟩
  · exact (resolvable_iff (.inl ⟨_, false, hvalid, rfl⟩)).mpr ⟨by decide, by decide⟩
  · have hdot := ((resolvable_iff (.inl ⟨_, true, hvalid, rfl⟩)).mp h).1
    exact hdot (by decide)
  · have hlong : ∃ label ∈ (replicate 64 'a' ++ ".example".toList).splitOn '.',
        63 < (Utf8.encode label).length := by decide +kernel
    obtain ⟨label, hmem, hlt⟩ := hlong
    have hle := ((resolvable_iff (.inr ⟨label, hmem, hlt⟩)).mp h).2 label hmem
    omega

/-- With a dot behind it, the question has a zero octet too many. -/
theorem trailing_dot_malformed :
    ValidLabels ["a".toList] ∧ dotted ["a".toList] true = "a.".toList ∧
      buildDnsQuery "a.".toList qtypeA 0 =
        queryHeader 0 ++ [1, 97, 0, 0, 0, 1, 0, 1] ∧
      rfcQuestion (["a".toList].map Utf8.encode) qtypeA = [1, 97, 0, 0, 1, 0, 1] ∧
      ¬ Resolvable "a.".toList := by
  have hvalid : ValidLabels ["a".toList] := ⟨by decide, by decide⟩
  refine ⟨hvalid, by decide, by decide, by decide, fun h => ?_⟩
  exact buildDnsQuery_trailing hvalid 0 qtypeA
    (h.question ["a".toList] true hvalid (by decide) 0 qtypeA)

end Aether.Socks
