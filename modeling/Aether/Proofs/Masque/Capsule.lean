/-
Capsules on the wire: what `encode_capsule` writes and what `next` takes.

`encode_capsule` fills a buffer of exactly the right size, so none of the writes whose errors
it ignores fails.  `next` takes one whole capsule off the front of the buffer or leaves the
buffer alone; on streams of capsules whose lengths a `usize` can hold, that is what
`Framing.Decodes` asks for.
-/
import Aether.Lib.Framing
import Aether.Proofs.Masque.Octets

namespace Aether

open List

/-! ### Writing a capsule -/

/-- A buffer of `size` bytes, of which `w` are written. -/
structure OctetsMut.Wrote (size : Nat) (w : Bytes) (b : OctetsMut) : Prop where
  length : b.buf.length = size
  off : b.off = w.length
  written : b.buf.take b.off = w
  fits : w.length ≤ size

namespace OctetsMut.Wrote

variable {size : Nat} {w v : Bytes} {b : OctetsMut}

theorem start (size : Nat) : Wrote size [] (withSlice (List.replicate size 0)) :=
  ⟨length_replicate, rfl, rfl, Nat.zero_le _⟩

theorem cap (h : Wrote size w b) : b.cap = size - w.length := by
  rw [OctetsMut.cap, h.length, h.off]

theorem put (h : Wrote size w b) (hv : w.length + v.length ≤ size) :
    Wrote size (w ++ v) (b.put v) := by
  have hoff := h.off
  have hlen := h.length
  refine ⟨?_, ?_, ?_, by simpa using hv⟩
  · simp only [OctetsMut.put, length_append, length_take, length_drop]
    omega
  · simp only [OctetsMut.put, length_append]
    omega
  · simp only [OctetsMut.put]
    rw [h.written, take_left']
    rw [length_append, hoff]

/-- A varint is written where there is room for it. -/
theorem putVarint {n len : Nat} (h : Wrote size w b) (hlen : Octets.varintLen n = some len)
    (hfit : w.length + varintLen n ≤ size) :
    ∃ e b', b.putVarint n = some (.ok b') ∧ IsVarint n e ∧ e.length = varintLen n ∧
      Wrote size (w ++ e) b' := by
  obtain ⟨hvar, hmasque⟩ := isVarint_varintBytes hlen
  have hbytes := length_varintBytes hlen
  have hroom : ¬ b.cap < len := by
    rw [h.cap]
    omega
  refine ⟨varintBytes n len, b.put (varintBytes n len), ?_, hvar, by rw [hbytes, hmasque],
    h.put (by omega)⟩
  simp [OctetsMut.putVarint, hlen, putVarintWithLen, hroom]

end OctetsMut.Wrote

/-- Two varints and some bytes fill a buffer of their size. -/
theorem OctetsMut.fill {m n lm ln : Nat} (value : Bytes) (hm : Octets.varintLen m = some lm)
    (hn : Octets.varintLen n = some ln) :
    ∃ k l b₁ b₂ b₃,
      (withSlice (List.replicate (varintLen m + varintLen n + value.length) 0)).putVarint m =
        some (.ok b₁) ∧
      b₁.putVarint n = some (.ok b₂) ∧ b₂.putBytes value = .ok b₃ ∧
      IsVarint m k ∧ IsVarint n l ∧ b₃.buf = k ++ l ++ value := by
  have hstart := Wrote.start (varintLen m + varintLen n + value.length)
  obtain ⟨k, b₁, hput₁, hvk, hlk, hw₁⟩ := hstart.putVarint hm (by simp; omega)
  obtain ⟨l, b₂, hput₂, hvl, hll, hw₂⟩ := hw₁.putVarint hn (by simp; omega)
  have hroom : ¬ b₂.cap < value.length := by
    rw [hw₂.cap]
    simp
    omega
  have hw₃ := hw₂.put (v := value) (by simp; omega)
  refine ⟨k, l, b₁, b₂, b₂.put value, hput₁, hput₂, if_neg hroom, hvk, hvl, ?_⟩
  -- the buffer is full, so it is what was written
  have hoff := hw₃.off
  have hlen := hw₃.length
  have htaken := hw₃.written
  rw [take_of_length_le] at htaken
  · simpa using htaken
  · simp at hoff
    omega

variable {kind len : Nat} {buf e tail rest value : Bytes} {t : Target} {c : WireCapsule}
  {first : UInt8}

/-- **`encode_capsule` writes every capsule whose header fields are below `2 ^ 62`.** -/
theorem encodeCapsule_ok (hkind : kind < 2 ^ 62) (hlen : value.length < 2 ^ 62) :
    ∃ e, encodeCapsule kind value = some e ∧ WireCapsule.IsEncoding { kind, value } e := by
  obtain ⟨lk, hk⟩ := Octets.exists_varintLen hkind
  obtain ⟨ll, hl⟩ := Octets.exists_varintLen hlen
  obtain ⟨k, l, b₁, b₂, b₃, hput₁, hput₂, hput₃, hvk, hvl, hbuf⟩ :=
    OctetsMut.fill value hk hl
  refine ⟨b₃.buf, ?_, k, l, hvk, hvl, hbuf⟩
  simp [encodeCapsule, appendCapsule, capsuleLen, hput₁, OctetsMut.ignoring, Except.toOption,
    hput₂, hput₃]

/-! ### Taking a capsule -/

/-- The capsule at the front of a buffer, with what follows it. -/
def takeCapsule (t : Target) (buf : Bytes) : Option (WireCapsule × Bytes) :=
  match (Octets.withSlice buf).getVarint with
  | .error _ => none
  | .ok (kind, b) =>
  match b.getVarint with
  | .error _ => none
  | .ok (len, b) =>
  if b.cap < len % 2 ^ t.usizeBits then none
  else some ({ kind, value := b.toVec.take (len % 2 ^ t.usizeBits) },
    b.toVec.drop (len % 2 ^ t.usizeBits))

theorem decodeCapsule_eq (c : WireCapsule) : decodeCapsule c.kind c.value = c.meaning := by
  obtain ⟨kind, value⟩ := c
  match kind with
  | 0 | 1 | 2 | 3 => rfl
  | kind + 4 => simp [decodeCapsule, WireCapsule.meaning, capsuleAddressAssign,
      capsuleAddressRequest, capsuleRouteAdvertisement, capsuleDatagram]

/-- **`next` takes the capsule at the front, or leaves the buffer as it is.** -/
theorem CapsuleParser.next_eq (t : Target) (p : CapsuleParser) :
    p.next t =
      match takeCapsule t p.buf with
      | none => (.ok none, p)
      | some (c, rest) => (some <$> c.meaning, { buf := rest }) := by
  unfold next takeCapsule
  cases hkind : (Octets.withSlice p.buf).getVarint with
  | error e => rfl
  | ok r =>
    obtain ⟨kind, b₁⟩ := r
    cases hlen : b₁.getVarint with
    | error e => simp only [hlen]
    | ok r =>
      obtain ⟨len, b₂⟩ := r
      simp only [hlen]
      by_cases hcap : b₂.cap < len % 2 ^ t.usizeBits
      · simp only [if_pos hcap]
      · obtain ⟨_, -, -, hb₁⟩ := Octets.getVarint_ok hkind
        obtain ⟨_, -, -, hb₂⟩ := Octets.getVarint_ok hlen
        have hbuf : b₂.buf = p.buf := hb₂.trans hb₁
        simp only [if_neg hcap, Octets.getBytes, Octets.toVec, Octets.withSlice, drop_zero,
          drop_drop, hbuf, ← decodeCapsule_eq]

/-- The buffer begins with the two fields of a header, and `tail` is what follows. -/
def Declares (buf : Bytes) (kind len : Nat) (tail : Bytes) : Prop :=
  ∃ k l, IsVarint kind k ∧ IsVarint len l ∧ buf = k ++ (l ++ tail)

/-- Behind the two header fields, the length decides. -/
theorem Declares.takeCapsule (h : Declares buf kind len tail) :
    takeCapsule t buf =
      if tail.length < len % 2 ^ t.usizeBits then none
      else some ({ kind, value := tail.take (len % 2 ^ t.usizeBits) },
        tail.drop (len % 2 ^ t.usizeBits)) := by
  obtain ⟨k, l, hk, hl, rfl⟩ := h
  obtain ⟨b₁, hkind, hvec⟩ := Octets.getVarint_whole (b := .withSlice (k ++ (l ++ tail))) hk rfl
  obtain ⟨b₂, hlen, htail⟩ := Octets.getVarint_whole hl hvec
  simp only [Aether.takeCapsule, hkind, hlen, htail, ← Octets.length_toVec]

/-- A capsule is taken only behind a header. -/
theorem declares_of_takeCapsule (h : takeCapsule t buf = some (c, rest)) :
    ∃ len tail, Declares buf c.kind len tail := by
  unfold takeCapsule at h
  cases hkind : (Octets.withSlice buf).getVarint with
  | error e =>
    rw [hkind] at h
    cases h
  | ok r =>
    obtain ⟨kind, b₁⟩ := r
    simp only [hkind] at h
    cases hlen : b₁.getVarint with
    | error e =>
      rw [hlen] at h
      cases h
    | ok r =>
      obtain ⟨len, b₂⟩ := r
      simp only [hlen] at h
      obtain ⟨k, hk, hbuf, -⟩ := Octets.getVarint_ok hkind
      obtain ⟨l, hl, hrest, -⟩ := Octets.getVarint_ok hlen
      split at h
      · cases h
      · cases h
        exact ⟨len, b₂.toVec, k, l, hk, hl, by rw [← hrest]; exact hbuf⟩

/-- A capsule takes at least two bytes. -/
theorem takeCapsule_shorter (h : takeCapsule t buf = some (c, rest)) :
    rest.length < buf.length := by
  obtain ⟨len, tail, hdecl⟩ := declares_of_takeCapsule h
  rw [hdecl.takeCapsule] at h
  obtain ⟨k, l, hk, -, rfl⟩ := hdecl
  have hpos := hk.length_pos
  split at h
  · cases h
  · obtain rfl := (Prod.mk.inj (Option.some.inj h)).2
    simp only [length_drop, length_append]
    omega

/-! ### The declared length -/

/-- No encoding is the beginning of another one. -/
theorem IsVarint.append_inj {v v' : Nat} {e' rest' : Bytes} (h : IsVarint v e)
    (h' : IsVarint v' e') (heq : e ++ rest = e' ++ rest') : v = v' ∧ rest = rest' := by
  obtain ⟨b, hread, hrest⟩ := Octets.getVarint_whole (b := .withSlice (e ++ rest)) h rfl
  obtain ⟨b', hread', hrest'⟩ := Octets.getVarint_whole (b := .withSlice (e ++ rest)) h' heq
  rw [hread] at hread'
  cases hread'
  exact ⟨rfl, hrest.symm.trans hrest'⟩

theorem Declares.unique {tail' : Bytes} {kind' len' : Nat} (h : Declares buf kind len tail)
    (h' : Declares buf kind' len' tail') : len = len' ∧ tail = tail' := by
  obtain ⟨k, l, hk, hl, rfl⟩ := h
  obtain ⟨k', l', hk', hl', heq⟩ := h'
  exact hl.append_inj hl' (hk.append_inj hk' heq).2

/-- `next` returns a capsule only when as many bytes as its header declares are there, and takes
the header with exactly those. -/
def HonoursLength (t : Target) (buf : Bytes) : Prop :=
  ∀ c p, CapsuleParser.next t { buf } = (.ok (some c), p) →
    ∃ kind len tail, Declares buf kind len tail ∧ len ≤ tail.length ∧ p.buf = tail.drop len

/-- **The declared length is honoured unless `usize` cuts it off.**  Where it does, `next` takes
the remainder for the length, as soon as that many bytes are there and stand for a capsule. -/
theorem honoursLength_iff (t : Target) (buf : Bytes) :
    HonoursLength t buf ↔
      (t = .armeabiV7a → ∀ kind len tail, Declares buf kind len tail →
        len < 2 ^ 32 ∨ tail.length < len % 2 ^ 32 ∨
          ∃ e, decodeCapsule kind (tail.take (len % 2 ^ 32)) = .error e) := by
  constructor
  · rintro h rfl kind len tail hdecl
    by_contra hcut
    simp only [not_or, not_lt, not_exists] at hcut
    obtain ⟨hlarge, hthere, hmeans⟩ := hcut
    have htake := hdecl.takeCapsule (t := .armeabiV7a)
    rw [Target.usizeBits, if_neg (by omega)] at htake
    cases hdec : decodeCapsule kind (tail.take (len % 2 ^ 32)) with
    | error e => exact hmeans e hdec
    | ok c =>
      have hnext : CapsuleParser.next .armeabiV7a { buf } =
          (.ok (some c), { buf := tail.drop (len % 2 ^ 32) }) := by
        rw [CapsuleParser.next_eq, htake]
        simp only [← decodeCapsule_eq, hdec]
        rfl
      obtain ⟨_, len', tail', hdecl', hle, hdrop⟩ := h _ _ hnext
      obtain ⟨rfl, rfl⟩ := hdecl.unique hdecl'
      have hlength := congrArg List.length hdrop
      simp only [length_drop] at hlength
      omega
  · intro h c p hnext
    cases htake : takeCapsule t buf with
    | none =>
      rw [CapsuleParser.next_eq, htake] at hnext
      cases hnext
    | some x =>
      obtain ⟨w, rest⟩ := x
      obtain ⟨len, tail, hdecl⟩ := declares_of_takeCapsule htake
      have hsame := htake
      rw [hdecl.takeCapsule] at hsame
      split at hsame
      · cases hsame
      case isFalse hthere =>
        obtain ⟨hw, rfl⟩ := Prod.mk.inj (Option.some.inj hsame)
        rw [CapsuleParser.next_eq, htake] at hnext
        obtain ⟨hmeans, rfl⟩ := Prod.mk.inj hnext
        have hlen : len % 2 ^ t.usizeBits = len := by
          refine Nat.mod_eq_of_lt ?_
          cases t with
          | arm64V8a =>
            obtain ⟨_, l, -, ⟨n, hn, -, hlt, -⟩, -⟩ := hdecl
            refine hlt.trans_le (Nat.pow_le_pow_right (by decide) ?_)
            interval_cases n <;> decide
          | armeabiV7a =>
            rcases h rfl _ _ _ hdecl with hlt | hfew | ⟨e, he⟩
            · exact hlt
            · exact absurd hfew hthere
            · have hbody : w.meaning = .error e := by
                rw [← decodeCapsule_eq, ← hw]
                exact he
              rw [hbody] at hmeans
              cases hmeans
        rw [hlen] at hthere ⊢
        exact ⟨w.kind, len, tail, hdecl, by omega, rfl⟩

/-- A header that declares `2 ^ 32` bytes, and none of them. -/
theorem length_cut_off :
    CapsuleParser.next .armeabiV7a { buf := [0, 0xc0, 0, 0, 1, 0, 0, 0, 0] } =
      (.ok (some (.datagram [])), { buf := [] }) ∧
    Declares [0, 0xc0, 0, 0, 1, 0, 0, 0, 0] 0 (2 ^ 32) [] ∧
    ¬ HonoursLength .armeabiV7a [0, 0xc0, 0, 0, 1, 0, 0, 0, 0] := by
  have hnext : CapsuleParser.next .armeabiV7a { buf := [0, 0xc0, 0, 0, 1, 0, 0, 0, 0] } =
      (.ok (some (.datagram [])), { buf := [] }) := rfl
  have hdecl : Declares [0, 0xc0, 0, 0, 1, 0, 0, 0, 0] 0 (2 ^ 32) [] :=
    ⟨[0], [0xc0, 0, 0, 1, 0, 0, 0, 0], ⟨0, by decide⟩, ⟨3, by decide⟩, rfl⟩
  refine ⟨hnext, hdecl, fun h => ?_⟩
  obtain ⟨_, len, tail, hdecl', hle, -⟩ := h _ _ hnext
  obtain ⟨rfl, rfl⟩ := hdecl.unique hdecl'
  exact absurd hle (by decide)

/-! ### Streams of capsules -/

/-- An encoding of a capsule whose length a `usize` can hold. -/
structure WireCapsule.Fits (t : Target) (c : WireCapsule) (e : Bytes) : Prop where
  encoding : c.IsEncoding e
  length : c.value.length < 2 ^ t.usizeBits

theorem forall₂_fits {cs : List WireCapsule} {es : List Bytes}
    (henc : List.Forall₂ WireCapsule.IsEncoding cs es)
    (hlen : ∀ c ∈ cs, c.value.length < 2 ^ t.usizeBits) :
    List.Forall₂ (WireCapsule.Fits t) cs es := by
  induction henc with
  | nil => exact .nil
  | cons hc _ ih =>
    refine .cons ⟨hc, hlen _ (by simp)⟩ (ih fun c hmem => hlen c ?_)
    exact mem_cons_of_mem _ hmem

/-- Every list of capsules whose lengths fit is written, and what is written fits. -/
theorem exists_encodings {cs : List WireCapsule} (hkind : ∀ c ∈ cs, c.kind < 2 ^ 62)
    (hlen : ∀ c ∈ cs, c.value.length < 2 ^ min 62 t.usizeBits) :
    ∃ encs, List.Forall₂ (fun c e => encodeCapsule c.kind c.value = some e) cs encs ∧
      List.Forall₂ (WireCapsule.Fits t) cs encs := by
  induction cs with
  | nil => exact ⟨[], .nil, .nil⟩
  | cons c cs ih =>
    have hvalue := hlen c mem_cons_self
    have hvarint : c.value.length < 2 ^ 62 :=
      hvalue.trans_le (Nat.pow_le_pow_right (by decide) (Nat.min_le_left _ _))
    have husize : c.value.length < 2 ^ t.usizeBits :=
      hvalue.trans_le (Nat.pow_le_pow_right (by decide) (Nat.min_le_right _ _))
    obtain ⟨e, he, henc⟩ := encodeCapsule_ok (hkind c mem_cons_self) hvarint
    obtain ⟨encs, hencs, hfits⟩ := ih (fun c' hc' => hkind c' (mem_cons_of_mem c hc'))
      (fun c' hc' => hlen c' (mem_cons_of_mem c hc'))
    exact ⟨e :: encs, .cons he hencs, .cons ⟨henc, husize⟩ hfits⟩

theorem takeCapsule_whole (rest : Bytes) (h : c.Fits t e) :
    takeCapsule t (e ++ rest) = some (c, rest) := by
  obtain ⟨⟨k, l, hk, hl, he⟩, hlen⟩ := h
  have hdecl : Declares (e ++ rest) c.kind c.value.length (c.value ++ rest) :=
    ⟨k, l, hk, hl, by rw [he, append_assoc, append_assoc]⟩
  rw [hdecl.takeCapsule, Nat.mod_eq_of_lt hlen, if_neg (by simp), take_left, drop_left]

/-- The beginning of a list is the beginning of its first part, or goes on behind it. -/
theorem prefix_append_cases {x y : Bytes} (h : buf <+: x ++ y) :
    (buf <+: x ∧ buf ≠ x) ∨ ∃ tail, buf = x ++ tail ∧ tail <+: y := by
  by_cases hx : x <+: buf
  · right
    obtain ⟨tail, rfl⟩ := hx
    exact ⟨tail, rfl, (prefix_append_right_inj x).mp h⟩
  · left
    refine ⟨( prefix_or_prefix_of_prefix h (prefix_append x y)).resolve_right hx, ?_⟩
    intro heq
    exact hx (heq ▸ prefix_rfl)

theorem takeCapsule_cut (h : c.Fits t e) (hbuf : buf <+: e) (hne : buf ≠ e) :
    takeCapsule t buf = none := by
  obtain ⟨⟨k, l, hk, hl, he⟩, hlen⟩ := h
  rw [he, append_assoc] at hbuf hne
  rcases prefix_append_cases hbuf with ⟨hcut, hk'⟩ | ⟨tail, rfl, htail⟩
  · -- inside the kind
    have hkind : (Octets.withSlice buf).getVarint = .error .bufferTooShort :=
      Octets.getVarint_cut hk hcut hk'
    rw [takeCapsule, hkind]
  rcases prefix_append_cases htail with ⟨hcut, hl'⟩ | ⟨value, rfl, hvalue⟩
  · -- inside the length
    obtain ⟨b₁, hkind, hvec⟩ := Octets.getVarint_whole (b := .withSlice (k ++ tail)) hk rfl
    have hread := Octets.getVarint_cut hl (by rw [hvec]; exact hcut) (by rw [hvec]; exact hl')
    simp only [takeCapsule, hkind, hread]
  · -- inside the value
    have hlt : value.length < c.value.length := by
      refine Nat.lt_of_le_of_ne hvalue.length_le fun heq => hne ?_
      rw [hvalue.eq_of_length heq]
    rw [Declares.takeCapsule ⟨k, l, hk, hl, rfl⟩, Nat.mod_eq_of_lt hlen, if_pos hlt]

/-- **`next` reads every stream of capsules whose lengths a `usize` can hold.** -/
theorem decodes_takeCapsule (t : Target) :
    Framing.Decodes (takeCapsule t) (WireCapsule.Fits t) where
  whole := takeCapsule_whole
  cut := takeCapsule_cut
  empty := by
    rw [takeCapsule, Octets.getVarint_nil]
    rfl

/-! ### Datagrams -/

/-- What `encode_ip_datagram` writes: the quarter stream id, a zero and the packet. -/
theorem encodeIpDatagram_ok {s : Nat} (p : Bytes) (hs : s < 2 ^ 62) :
    ∃ e, encodeIpDatagram s p = some (.ok e) ∧ Declares e (quarterStreamId s) 0 p := by
  have hq : quarterStreamId s < 2 ^ 62 := by
    unfold quarterStreamId
    omega
  obtain ⟨lq, hlq⟩ := Octets.exists_varintLen hq
  obtain ⟨k, l, b₁, b₂, b₃, hput₁, hput₂, hput₃, hk, hl, hbuf⟩ :=
    OctetsMut.fill p hlq (show Octets.varintLen connectIpContextId = some 1 from rfl)
  refine ⟨b₃.buf, ?_, k, l, hk, hl, by rw [hbuf, append_assoc]⟩
  simp only [encodeIpDatagram, hput₁, Option.bind_eq_bind, Option.bind_some, hput₂, hput₃]
  rfl

/-- What `decode_ip_datagram` reads behind the two varints. -/
theorem Declares.decodeIpDatagram {p : Bytes} {q : Nat} (h : Declares e q 0 p) (t : Nat) :
    decodeIpDatagram e t = .ok (if q = quarterStreamId t then some p else none) := by
  obtain ⟨k, l, hk, hl, rfl⟩ := h
  obtain ⟨b₁, hread, hvec⟩ := Octets.getVarint_whole (b := .withSlice (k ++ (l ++ p))) hk rfl
  obtain ⟨b₂, hread', hp⟩ := Octets.getVarint_whole hl hvec
  have hbytes : b₂.getBytes b₂.cap = .ok (.withSlice p, { b₂ with off := b₂.off + b₂.cap }) := by
    rw [Octets.getBytes, if_neg (Nat.lt_irrefl _), ← Octets.length_toVec, hp, take_length]
  by_cases hq : q = quarterStreamId t
  · simp only [Aether.decodeIpDatagram, hread, hread', hbytes, hq, Except.mapError, bind,
      Except.bind, pure, Except.pure, connectIpContextId, ne_eq, not_true_eq_false, if_false,
      if_true]
    rfl
  · simp [Aether.decodeIpDatagram, hread, hq, Except.mapError, bind, Except.bind, pure,
      Except.pure]

/-- The first byte of an IPv4 header with its length, or of an IPv6 header. -/
def isIpFirst (first : UInt8) : Bool :=
  (first >>> 4 == 4 && decide (5 ≤ first &&& 15)) || first >>> 4 == 6

theorem isIpFirst_toNat (h : isIpFirst first = true) :
    69 ≤ first.toNat ∧ first.toNat < 80 ∨ 96 ≤ first.toNat ∧ first.toNat < 112 := by
  have hall : ∀ n < 256, isIpFirst (UInt8.ofNat n) = true →
      69 ≤ n ∧ n < 80 ∨ 96 ≤ n ∧ n < 112 := by decide +kernel
  exact hall first.toNat first.toNat_lt (by rwa [UInt8.ofNat_toNat])

theorem looksLikeIpPacket_of (h : isIpFirst first = true) (hlen : 20 ≤ (first :: tail).length) :
    looksLikeIpPacket (first :: tail) = true := by
  have hversion : (first >>> 4 == 4 || first >>> 4 == 6) = true := by
    unfold isIpFirst at h
    grind
  simp only [looksLikeIpPacket, hversion, Bool.true_and]
  exact decide_eq_true hlen

/-- **IP datagrams are framed without loss.**  A packet comes back on the stream it was sent on
and on no other, and `strip_datagram_context` finds it with a context id in front and without. -/
theorem ip_datagram_framing (s t : Nat) (p : Bytes) (hs : s < 2 ^ 62) :
    (∃ e, encodeIpDatagram s p = some (.ok e) ∧
      decodeIpDatagram e t =
        .ok (if quarterStreamId s = quarterStreamId t then some p else none)) ∧
    (20 ≤ p.length → p.head?.any isIpFirst = true →
      stripDatagramContext p = some p ∧
      ∀ z, IsVarint 0 z → stripDatagramContext (z ++ p) = some p) := by
  constructor
  · obtain ⟨e, he, hdecl⟩ := encodeIpDatagram_ok p hs
    exact ⟨e, he, hdecl.decodeIpDatagram t⟩
  · intro hlen hfirst
    cases p with
    | nil => simp at hlen
    | cons first tail =>
      have hlooks := looksLikeIpPacket_of hfirst hlen
      constructor
      · -- the first two bytes are a varint that is not zero
        have hbyte := isIpFirst_toNat hfirst
        have hone : first.toNat / 64 = 1 := by omega
        have hread := Octets.getVarint_cons (b := .withSlice (first :: tail)) rfl
        cases tail with
        | nil => simp at hlen
        | cons second rest =>
          have hnonzero : beNat [first, second] % 2 ^ (8 * 2 ^ 1 - 2) ≠ connectIpContextId := by
            have hsecond := second.toNat_lt
            simp only [beNat, length_cons, length_nil, connectIpContextId]
            omega
          have hread : (Octets.withSlice (first :: second :: rest)).getVarint =
              .ok (beNat [first, second] % 2 ^ (8 * 2 ^ 1 - 2),
                { buf := first :: second :: rest, off := 2 }) := by
            rw [hread, hone, if_neg (by simp [Octets.cap, Octets.withSlice])]
            rfl
          simp only [stripDatagramContext, hread, hlooks, hnonzero, false_and, if_false, if_true,
            isEmpty_cons, Bool.false_eq_true]
      · intro z hz
        have hne : (z ++ first :: tail).isEmpty = false := by simp
        obtain ⟨b, hread, hvec⟩ :=
          Octets.getVarint_whole (b := .withSlice (z ++ first :: tail)) hz rfl
        simp only [stripDatagramContext, hne, hread, hvec, hlooks, connectIpContextId, and_self,
          if_true, Bool.false_eq_true, if_false]

/-- A packet on stream 4, read on streams 7 and 8 and behind a context id of two bytes. -/
theorem ip_datagram_framing_packet :
    (∃ e, encodeIpDatagram 4 (0x45 :: List.replicate 19 0) = some (.ok e) ∧
      decodeIpDatagram e 7 = .ok (some (0x45 :: List.replicate 19 0))) ∧
    (∃ e, encodeIpDatagram 4 (0x45 :: List.replicate 19 0) = some (.ok e) ∧
      decodeIpDatagram e 8 = .ok none) ∧
    stripDatagramContext ([0x40, 0] ++ 0x45 :: List.replicate 19 0) =
      some (0x45 :: List.replicate 19 0) :=
  ⟨(ip_datagram_framing 4 7 _ (by decide)).1,
    (ip_datagram_framing 4 8 _ (by decide)).1,
    ((ip_datagram_framing 4 7 _ (by decide)).2 (by decide) (by decide)).2 _
      ⟨1, by decide⟩⟩

end Aether
