/-
What `dechunk` makes of a body in chunks, and of a part of one.

A line of a size ends at its first CRLF, so a part of the body has the line or has no CRLF; and
behind the line it has the data or is too short.  In both cases the loop ends where the part
does.
-/
import Aether.Api.Front
import Aether.Proofs.Net.Grammar

namespace Aether.Api

open List

open Socks (cr lf)

/-! ### Chunks -/

/-- The line in front of a chunk of so many bytes: hexadecimal digits in any case, with any
number of zeros in front, and what follows from a semicolon on. -/
structure SizeLine (n : Nat) where
  digits : Text
  extension : Bytes
  ne_nil : digits ≠ []
  hex : ∀ c ∈ digits, (toDigit 16 c).isSome = true
  value : numeralValue 16 digits = n
  start : extension = [] ∨ ∃ rest, extension = 59 :: rest
  noCrlf : ∀ before after, extension ≠ before ++ cr :: lf :: after

/-- A chunk is not empty, and fits the memory. -/
structure Chunk where
  data : Bytes
  line : SizeLine data.length
  ne_nil : data ≠ []
  fits : data.length < 2 ^ 64

def SizeLine.bytes {n : Nat} (l : SizeLine n) : Bytes := Utf8.encode l.digits ++ l.extension

/-- The chunk up to the end of its data. -/
def Chunk.front (c : Chunk) : Bytes := c.line.bytes ++ cr :: lf :: c.data

def Chunk.encode (c : Chunk) : Bytes := c.front ++ [cr, lf]

/-- The chunks, the line of the last one, and the trailer. -/
def encodeChunked (chunks : List Chunk) (last : SizeLine 0) (trailer : Bytes) : Bytes :=
  chunks.flatMap Chunk.encode ++ (last.bytes ++ cr :: lf :: trailer)

/-! ### Lines -/

section Line

variable {n k : Nat} (l : SizeLine n) (rest : Bytes)

theorem SizeLine.noCrlf_bytes (before after : Bytes) : l.bytes ≠ before ++ cr :: lf :: after := by
  intro h
  have hcr : cr ∉ Utf8.encode l.digits := fun hmem =>
    absurd (l.hex _ (Utf8.mem_of_mem_encode (by decide) hmem)) (by decide)
  obtain ⟨m, rfl, hext⟩ | ⟨m, hdigits, hext⟩ := append_eq_append_iff.mp h
  · exact l.noCrlf m after hext
  · cases m with
    | nil => exact l.noCrlf [] after hext.symm
    | cons b m =>
      obtain ⟨rfl, -⟩ := cons.inj hext
      exact hcr (by rw [hdigits]; simp)

/-- The line ends where it should. -/
theorem SizeLine.splitOnce_bytes :
    Text.splitOnce [cr, lf] (l.bytes ++ cr :: lf :: rest) = some (l.bytes, rest) := by
  show Text.splitOnce [cr, lf] (l.bytes ++ ([cr, lf] ++ rest)) = _
  refine Text.splitOnce_eq fun b a heq => ?_
  by_contra hshort
  obtain ⟨m, rfl, -⟩ | ⟨m, hline, hm⟩ := append_eq_append_iff.mp heq
  · exact hshort (by simp)
  -- an earlier CRLF begins in the line, and so ends in it
  · cases m with
    | nil => exact hshort (by simp [hline])
    | cons x m =>
      obtain ⟨rfl, hnext⟩ := cons.inj hm
      cases m with
      | nil => exact absurd (cons.inj hnext).1 (by decide)
      | cons y m =>
        obtain ⟨rfl, -⟩ := cons.inj hnext
        exact l.noCrlf_bytes b m hline

/-- Less than the line and its CRLF has no CRLF. -/
theorem SizeLine.splitOnce_take (hk : k < l.bytes.length + 2) :
    Text.splitOnce [cr, lf] ((l.bytes ++ cr :: lf :: rest).take k) = none := by
  cases hcut : Text.splitOnce [cr, lf] ((l.bytes ++ cr :: lf :: rest).take k) with
  | none => rfl
  | some parts =>
    obtain ⟨before, after⟩ := parts
    have hwhole := Text.splitOnce_append hcut ((l.bytes ++ cr :: lf :: rest).drop k)
    rw [take_append_drop, l.splitOnce_bytes] at hwhole
    obtain ⟨rfl, -⟩ := Prod.mk.inj (Option.some.inj hwhole)
    have hlen := congrArg List.length (Text.eq_of_splitOnce hcut)
    simp only [length_take, length_append, length_cons, length_nil] at hlen
    omega

theorem mapM_toDigit {digits : Text} (h : ∀ c ∈ digits, (toDigit 16 c).isSome = true) :
    digits.mapM (toDigit 16) = some (digits.filterMap (toDigit 16)) := by
  induction digits with
  | nil => rfl
  | cons c digits ih =>
    obtain ⟨v, hv⟩ := Option.isSome_iff_exists.mp (h c mem_cons_self)
    rw [mapM_cons, hv, ih fun d hd => h d (mem_cons_of_mem _ hd), filterMap_cons_some hv]
    rfl

theorem SizeLine.chunkSize_bytes (hn : n < 2 ^ 64) : chunkSize l.bytes = some n := by
  have hne (x : Char) (hx : (toDigit 16 x).isSome = false) : x ∉ l.digits := fun hmem => by
    rw [l.hex x hmem] at hx
    cases hx
  have hsolid : Text.Solid l.digits := fun c hc =>
    isWhitespace_of_isAddrChar (isAddrChar_of_digit (by decide) (l.hex c hc))
  have htoken : (Utf8.decodeLossy l.bytes).takeWhile (· ≠ ';') = l.digits := by
    have hpos : ∀ c ∈ l.digits, decide (c ≠ ';') = true := fun c hc =>
      decide_eq_true fun heq => hne ';' (by decide) (heq ▸ hc)
    unfold SizeLine.bytes
    obtain hnone | ⟨rest, hrest⟩ := l.start
    · rw [hnone, append_nil, Utf8.decodeLossy_encode, takeWhile_eq_self_iff.mpr hpos]
    · rw [hrest, Utf8.decodeLossy_append (by decide), Utf8.decodeLossy_encode,
        takeWhile_append_of_pos hpos, takeWhile_cons_of_neg (by decide), append_nil]
  have hplus : l.digits.head? ≠ some '+' := fun hhead =>
    hne '+' (by decide) (mem_of_mem_head? hhead)
  unfold chunkSize usizeFromHex
  rw [htoken, Text.trim_of_solid hsolid, if_neg hplus, if_neg l.ne_nil, mapM_toDigit l.hex]
  have hvalue := l.value
  unfold numeralValue at hvalue
  simpa [hvalue] using hn

/-- A line that is there, and what follows it. -/
theorem SizeLine.dechunk_append (hn : n < 2 ^ 64) :
    dechunk (l.bytes ++ cr :: lf :: rest) =
      if 0 < n ∧ n ≤ rest.length then rest.take n ++ dechunk (rest.drop (n + 2)) else [] := by
  rw [dechunk, l.splitOnce_bytes rest]
  dsimp only
  rw [l.chunkSize_bytes hn]
  cases n with
  | zero => simp
  | succ n => simp

/-- Nothing is read from a part that ends before the data does. -/
theorem SizeLine.dechunk_take (hn : n < 2 ^ 64) (hk : n = 0 ∨ k < l.bytes.length + 2 + n) :
    dechunk ((l.bytes ++ cr :: lf :: rest).take k) = [] := by
  by_cases hline : k < l.bytes.length + 2
  · rw [dechunk, l.splitOnce_take rest hline]
  · obtain ⟨j, rfl⟩ := Nat.exists_eq_add_of_le (Nat.le_of_not_lt hline)
    rw [Nat.add_assoc, take_length_add_append, Nat.add_comm 2 j, take_succ_cons, take_succ_cons,
      l.dechunk_append _ hn, if_neg]
    rintro ⟨hpos, hle⟩
    rw [length_take] at hle
    omega

end Line

/-! ### Bodies -/

section Body

variable (c : Chunk) (chunks : List Chunk) (last : SizeLine 0) (trailer rest : Bytes)

theorem Chunk.front_append :
    c.front ++ rest = c.line.bytes ++ cr :: lf :: (c.data ++ rest) := by
  simp [Chunk.front]

theorem Chunk.length_front : c.front.length = c.line.bytes.length + 2 + c.data.length := by
  rw [Chunk.front, length_append, length_cons, length_cons]
  omega

theorem Chunk.dechunk_append : dechunk (c.front ++ rest) = c.data ++ dechunk (rest.drop 2) := by
  have hpos : 0 < c.data.length := length_pos_iff.mpr c.ne_nil
  rw [c.front_append, c.line.dechunk_append _ c.fits, if_pos ⟨hpos, by simp⟩, take_left,
    drop_length_add_append]

theorem encodeChunked_cons : encodeChunked (c :: chunks) last trailer =
    c.front ++ cr :: lf :: encodeChunked chunks last trailer := by
  simp [encodeChunked, Chunk.encode]

theorem dechunk_encodeChunked :
    dechunk (encodeChunked chunks last trailer) = chunks.flatMap Chunk.data := by
  induction chunks with
  | nil => exact (last.dechunk_append trailer (by decide)).trans (if_neg (by simp))
  | cons c chunks ih =>
    rw [encodeChunked_cons, c.dechunk_append]
    exact congrArg (c.data ++ ·) ih

/-- Where the data of a chunk ends. -/
def dataEnd (i : Nat) : Nat := ((chunks.take i).flatMap Chunk.encode ++ c.front).length

theorem dataEnd_cons (d : Chunk) (i : Nat) :
    dataEnd d (c :: chunks) (i + 1) = c.front.length + 2 + dataEnd d chunks i := by
  simp only [dataEnd, take_succ_cons, flatMap_cons, Chunk.encode, length_append, length_cons,
    length_nil]
  omega

/-- **Of a part of a body the chunks are read whose data is there.** -/
theorem dechunk_take (k : Nat) :
    ∃ n, dechunk ((encodeChunked chunks last trailer).take k) =
        (chunks.take n).flatMap Chunk.data ∧
      ∀ i c, chunks[i]? = some c → (i < n ↔ dataEnd c chunks i ≤ k) := by
  induction chunks generalizing k with
  | nil =>
    exact ⟨0, last.dechunk_take trailer (by decide) (.inl rfl), fun i c hc => by simp at hc⟩
  | cons c chunks ih =>
    rw [encodeChunked_cons]
    by_cases hk : k < c.front.length
    · refine ⟨0, ?_, fun i d hd => ?_⟩
      · rw [c.front_append]
        exact c.line.dechunk_take _ c.fits (.inr (c.length_front ▸ hk))
      · cases i with
        | zero =>
          cases hd
          simpa [dataEnd] using hk
        | succ i =>
          rw [dataEnd_cons]
          omega
    · obtain ⟨j, rfl⟩ := Nat.exists_eq_add_of_le (Nat.le_of_not_lt hk)
      obtain ⟨n, hread, hn⟩ := ih (j - 2)
      refine ⟨n + 1, ?_, fun i d hd => ?_⟩
      · rw [take_length_add_append, c.dechunk_append, drop_take]
        exact congrArg (c.data ++ ·) hread
      · cases i with
        | zero =>
          cases hd
          simp [dataEnd]
        | succ i =>
          have hlong := d.length_front
          have hend : d.front.length ≤ dataEnd d chunks i := by simp [dataEnd]
          have hiff := hn i d hd
          rw [dataEnd_cons]
          omega

end Body

theorem length_dechunk_le (body : Bytes) : (dechunk body).length ≤ body.length := by
  fun_induction dechunk body with
  | case4 body line rest hline size hpos hsize hle ih =>
    have hbody := congrArg List.length (Text.eq_of_splitOnce hline)
    simp only [length_append, length_drop, length_cons, length_take] at hbody ih ⊢
    omega
  | _ => simp

/-- **Bodies in chunks are read exactly.**  A whole body gives its chunks, a part of one the
chunks whose data it has, and nothing gives more than there is. -/
theorem chunked_bodies_exact :
    (∀ chunks last trailer,
      dechunk (encodeChunked chunks last trailer) = chunks.flatMap Chunk.data) ∧
    (∀ chunks last trailer k, ∃ n,
      dechunk ((encodeChunked chunks last trailer).take k) = (chunks.take n).flatMap Chunk.data ∧
        ∀ i c, chunks[i]? = some c → (i < n ↔ dataEnd c chunks i ≤ k)) ∧
    ∀ body, (dechunk body).length ≤ body.length :=
  ⟨dechunk_encodeChunked, dechunk_take, length_dechunk_le⟩

end Aether.Api
