/-
UTF-8: encoding, and decoding that replaces what is not UTF-8.

The decoder reads from the front.  Where the bytes are not a character it consumes the longest
beginning of one (at least a byte) and yields the replacement character.  An encoded text
decodes to itself, and since a byte below `0x80` is never part of a longer character, decoding
cuts at such bytes.
-/
import Mathlib.Data.List.Basic

namespace Utf8

open List

/-- The bytes of a text. -/
def encode (t : List Char) : List UInt8 := t.flatMap String.utf8EncodeChar

/-- U+FFFD. -/
def replacement : Char := '�'

/-- A byte that continues a character. -/
def isCont (b : UInt8) : Bool := 0x80 ≤ b && b < 0xc0

/-- The second bytes a lead byte of three allows. -/
def isSecond3 (b c : UInt8) : Bool :=
  if b == 0xe0 then 0xa0 ≤ c && c < 0xc0
  else if b == 0xed then 0x80 ≤ c && c < 0xa0
  else isCont c

/-- The second bytes a lead byte of four allows. -/
def isSecond4 (b c : UInt8) : Bool :=
  if b == 0xf0 then 0x90 ≤ c && c < 0xc0
  else if b == 0xf4 then 0x80 ≤ c && c < 0x90
  else isCont c

def char2 (b c : UInt8) : Char := Char.ofNat (b.toNat % 32 * 64 + c.toNat % 64)

def char3 (b c d : UInt8) : Char :=
  Char.ofNat (b.toNat % 16 * 4096 + c.toNat % 64 * 64 + d.toNat % 64)

def char4 (b c d e : UInt8) : Char :=
  Char.ofNat (b.toNat % 8 * 262144 + c.toNat % 64 * 4096 + d.toNat % 64 * 64 + e.toNat % 64)

/-- The character at the front, its first byte given, and how many bytes more it takes. -/
def decodeChar (b : UInt8) (rest : List UInt8) : Char × Nat :=
  if b < 0x80 then (Char.ofNat b.toNat, 0)
  else if 0xc2 ≤ b ∧ b < 0xe0 then
    match rest with
    | c :: _ => if isCont c then (char2 b c, 1) else (replacement, 0)
    | [] => (replacement, 0)
  else if 0xe0 ≤ b ∧ b < 0xf0 then
    match rest with
    | c :: d :: _ =>
      if isSecond3 b c then if isCont d then (char3 b c d, 2) else (replacement, 1)
      else (replacement, 0)
    | [c] => (replacement, if isSecond3 b c then 1 else 0)
    | [] => (replacement, 0)
  else if 0xf0 ≤ b ∧ b < 0xf5 then
    match rest with
    | c :: d :: e :: _ =>
      if isSecond4 b c then
        if isCont d then if isCont e then (char4 b c d e, 3) else (replacement, 2)
        else (replacement, 1)
      else (replacement, 0)
    | [c, d] => (replacement, if isSecond4 b c then if isCont d then 2 else 1 else 0)
    | [c] => (replacement, if isSecond4 b c then 1 else 0)
    | [] => (replacement, 0)
  else (replacement, 0)

/-- Decoding after `skip` more bytes. -/
def decodeFrom : (skip : Nat) → List UInt8 → List Char
  | _, [] => []
  | skip + 1, _ :: rest => decodeFrom skip rest
  | 0, b :: rest => (decodeChar b rest).1 :: decodeFrom (decodeChar b rest).2 rest

/-- `String::from_utf8_lossy`. -/
def decodeLossy (bytes : List UInt8) : List Char := decodeFrom 0 bytes

example : decodeLossy [0x61, 0xff, 0x62, 0xe2, 0x82, 0x63] =
    ['a', replacement, 'b', replacement, 'c'] := by
  decide

/-! ### Reading from the front -/

theorem decodeFrom_eq (skip : Nat) (bytes : List UInt8) :
    decodeFrom skip bytes = decodeLossy (bytes.drop skip) := by
  induction bytes generalizing skip with
  | nil => cases skip <;> rfl
  | cons b rest ih =>
    cases skip with
    | zero => rfl
    | succ skip => exact ih skip

@[simp] theorem decodeLossy_nil : decodeLossy [] = [] := rfl

theorem decodeLossy_cons (b : UInt8) (rest : List UInt8) :
    decodeLossy (b :: rest) =
      (decodeChar b rest).1 :: decodeLossy (rest.drop (decodeChar b rest).2) := by
  rw [decodeLossy, decodeFrom, decodeFrom_eq]

variable {l bytes : List UInt8} {b x c d : UInt8} {y n z : Nat} {t : List Char}

theorem decodeLossy_eq_nil : decodeLossy bytes = [] ↔ bytes = [] := by
  cases bytes with
  | nil => simp
  | cons b rest => simp [decodeLossy_cons]

/-- Induction along the characters that are read. -/
theorem decode_induction {P : List UInt8 → Prop} (nil : P [])
    (cons : ∀ b rest, P (rest.drop (decodeChar b rest).2) → P (b :: rest)) :
    ∀ bytes, P bytes := by
  intro bytes
  induction hn : bytes.length using Nat.strongRecOn generalizing bytes with
  | ind n ih =>
    cases bytes with
    | nil => exact nil
    | cons b rest =>
      apply cons
      apply ih (rest.drop (decodeChar b rest).2).length _ _ rfl
      rw [← hn, length_drop, length_cons]
      omega

theorem decodeChar_ascii (hb : b < 0x80) (rest : List UInt8) :
    decodeChar b rest = (Char.ofNat b.toNat, 0) := by
  unfold decodeChar
  rw [if_pos hb]

theorem le_of_isCont (h : isCont x) : 0x80 ≤ x := by
  unfold isCont at h
  grind

/-- The second bytes of three: neither too short nor a surrogate. -/
theorem isSecond3_iff : isSecond3 b c = true ↔ 0x80 ≤ c.toNat ∧ c.toNat < 0xc0 ∧
    (b.toNat = 0xe0 → 0xa0 ≤ c.toNat) ∧ (b.toNat = 0xed → c.toNat < 0xa0) := by
  unfold isSecond3 isCont
  simp only [beq_iff_eq, ← UInt8.toNat_inj, UInt8.le_iff_toNat_le, UInt8.lt_iff_toNat_lt]
  grind

/-- The second bytes of four: neither too short nor past the last character. -/
theorem isSecond4_iff : isSecond4 b c = true ↔ 0x80 ≤ c.toNat ∧ c.toNat < 0xc0 ∧
    (b.toNat = 0xf0 → 0x90 ≤ c.toNat) ∧ (b.toNat = 0xf4 → c.toNat < 0x90) := by
  unfold isSecond4 isCont
  simp only [beq_iff_eq, ← UInt8.toNat_inj, UInt8.le_iff_toNat_le, UInt8.lt_iff_toNat_lt]
  grind

theorem le_of_isSecond3 (h : isSecond3 b c) : 0x80 ≤ c := (isSecond3_iff.mp h).1

theorem le_of_isSecond4 (h : isSecond4 b c) : 0x80 ≤ c := (isSecond4_iff.mp h).1

/-- What is read at the front does not depend on what follows a byte below `0x80`, and does
not reach it. -/
theorem decodeChar_append (hx : x < 0x80) (b : UInt8) (l rest : List UInt8) :
    decodeChar b (l ++ x :: rest) = decodeChar b l ∧ (decodeChar b l).2 ≤ l.length := by
  have hlow : ¬ 0x80 ≤ x := UInt8.not_le.mpr hx
  have hcont := mt (@le_of_isCont x) hlow
  have hthree := mt (@le_of_isSecond3 b x) hlow
  have hfour := mt (@le_of_isSecond4 b x) hlow
  -- a character looks at three bytes more at most
  match l with
  | [] =>
    simp only [decodeChar, nil_append]
    cases rest with
    | nil => grind
    | cons _ rest => cases rest <;> grind
  | [c] | [c, d] => simp only [decodeChar, cons_append, nil_append]; grind
  | c :: d :: e :: l => simp only [decodeChar, cons_append]; grind

/-- **Decoding cuts at a byte below `0x80`.** -/
theorem decodeLossy_append (hx : x < 0x80) (l rest : List UInt8) :
    decodeLossy (l ++ x :: rest) =
      decodeLossy l ++ Char.ofNat x.toNat :: decodeLossy rest := by
  induction l using decode_induction with
  | nil =>
    show decodeLossy (x :: rest) = Char.ofNat x.toNat :: decodeLossy rest
    rw [decodeLossy_cons, decodeChar_ascii hx]
    rfl
  | cons b l ih =>
    obtain ⟨hsame, hle⟩ := decodeChar_append hx b l rest
    rw [cons_append, decodeLossy_cons, hsame, drop_append_of_le_length hle, ih,
      decodeLossy_cons]
    rfl

/-- A character that was read whole is read in the same way whatever follows. -/
theorem decodeChar_append_of_ne (h : (decodeChar b l).1 ≠ replacement) (rest : List UInt8) :
    decodeChar b (l ++ rest) = decodeChar b l ∧ (decodeChar b l).2 ≤ l.length := by
  match l with
  | [] =>
    simp only [decodeChar] at h ⊢
    grind
  | [c] | [c, d] =>
    simp only [decodeChar, cons_append, nil_append] at h ⊢
    grind
  | c :: d :: e :: l =>
    simp only [decodeChar, cons_append] at h ⊢
    grind

/-- **Decoding cuts where a text without replaced bytes ends.** -/
theorem decodeLossy_append_of_notMem (h : replacement ∉ decodeLossy l) (rest : List UInt8) :
    decodeLossy (l ++ rest) = decodeLossy l ++ decodeLossy rest := by
  induction l using decode_induction with
  | nil => rfl
  | cons b l ih =>
    rw [decodeLossy_cons, mem_cons, not_or] at h
    obtain ⟨hsame, hle⟩ := decodeChar_append_of_ne (fun heq => h.1 heq.symm) rest
    rw [cons_append, decodeLossy_cons, hsame, drop_append_of_le_length hle, ih h.2,
      decodeLossy_cons]
    rfl

/-! ### Encoded texts -/

@[simp] theorem encode_nil : encode [] = [] := rfl

@[simp] theorem encode_cons (c : Char) (t : List Char) :
    encode (c :: t) = String.utf8EncodeChar c ++ encode t := rfl

@[simp] theorem encode_append (s t : List Char) : encode (s ++ t) = encode s ++ encode t :=
  flatMap_append

theorem isCont_ofNat (hn : n < 64) : isCont (UInt8.ofNat (n + 128)) := by
  simp [isCont, UInt8.lt_iff_toNat_lt, UInt8.le_iff_toNat_le]
  omega

theorem toNat_cont (hn : n < 64) : (UInt8.ofNat (n + 128)).toNat % 64 = n := by
  simp
  omega

/-- Two bytes with the bits of a number that needs them. -/
theorem decodeChar_two {x : Nat} (hx : x < 32) (hy : y < 64) (hlow : 0x80 ≤ x * 64 + y)
    (rest : List UInt8) :
    decodeChar (UInt8.ofNat (x + 192)) (UInt8.ofNat (y + 128) :: rest) =
      (Char.ofNat (x * 64 + y), 1) := by
  have hb : (UInt8.ofNat (x + 192)).toNat = x + 192 := by simp; omega
  generalize UInt8.ofNat (x + 192) = b at hb
  have hascii : ¬ b < 0x80 := fun (h : b.toNat < 0x80) => by omega
  have hlead : 0xc2 ≤ b ∧ b < 0xe0 :=
    show 0xc2 ≤ b.toNat ∧ b.toNat < 0xe0 by omega
  simp only [decodeChar, if_neg hascii, if_pos hlead, if_pos (isCont_ofNat hy), char2,
    toNat_cont hy, show b.toNat % 32 = x by omega]

/-- Three bytes, the surrogates left out. -/
theorem decodeChar_three {x : Nat} (hx : x < 16) (hy : y < 64) (hz : z < 64)
    (hlow : 0x800 ≤ x * 4096 + y * 64 + z)
    (hvalid : x * 4096 + y * 64 + z < 0xd800 ∨ 0xdfff < x * 4096 + y * 64 + z) (rest : List UInt8) :
    decodeChar (UInt8.ofNat (x + 224)) (UInt8.ofNat (y + 128) :: UInt8.ofNat (z + 128) :: rest) =
      (Char.ofNat (x * 4096 + y * 64 + z), 2) := by
  have hsecond : isSecond3 (UInt8.ofNat (x + 224)) (UInt8.ofNat (y + 128)) :=
    isSecond3_iff.mpr (by simp; omega)
  have hb : (UInt8.ofNat (x + 224)).toNat = x + 224 := by simp; omega
  generalize UInt8.ofNat (x + 224) = b at hb hsecond
  have hascii : ¬ b < 0x80 := fun (h : b.toNat < 0x80) => by omega
  have htwo : ¬ (0xc2 ≤ b ∧ b < 0xe0) := fun (h : _ ∧ b.toNat < 0xe0) => by omega
  have hlead : 0xe0 ≤ b ∧ b < 0xf0 :=
    show 0xe0 ≤ b.toNat ∧ b.toNat < 0xf0 by omega
  simp only [decodeChar, if_neg hascii, if_neg htwo, if_pos hlead, if_pos hsecond,
    if_pos (isCont_ofNat hz), char3, toNat_cont hy, toNat_cont hz, show b.toNat % 16 = x by omega]

/-- Four bytes, up to the last character. -/
theorem decodeChar_four {w x : Nat} (hx : x < 64) (hy : y < 64) (hz : z < 64)
    (hlow : 0x10000 ≤ w * 262144 + x * 4096 + y * 64 + z)
    (hvalid : w * 262144 + x * 4096 + y * 64 + z < 0x110000) (rest : List UInt8) :
    decodeChar (UInt8.ofNat (w + 240))
        (UInt8.ofNat (x + 128) :: UInt8.ofNat (y + 128) :: UInt8.ofNat (z + 128) :: rest) =
      (Char.ofNat (w * 262144 + x * 4096 + y * 64 + z), 3) := by
  have hsecond : isSecond4 (UInt8.ofNat (w + 240)) (UInt8.ofNat (x + 128)) :=
    isSecond4_iff.mpr (by simp; omega)
  have hb : (UInt8.ofNat (w + 240)).toNat = w + 240 := by simp; omega
  generalize UInt8.ofNat (w + 240) = b at hb hsecond
  have hascii : ¬ b < 0x80 := fun (h : b.toNat < 0x80) => by omega
  have htwo : ¬ (0xc2 ≤ b ∧ b < 0xe0) := fun (h : _ ∧ b.toNat < 0xe0) => by omega
  have hthree : ¬ (0xe0 ≤ b ∧ b < 0xf0) := fun (h : _ ∧ b.toNat < 0xf0) => by omega
  have hlead : 0xf0 ≤ b ∧ b < 0xf5 :=
    show 0xf0 ≤ b.toNat ∧ b.toNat < 0xf5 by omega
  simp only [decodeChar, if_neg hascii, if_neg htwo, if_neg hthree, if_pos hlead, if_pos hsecond,
    if_pos (isCont_ofNat hy), if_pos (isCont_ofNat hz), char4, toNat_cont hx, toNat_cont hy,
    toNat_cont hz, show b.toNat % 8 = w by omega]

/-- An encoded character is read back, whatever follows. -/
theorem decodeLossy_encodeChar (c : Char) (rest : List UInt8) :
    decodeLossy (String.utf8EncodeChar c ++ rest) = c :: decodeLossy rest := by
  have hvalid : c.toNat < 0xd800 ∨ 0xdfff < c.toNat ∧ c.toNat < 0x110000 := c.valid
  have hback : Char.ofNat c.toNat = c := Char.ofNat_toNat c
  simp only [String.utf8EncodeChar, show c.val.toNat = c.toNat from rfl]
  generalize c.toNat = v at hvalid hback
  split
  · have hascii : UInt8.ofNat v < 0x80 := by
      simp [UInt8.lt_iff_toNat_lt]; omega
    have hsame : (UInt8.ofNat v).toNat = v := by simp; omega
    rw [singleton_append, decodeLossy_cons, decodeChar_ascii hascii, hsame, hback]
    rfl
  · split
    · have hv : v / 64 % 32 * 64 + v % 64 = v := by omega
      rw [cons_append, singleton_append, decodeLossy_cons,
        decodeChar_two (by omega) (by omega) (by omega), hv, hback]
      rfl
    · split
      · have hv : v / 4096 % 16 * 4096 + v / 64 % 64 * 64 + v % 64 = v := by omega
        rw [cons_append, cons_append, singleton_append, decodeLossy_cons,
          decodeChar_three (by omega) (by omega) (by omega) (by omega) (by omega), hv, hback]
        rfl
      · have hv :
            v / 262144 % 8 * 262144 + v / 4096 % 64 * 4096 + v / 64 % 64 * 64 + v % 64 = v := by
          omega
        rw [cons_append, cons_append, cons_append, singleton_append,
          decodeLossy_cons,
          decodeChar_four (by omega) (by omega) (by omega) (by omega) (by omega), hv, hback]
        rfl

/-- **An encoded text decodes to itself.** -/
theorem decodeLossy_encode (t : List Char) : decodeLossy (encode t) = t := by
  induction t with
  | nil => rfl
  | cons c t ih => rw [encode_cons, decodeLossy_encodeChar, ih]

/-- `str::from_utf8`: the text whose bytes these are. -/
def decode (bytes : List UInt8) : Option (List Char) :=
  if encode (decodeLossy bytes) = bytes then some (decodeLossy bytes) else none

/-! ### Bytes below `0x80` -/

theorem toNat_ofNat (h : n < 0xd800 ∨ 0xdfff < n ∧ n < 0x110000) : (Char.ofNat n).toNat = n := by
  unfold Char.ofNat
  rw [dif_pos h]
  rfl

theorem encodeChar_ascii {c : Char} (hc : c.toNat < 0x80) :
    String.utf8EncodeChar c = [UInt8.ofNat c.toNat] := by
  have hle : c.val.toNat ≤ 127 := by
    show c.toNat ≤ 127
    omega
  unfold String.utf8EncodeChar
  exact if_pos hle

theorem encodeChar_high {c : Char} (hc : 0x80 ≤ c.toNat) :
    ∀ x ∈ String.utf8EncodeChar c, 0x80 ≤ x := by
  have hle : ¬ c.val.toNat ≤ 127 := by
    show ¬ c.toNat ≤ 127
    omega
  intro x hx
  simp only [String.utf8EncodeChar, if_neg hle] at hx
  split at hx
  · simp at hx
    obtain rfl | rfl := hx <;> simp [UInt8.le_iff_toNat_le] <;> omega
  · split at hx
    · simp at hx
      obtain rfl | rfl | rfl := hx <;> simp [UInt8.le_iff_toNat_le] <;> omega
    · simp at hx
      obtain rfl | rfl | rfl | rfl := hx <;> simp [UInt8.le_iff_toNat_le] <;> omega

/-- A byte below `0x80` in an encoded text is a character of the text. -/
theorem encode_eq_append (hx : x < 0x80) {rest : List UInt8} (h : encode t = l ++ x :: rest) :
    ∃ t₁ t₂, t = t₁ ++ Char.ofNat x.toNat :: t₂ ∧ encode t₁ = l ∧ encode t₂ = rest := by
  have htext : t = decodeLossy l ++ Char.ofNat x.toNat :: decodeLossy rest := by
    rw [← decodeLossy_append hx, ← h, decodeLossy_encode]
  have hlt : x.toNat < 0x80 := hx
  have hbyte : String.utf8EncodeChar (Char.ofNat x.toNat) = [x] := by
    rw [encodeChar_ascii (by rw [toNat_ofNat (by omega)]; exact hlt), toNat_ofNat (by omega),
      UInt8.ofNat_toNat]
  refine ⟨_, _, htext, ?_⟩
  rw [htext, encode_append, encode_cons, hbyte, singleton_append] at h
  -- at another place the byte would make one of the texts longer than itself
  obtain ⟨m, hl, hrest⟩ | ⟨m, hl, hrest⟩ := append_eq_append_iff.mp h
  all_goals
    cases m with
    | nil => constructor <;> grind
    | cons y m =>
      obtain ⟨rfl, -⟩ := List.cons.inj hrest
      have hlonger := congrArg (List.length ∘ decodeLossy) hl
      simp [decodeLossy_append hx, decodeLossy_encode] at hlonger

theorem mem_of_mem_encode (hx : x < 0x80) (h : x ∈ encode t) : Char.ofNat x.toNat ∈ t := by
  obtain ⟨l, rest, heq⟩ := append_of_mem h
  obtain ⟨t₁, t₂, rfl, -, -⟩ := encode_eq_append hx heq
  simp

theorem char2_high (hb : 0xc2 ≤ b ∧ b < 0xe0) : 0x80 ≤ (char2 b c).toNat := by
  have hlead : 0xc2 ≤ b.toNat ∧ b.toNat < 0xe0 := hb
  rw [char2, toNat_ofNat (by omega)]
  omega

theorem char3_high (hb : 0xe0 ≤ b ∧ b < 0xf0) (hc : isSecond3 b c) :
    0x80 ≤ (char3 b c d).toNat := by
  have hlead : 0xe0 ≤ b.toNat ∧ b.toNat < 0xf0 := hb
  have hsecond := isSecond3_iff.mp hc
  rw [char3, toNat_ofNat (by omega)]
  omega

theorem char4_high {e : UInt8} (hb : 0xf0 ≤ b ∧ b < 0xf5) (hc : isSecond4 b c) :
    0x80 ≤ (char4 b c d e).toNat := by
  have hlead : 0xf0 ≤ b.toNat ∧ b.toNat < 0xf5 := hb
  have hsecond := isSecond4_iff.mp hc
  rw [char4, toNat_ofNat (by omega)]
  omega

/-- A character read from a byte of `0x80` or above is itself not below, and neither are the
bytes that it takes. -/
theorem decodeChar_high (hb : ¬ b < 0x80) (rest : List UInt8) :
    0x80 ≤ (decodeChar b rest).1.toNat ∧ ∀ x ∈ rest.take (decodeChar b rest).2, 0x80 ≤ x := by
  have hrep : 0x80 ≤ replacement.toNat := by decide
  unfold decodeChar
  rw [if_neg hb]
  split
  · next hlead =>
      have hchar := @char2_high b
      have hcont := @le_of_isCont
      match rest with
      | [] => grind
      | c :: rest => grind
  · split
    · next hlead =>
        have hchar := @char3_high b
        have hcont := @le_of_isCont
        have hsecond := @le_of_isSecond3 b
        match rest with
        | [] => grind
        | [c] => grind
        | c :: d :: rest => grind
    · split
      · next hlead =>
          have hchar := @char4_high b
          have hcont := @le_of_isCont
          have hsecond := @le_of_isSecond4 b
          match rest with
          | [] => grind
          | [c] => grind
          | [c, d] => grind
          | c :: d :: e :: rest => grind
      · simp [hrep]

/-- A character below `0x80` was read from its byte, and nothing on either side depended on
the other. -/
theorem decodeLossy_eq_append (hx : x < 0x80) {s : List Char}
    (h : decodeLossy bytes = s ++ Char.ofNat x.toNat :: t) :
    ∃ l rest, bytes = l ++ x :: rest ∧ decodeLossy l = s ∧ decodeLossy rest = t := by
  induction bytes using decode_induction generalizing s with
  | nil => simp at h
  | cons b rest ih =>
    rw [decodeLossy_cons] at h
    cases s with
    | nil =>
      obtain ⟨hchar, htail⟩ := List.cons.inj h
      have hlt : x.toNat < 0x80 := by simpa [UInt8.lt_iff_toNat_lt] using hx
      have hx' : (Char.ofNat x.toNat).toNat = x.toNat := toNat_ofNat (by omega)
      by_cases hb : b < 0x80
      · rw [decodeChar_ascii hb] at hchar htail
        have hbt : b.toNat < 0x80 := by simpa [UInt8.lt_iff_toNat_lt] using hb
        have hb' : (Char.ofNat b.toNat).toNat = b.toNat := toNat_ofNat (by omega)
        have hbx : b = x := by
          rw [← UInt8.toNat_inj, ← hb', ← hx']
          exact congrArg Char.toNat hchar
        exact ⟨[], rest, by rw [hbx]; rfl, rfl, htail⟩
      · have hhigh := (decodeChar_high hb rest).1
        rw [hchar, hx'] at hhigh
        omega
    | cons c s =>
      obtain ⟨-, htail⟩ := List.cons.inj h
      obtain ⟨l, rest', hdrop, -, hrest⟩ := ih htail
      have hbytes : b :: rest = (b :: rest.take (decodeChar b rest).2 ++ l) ++ x :: rest' := by
        rw [cons_append, cons_append, append_assoc, ← hdrop,
          take_append_drop]
      refine ⟨_, rest', hbytes, ?_, hrest⟩
      have hwhole : decodeLossy (b :: rest) = c :: s ++ Char.ofNat x.toNat :: t := by
        rw [decodeLossy_cons]
        exact h
      rw [hbytes, decodeLossy_append hx, hrest] at hwhole
      exact append_cancel_right hwhole

/-- **Bytes below `0x80` survive**, in their order. -/
theorem filter_encode_decodeLossy (bytes : List UInt8) :
    (encode (decodeLossy bytes)).filter (· < 0x80) = bytes.filter (· < 0x80) := by
  induction bytes using decode_induction with
  | nil => rfl
  | cons b rest ih =>
    rw [decodeLossy_cons, encode_cons, filter_append, ih]
    by_cases hb : b < 0x80
    · have hlt : b.toNat < 0x80 := by simpa [UInt8.lt_iff_toNat_lt] using hb
      have hsame : (Char.ofNat b.toNat).toNat = b.toNat := toNat_ofNat (by omega)
      have hchar : (Char.ofNat b.toNat).toNat < 0x80 := by omega
      rw [decodeChar_ascii hb, encodeChar_ascii hchar, hsame]
      simp [hb]
    · obtain ⟨hchar, htaken⟩ := decodeChar_high hb rest
      have hnone : (String.utf8EncodeChar (decodeChar b rest).1).filter (· < 0x80) = [] := by
        rw [filter_eq_nil_iff]
        intro x hx
        simpa using encodeChar_high hchar x hx
      have htake : (rest.take (decodeChar b rest).2).filter (· < 0x80) = [] := by
        rw [filter_eq_nil_iff]
        intro x hx
        simpa using htaken x hx
      have hrest : rest.filter (· < 0x80) =
          (rest.drop (decodeChar b rest).2).filter (· < 0x80) := by
        conv_lhs => rw [← take_append_drop (decodeChar b rest).2 rest]
        rw [filter_append, htake, nil_append]
      rw [hnone, nil_append, filter_cons_of_neg (by simpa using hb), hrest]

end Utf8
