/-
Varints: what `get_varint` reads and what `put_varint` writes.

Both are compared with `IsVarint`, which says of some bytes that they are an encoding of a
number.  `get_varint` reads any encoding, short or long, whatever follows it, and nothing of
the beginning of one; `put_varint` writes one of them.
-/
import Aether.Masque.Capsule
import Mathlib.Tactic.IntervalCases
import Mathlib.Tactic.Ring

namespace Aether

open List

/-! ### Numbers as bytes -/

theorem beNat_lt (e : Bytes) : beNat e < 256 ^ e.length := by
  induction e with
  | nil => simp [beNat]
  | cons x rest ih =>
    have hx : x.toNat < 256 := x.toNat_lt
    have hle : (x.toNat + 1) * 256 ^ rest.length ≤ 256 * 256 ^ rest.length :=
      Nat.mul_le_mul_right _ hx
    rw [Nat.add_mul, one_mul] at hle
    rw [beNat, length_cons, pow_succ']
    omega

@[simp] theorem length_beBytes (n v : Nat) : (beBytes n v).length = n := by
  induction n with
  | zero => rfl
  | succ n ih => rw [beBytes, length_cons, ih]

theorem beNat_beBytes (n v : Nat) : beNat (beBytes n v) = v % 256 ^ n := by
  induction n with
  | zero => rw [pow_zero, Nat.mod_one, beBytes, beNat]
  | succ n ih =>
    rw [beBytes, beNat, ih, length_beBytes, UInt8.toNat_ofNat', Nat.mod_pow_succ (b := 256),
      mul_comm, add_comm]

/-! ### Reading a varint -/

theorem Octets.varintParseLen_eq {first : Nat} (h : first < 256) :
    varintParseLen first = 2 ^ (first / 64) := by
  have hn : first / 64 < 4 := by omega
  have hshift : first >>> 6 = first / 64 := Nat.shiftRight_eq_div_pow first 6
  unfold varintParseLen
  rw [hshift]
  generalize first / 64 = n at hn
  interval_cases n <;> rfl

variable {first : UInt8} {b : Octets} {e tail : Bytes} {v n len : Nat}

@[simp] theorem Octets.length_toVec (b : Octets) : b.toVec.length = b.cap :=
  length_drop

/-- **What `get_varint` does**, by the first byte that is left. -/
theorem Octets.getVarint_cons (hb : b.toVec = first :: tail) :
    b.getVarint =
      if b.cap < 2 ^ (first.toNat / 64) then .error .bufferTooShort
      else .ok (beNat (b.toVec.take (2 ^ (first.toNat / 64))) %
          2 ^ (8 * 2 ^ (first.toNat / 64) - 2),
        { b with off := b.off + 2 ^ (first.toNat / 64) }) := by
  have hfirst : first.toNat < 256 := first.toNat_lt
  have hpeek : b.peekU 1 = .ok first.toNat := by
    simp [peekU, hb, beNat]
  by_cases hlen : b.cap < 2 ^ (first.toNat / 64)
  · simp [getVarint, hpeek, varintParseLen_eq hfirst, hlen, bind, Except.bind]
  · have hget : b.getU (2 ^ (first.toNat / 64)) =
        .ok (beNat (b.toVec.take (2 ^ (first.toNat / 64))),
          { b with off := b.off + 2 ^ (first.toNat / 64) }) := by
      simp [getU, peekU, hlen, bind, Except.bind, pure, Except.pure]
    simp only [getVarint, hpeek, varintParseLen_eq hfirst, bind, Except.bind, gt_iff_lt, hlen,
      if_false, hget]
    have hn : first.toNat / 64 < 4 := by omega
    generalize hdef : first.toNat / 64 = n at hn hlen
    interval_cases n
    · -- a single byte is not masked, its top bits are zero
      have hsmall : beNat (b.toVec.take 1) < 64 := by
        simp only [hb, take_succ_cons, take_zero, beNat]
        simp
        omega
      simp [Nat.mod_eq_of_lt hsmall, pure, Except.pure]
    · simp only [pure, Except.pure]
      rw [← Nat.and_two_pow_sub_one_eq_mod]
      rfl
    · simp only [pure, Except.pure]
      rw [← Nat.and_two_pow_sub_one_eq_mod]
      rfl
    · simp only [pure, Except.pure]
      rw [← Nat.and_two_pow_sub_one_eq_mod]
      rfl

theorem Octets.getVarint_nil (hb : b.toVec = []) : b.getVarint = .error .bufferTooShort := by
  have hpeek : b.peekU 1 = .error .bufferTooShort := by simp [peekU, hb]
  simp [getVarint, hpeek, bind, Except.bind]

/-- The first byte of an encoding says how long it is, and the rest of it the number. -/
theorem IsVarint.read (h : IsVarint v e) :
    ∃ first tail, e = first :: tail ∧ e.length = 2 ^ (first.toNat / 64) ∧
      v = beNat e % 2 ^ (8 * 2 ^ (first.toNat / 64) - 2) := by
  obtain ⟨n, hn, hlen, hv, he⟩ := h
  cases e with
  | nil =>
    rw [length_nil] at hlen
    exact absurd hlen (Nat.two_pow_pos n).ne
  | cons first tail =>
    have htail := beNat_lt tail
    have hhead : first.toNat / 64 = n := by
      rw [beNat] at he
      rw [length_cons] at hlen
      have htl : tail.length = 2 ^ n - 1 := by omega
      rw [htl] at htail he
      interval_cases n <;> norm_num at htail he hv <;> omega
    refine ⟨first, tail, rfl, by rw [hhead, hlen], ?_⟩
    rw [hhead, he, mul_comm, Nat.mul_add_mod, Nat.mod_eq_of_lt hv]

/-- An encoding is read as its number, and what follows it is left. -/
theorem Octets.getVarint_whole {rest : Bytes} (h : IsVarint v e) (hb : b.toVec = e ++ rest) :
    ∃ b', b.getVarint = .ok (v, b') ∧ b'.toVec = rest := by
  obtain ⟨first, tail, he, hlen, hv⟩ := h.read
  have hcons : b.toVec = first :: (tail ++ rest) := by rw [hb, he, cons_append]
  have hcap : e.length ≤ b.cap := by rw [← length_toVec, hb, length_append]; omega
  refine ⟨{ b with off := b.off + e.length }, ?_, ?_⟩
  · rw [getVarint_cons hcons, ← hlen, if_neg (by omega), hb, take_left]
    rw [hv, hlen]
  · have hdrop := congrArg (List.drop e.length) hb
    rw [toVec, drop_drop, drop_left] at hdrop
    exact hdrop

/-- Of the beginning of an encoding nothing is read. -/
theorem Octets.getVarint_cut (h : IsVarint v e) (hb : b.toVec <+: e) (hne : b.toVec ≠ e) :
    b.getVarint = .error .bufferTooShort := by
  obtain ⟨first, tail, he, hlen, -⟩ := h.read
  cases hvec : b.toVec with
  | nil => exact getVarint_nil hvec
  | cons x xs =>
    rw [hvec] at hb hne
    have hx : x = first := by
      rw [he] at hb
      exact (cons_prefix_cons.mp hb).1
    have hlt : (x :: xs).length < e.length :=
      lt_of_le_of_ne hb.length_le fun heq => hne (hb.eq_of_length heq)
    rw [getVarint_cons hvec, if_pos]
    rw [← length_toVec, hvec, hx, ← hlen]
    exact hlt

/-- The modulus of a varint of `m + 1` bytes. -/
theorem varint_modulus (m : Nat) : 2 ^ (8 * (m + 1) - 2) = 64 * 256 ^ m := by
  rw [show 8 * (m + 1) - 2 = 6 + 8 * m by omega, pow_add, pow_mul]
  norm_num

/-- Bytes as long as their first one says are an encoding. -/
theorem isVarint_take (hlen : 2 ^ (first.toNat / 64) ≤ tail.length + 1) :
    IsVarint (beNat ((first :: tail).take (2 ^ (first.toNat / 64))) %
        2 ^ (8 * 2 ^ (first.toNat / 64) - 2))
      ((first :: tail).take (2 ^ (first.toNat / 64))) := by
  have hfirst : first.toNat < 256 := first.toNat_lt
  refine ⟨first.toNat / 64, by omega, ?_, Nat.mod_lt _ (Nat.two_pow_pos _), ?_⟩
  · rw [length_take, length_cons]
    omega
  · obtain ⟨m, hm⟩ : ∃ m, 2 ^ (first.toNat / 64) = m + 1 :=
      ⟨2 ^ (first.toNat / 64) - 1, by have := Nat.two_pow_pos (first.toNat / 64); omega⟩
    rw [hm] at hlen ⊢
    have hrest := beNat_lt (tail.take m)
    have hlength : (tail.take m).length = m := by
      rw [length_take]
      omega
    rw [hlength] at hrest
    rw [varint_modulus, take_succ_cons, beNat, hlength]
    have hdiv : (first.toNat * 256 ^ m + beNat (tail.take m)) / (64 * 256 ^ m) =
        first.toNat / 64 := by
      rw [mul_comm 64, ← Nat.div_div_eq_div_mul, mul_comm, Nat.mul_add_div (by positivity),
        Nat.div_eq_of_lt hrest, add_zero]
    rw [← hdiv, mul_comm (_ / _)]
    exact (Nat.div_add_mod _ _).symm

/-- What was read as a varint is one. -/
theorem Octets.getVarint_ok {b' : Octets} (h : b.getVarint = .ok (v, b')) :
    ∃ e, IsVarint v e ∧ b.toVec = e ++ b'.toVec ∧ b'.buf = b.buf := by
  cases hvec : b.toVec with
  | nil =>
    rw [getVarint_nil hvec] at h
    cases h
  | cons first tail =>
    have hcap : b.cap = tail.length + 1 := by rw [← length_toVec, hvec, length_cons]
    rw [getVarint_cons hvec, hvec] at h
    split at h
    · cases h
    case isFalse hlong =>
      cases h
      refine ⟨_, isVarint_take (by omega), ?_, rfl⟩
      conv_lhs => rw [← take_append_drop (2 ^ (first.toNat / 64)) (first :: tail)]
      rw [← hvec, toVec, toVec, drop_drop]

theorem IsVarint.length_pos (h : IsVarint v e) : 0 < e.length := by
  obtain ⟨n, -, hlen, -⟩ := h
  exact hlen ▸ Nat.two_pow_pos n

/-! ### Writing a varint -/

/-- Setting the two top bits of a byte that has them free adds them. -/
theorem toNat_or_tag {x tag : UInt8} (hx : x.toNat < 64) (htag : tag.toNat = 64 * n) :
    (x ||| tag).toNat = 64 * n + x.toNat := by
  rw [UInt8.toNat_or, htag, Nat.or_comm]
  exact (Nat.two_pow_add_eq_or_of_lt (show x.toNat < 2 ^ 6 from hx) n).symm

/-- A number with its length in the top bits of its first byte is an encoding of it. -/
theorem isVarint_tagged (tag : UInt8) (hn : n < 4) (hv : v < 2 ^ (8 * 2 ^ n - 2))
    (htag : tag.toNat = 64 * n) : IsVarint v ((beBytes (2 ^ n) v).modifyHead (· ||| tag)) := by
  refine ⟨n, hn, by simp, hv, ?_⟩
  have hnum := beNat_beBytes (2 ^ n) v
  obtain ⟨m, hm⟩ : ∃ m, 2 ^ n = m + 1 := ⟨2 ^ n - 1, by have := Nat.two_pow_pos n; omega⟩
  rw [hm] at hnum hv ⊢
  rw [varint_modulus] at hv ⊢
  have hfit : v < 256 ^ (m + 1) := by
    rw [pow_succ]
    omega
  rw [Nat.mod_eq_of_lt hfit] at hnum
  have hhead : (UInt8.ofNat (v / 256 ^ m)).toNat < 64 := by
    have hdiv : v / 256 ^ m < 64 := Nat.div_lt_of_lt_mul (by rw [mul_comm]; exact hv)
    rw [UInt8.toNat_ofNat']
    exact Nat.lt_of_le_of_lt (Nat.mod_le _ _) hdiv
  rw [beBytes, beNat] at hnum
  rw [beBytes, modifyHead_cons, beNat, toNat_or_tag hhead htag, Nat.add_mul, add_assoc, hnum,
    length_beBytes]
  ring

/-- Every number below `2 ^ 62` has an encoding. -/
theorem Octets.exists_varintLen (h : v < 2 ^ 62) : ∃ len, Octets.varintLen v = some len := by
  have hle : v ≤ Octets.maxVarInt := by
    unfold Octets.maxVarInt
    omega
  unfold Octets.varintLen
  by_cases h1 : v ≤ 63
  · exact ⟨1, if_pos h1⟩
  rw [if_neg h1]
  by_cases h2 : v ≤ 16383
  · exact ⟨2, if_pos h2⟩
  rw [if_neg h2]
  by_cases h4 : v ≤ 1073741823
  · exact ⟨4, if_pos h4⟩
  · exact ⟨8, by rw [if_neg h4, if_pos hle]⟩

theorem OctetsMut.length_varintBytes (h : Octets.varintLen v = some len) :
    (varintBytes v len).length = len := by
  have hlen : len = 1 ∨ len = 2 ∨ len = 4 ∨ len = 8 := by
    unfold Octets.varintLen at h
    grind
  rcases hlen with hlen | hlen | hlen | hlen <;> rw [hlen] <;> simp [varintBytes]

/-- **`put_varint` writes an encoding of the number**, in as many bytes as
`masque::varint_len` says. -/
theorem OctetsMut.isVarint_varintBytes (h : Octets.varintLen v = some len) :
    IsVarint v (varintBytes v len) ∧ len = varintLen v := by
  unfold Octets.varintLen at h
  unfold Aether.varintLen
  split at h
  case isTrue hv =>
    cases h
    rw [if_pos (by omega)]
    have hplain := isVarint_tagged 0 (by decide) (show v < 2 ^ (8 * 2 ^ 0 - 2) by omega) rfl
    exact ⟨by simpa [varintBytes, beBytes] using hplain, rfl⟩
  case isFalse h1 =>
  split at h
  case isTrue hv =>
    cases h
    rw [if_neg (by omega), if_pos (by omega)]
    exact ⟨isVarint_tagged (n := 1) 0x40 (by decide) (by norm_num; omega) rfl, rfl⟩
  case isFalse h2 =>
  split at h
  case isTrue hv =>
    cases h
    rw [if_neg (by omega), if_neg (by omega), if_pos (by omega)]
    exact ⟨isVarint_tagged (n := 2) 0x80 (by decide) (by norm_num; omega) rfl, rfl⟩
  case isFalse h3 =>
  split at h
  case isTrue hv =>
    cases h
    unfold Octets.maxVarInt at hv
    rw [if_neg (by omega), if_neg (by omega), if_neg (by omega)]
    exact ⟨isVarint_tagged (n := 3) 0xc0 (by decide) (by norm_num; omega) rfl, rfl⟩
  case isFalse => cases h

end Aether
