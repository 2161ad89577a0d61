/-
What an upstream setting names, and that the engine reads it.

A setting is a scheme, credentials and an endpoint one after the other (`Writes`), and the engine
cuts it there (`cut_of_writes`).  The credentials are percent encoded.  The engine decodes them as
they are meant unless they stand for bytes that are no text, or a plus sign follows a percent sign,
which the number parser behind the decoder takes for a sign (`decoded_iff`).
-/
import Aether.Upstream.Setting
import Aether.Proofs.Net.Grammar

namespace Aether.Upstream

open List

/-! ### Percent encoding -/

/-- The value of a byte that is a hexadecimal digit. -/
def hexValue (b : UInt8) : Option Nat := toDigit 16 (Char.ofNat b.toNat)

/-- An escape as it is meant: two digits. -/
def hexPair (x y : UInt8) : Option UInt8 := do
  let a ← hexValue x
  let b ← hexValue y
  some (UInt8.ofNat (a * 16 + b))

/-- The bytes that percent encoded bytes stand for. -/
def unescape : Bytes → Bytes := unescapeWith hexPair

/-- Somewhere a percent sign is followed by a plus and a digit. -/
def signedEscape : Bytes → Bool
  | b :: x :: y :: rest =>
    (b == 0x25 && x == 0x2b && (hexValue y).isSome) || signedEscape (x :: y :: rest)
  | _ => false

/-- Credentials that stand for a text, written without a sign. -/
structure Plain (written : Text) : Prop where
  text : ∃ t, Utf8.encode t = unescape (Utf8.encode written)
  unsigned : signedEscape (Utf8.encode written) = false

variable {c : Char} {port : Nat} {y x b : UInt8} {t endpoint d credentials : Text}
  {user password : Option Text} {lower : Text → Text}

theorem toDigit_high (h : 0x80 ≤ c.toNat) : toDigit 16 c = none := by
  cases hdigit : toDigit 16 c with
  | none => rfl
  | some n =>
    have hsome : (toDigit 16 c).isSome = true := by rw [hdigit, Option.isSome_some]
    obtain ⟨-, hle⟩ | ⟨-, hle⟩ | ⟨-, hle⟩ := isSome_toDigit_sixteen.mp hsome
    · have hle : c.toNat ≤ 57 := hle
      omega
    · have hle : c.toNat ≤ 102 := hle
      omega
    · have hle : c.toNat ≤ 70 := hle
      omega

theorem toDigit_lt {radix n : Nat} (h : toDigit radix c = some n) : n < radix := by
  simp only [toDigit, Option.filter_eq_some_iff, decide_eq_true_eq] at h
  exact h.2

theorem hexValue_high (h : ¬ b < 0x80) : hexValue b = none := by
  have hlt : b.toNat < 256 := b.toNat_lt
  have hle : 0x80 ≤ b.toNat := by simpa [UInt8.lt_iff_toNat_lt] using h
  refine toDigit_high ?_
  rw [Utf8.toNat_ofNat (by omega)]
  exact hle

theorem mapM_none {α β : Type} {f : α → Option β} {l : List α} {x : α} (hx : x ∈ l)
    (h : f x = none) : l.mapM f = none := by
  induction l with
  | nil => exact absurd hx not_mem_nil
  | cons y l ih =>
    rw [mapM_cons]
    obtain rfl | hx := mem_cons.mp hx
    · rw [h]
      rfl
    · rw [ih hx]
      cases f y <;> rfl

/-- One character that is neither a digit nor the sign is enough. -/
theorem fromStrRadix_none (hc : c ∈ t) (h : 0x80 ≤ c.toNat) : fromStrRadix t = none := by
  have hplus : c ≠ '+' := by
    rintro rfl
    exact absurd h (by decide)
  have hmem : c ∈ if t.head? = some '+' then t.tail else t := by
    split
    · next hhead =>
        cases t with
        | nil => exact absurd hc not_mem_nil
        | cons d t =>
          obtain rfl | hc := mem_cons.mp hc
          · exact absurd (Option.some.inj hhead) hplus
          · exact hc
    · exact hc
  unfold fromStrRadix
  rw [if_neg (ne_nil_of_mem hmem), mapM_none hmem (toDigit_high h)]
  rfl

theorem decode_high {bytes : Bytes} (hc : c ∈ Utf8.decodeLossy bytes) (h : 0x80 ≤ c.toNat) :
    fromStrRadix ((Utf8.decode bytes).getD []) = none := by
  unfold Utf8.decode
  split
  · exact fromStrRadix_none hc h
  · rfl

theorem fromStrRadix_signed (y : UInt8) :
    fromStrRadix ['+', Char.ofNat y.toNat] = (hexValue y).map UInt8.ofNat := by
  unfold fromStrRadix hexValue
  cases hy : toDigit 16 (Char.ofNat y.toNat) with
  | none => simp [hy]
  | some b =>
    have hb := toDigit_lt hy
    simp [hy]
    omega

theorem fromStrRadix_pair (h : Char.ofNat x.toNat ≠ '+') :
    fromStrRadix [Char.ofNat x.toNat, Char.ofNat y.toNat] = hexPair x y := by
  unfold fromStrRadix hexPair hexValue
  cases hx : toDigit 16 (Char.ofNat x.toNat) with
  | none => simp [hx, h]
  | some a =>
    cases hy : toDigit 16 (Char.ofNat y.toNat) with
    | none => simp [hx, hy, h]
    | some b =>
      have ha := toDigit_lt hx
      have hb := toDigit_lt hy
      simp [hx, hy, h]
      omega

theorem decode_ascii (hx : x < 0x80) (hy : y < 0x80) :
    Utf8.decode [x, y] = some [Char.ofNat x.toNat, Char.ofNat y.toNat] := by
  have hchar : ∀ {b : UInt8}, b < 0x80 → String.utf8EncodeChar (Char.ofNat b.toNat) = [b] := by
    intro b hb
    have hlt : b.toNat < 0x80 := by simpa [UInt8.lt_iff_toNat_lt] using hb
    have hsame : (Char.ofNat b.toNat).toNat = b.toNat := Utf8.toNat_ofNat (by omega)
    rw [Utf8.encodeChar_ascii (by omega), hsame, UInt8.ofNat_toNat]
  have hlossy : Utf8.decodeLossy [x, y] = [Char.ofNat x.toNat, Char.ofNat y.toNat] := by
    rw [Utf8.decodeLossy_cons, Utf8.decodeChar_ascii hx, drop_zero, Utf8.decodeLossy_cons,
      Utf8.decodeChar_ascii hy]
    rfl
  have hencode : Utf8.encode [Char.ofNat x.toNat, Char.ofNat y.toNat] = [x, y] := by
    simp [Utf8.encode, hchar hx, hchar hy]
  rw [Utf8.decode, hlossy, if_pos hencode]

/-- The decoder reads an escape as it is meant, but takes a plus for a sign. -/
theorem readEscape_eq (x y : UInt8) :
    readEscape x y = if x = 0x2b then (hexValue y).map UInt8.ofNat else hexPair x y := by
  have hhead : ∀ {b : UInt8} (rest : Bytes), ¬ b < 0x80 →
      ∃ c ∈ Utf8.decodeLossy (b :: rest), 0x80 ≤ c.toNat := by
    intro b rest hb
    rw [Utf8.decodeLossy_cons]
    exact ⟨_, mem_cons_self, (Utf8.decodeChar_high hb rest).1⟩
  by_cases hx : x < 0x80
  · have hcons : ∀ rest, Utf8.decodeLossy (x :: rest) =
        Char.ofNat x.toNat :: Utf8.decodeLossy rest := by
      intro rest
      rw [Utf8.decodeLossy_cons, Utf8.decodeChar_ascii hx]
      rfl
    by_cases hy : y < 0x80
    · rw [readEscape, decode_ascii hx hy, Option.getD_some]
      by_cases hplus : x = 0x2b
      · subst hplus
        rw [if_pos rfl]
        exact fromStrRadix_signed y
      · rw [if_neg hplus]
        refine fromStrRadix_pair fun heq => hplus ?_
        have hlt : x.toNat < 0x80 := by simpa [UInt8.lt_iff_toNat_lt] using hx
        have hnat := congrArg Char.toNat heq
        rw [Utf8.toNat_ofNat (by omega)] at hnat
        exact UInt8.toNat_inj.mp hnat
    · obtain ⟨c, hc, hhigh⟩ := hhead [] hy
      have hmem : c ∈ Utf8.decodeLossy [x, y] := by
        rw [hcons]
        exact mem_cons_of_mem _ hc
      rw [readEscape, decode_high hmem hhigh, hexPair, hexValue_high hy]
      cases hexValue x <;> simp
  · obtain ⟨c, hc, hhigh⟩ := hhead [y] hx
    have hne : x ≠ 0x2b := by
      rintro rfl
      exact hx (by decide)
    rw [readEscape, decode_high hc hhigh, if_neg hne, hexPair, hexValue_high hx]
    rfl

section Unescape

variable {read : UInt8 → UInt8 → Option UInt8} {b : UInt8} {rest : Bytes}

theorem unescapeWith_cons (h : b ≠ 0x25) :
    unescapeWith read (b :: rest) = b :: unescapeWith read rest := by
  match rest with
  | [] => rfl
  | [_] => rfl
  | x :: y :: rest => rw [unescapeWith, if_neg h]

theorem unescapeWith_none {x y : UInt8} (h : b = 0x25 → read x y = none) :
    unescapeWith read (b :: x :: y :: rest) = b :: unescapeWith read (x :: y :: rest) := by
  rw [unescapeWith]
  by_cases hb : b = 0x25
  · rw [if_pos hb, h hb]
  · rw [if_neg hb]

theorem signedEscape_cons (h : b ≠ 0x25) : signedEscape (b :: rest) = signedEscape rest := by
  match rest with
  | [] => rfl
  | [_] => rfl
  | x :: y :: rest => simp [signedEscape, h]

end Unescape

/-- The bytes below `0x80`. -/
def asciiCount (bytes : Bytes) : Nat := (bytes.filter (· < 0x80)).length

@[simp] theorem asciiCount_cons (b : UInt8) (bytes : Bytes) :
    asciiCount (b :: bytes) = (if b < 0x80 then 1 else 0) + asciiCount bytes := by
  unfold asciiCount
  by_cases h : b < 0x80
  · rw [filter_cons_of_pos (by simpa using h), if_pos h, length_cons, Nat.add_comm]
  · rw [filter_cons_of_neg (by simpa using h), if_neg h, Nat.zero_add]

theorem ne_of_hexValue {c : UInt8} (h : (hexValue b).isSome = true) (hc : hexValue c = none) :
    b ≠ c := by
  rintro rfl
  rw [hc] at h
  exact absurd h (by decide)

/-- A signed escape is decoded to one byte where three are meant. -/
theorem asciiCount_unescapeWith (bytes : Bytes) :
    asciiCount (unescapeWith readEscape bytes) ≤ asciiCount (unescape bytes) ∧
      (signedEscape bytes = true →
        asciiCount (unescapeWith readEscape bytes) < asciiCount (unescape bytes)) ∧
      (signedEscape bytes = false → unescapeWith readEscape bytes = unescape bytes) := by
  have hpercent : hexValue 0x25 = none := by decide
  have hplus : hexValue 0x2b = none := by decide
  fun_induction unescapeWith readEscape bytes with
  | case1 b x y rest value hread ih =>
    by_cases hb : b = 0x25
    · subst hb
      rw [if_pos rfl, readEscape_eq] at hread
      by_cases hx : x = 0x2b
      · subst hx
        rw [if_pos rfl, Option.map_eq_some_iff] at hread
        obtain ⟨n, hy, rfl⟩ := hread
        have hne : y ≠ 0x25 := ne_of_hexValue (by rw [hy]; rfl) hpercent
        have hpair : hexPair 0x2b y = none := by rw [hexPair, hplus]; rfl
        have hmeant :
            unescape (0x25 :: 0x2b :: y :: rest) = 0x25 :: 0x2b :: y :: unescape rest := by
          rw [unescape, unescapeWith_none fun _ => hpair, unescapeWith_cons (by decide),
            unescapeWith_cons hne]
        have hsigned : signedEscape (0x25 :: 0x2b :: y :: rest) = true := by
          simp [signedEscape, hy]
        have hsmall : (0x25 : UInt8) < 0x80 ∧ (0x2b : UInt8) < 0x80 := by decide
        rw [hmeant, hsigned]
        simp only [asciiCount_cons, hsmall, if_true]
        refine ⟨?_, fun _ => ?_, fun hfalse => nomatch hfalse⟩
        · have := ih.1
          split <;> omega
        · have := ih.1
          split <;> omega
      · rw [if_neg hx] at hread
        have hdigits : (hexValue x).isSome = true ∧ (hexValue y).isSome = true := by
          obtain ⟨a, ha, hrest⟩ := Option.bind_eq_some_iff.mp hread
          obtain ⟨b, hb, -⟩ := Option.bind_eq_some_iff.mp hrest
          rw [ha, hb]
          exact ⟨rfl, rfl⟩
        have hmeant : unescape (0x25 :: x :: y :: rest) = value :: unescape rest := by
          rw [unescape, unescapeWith, if_pos rfl, hread]
        have hsigned : signedEscape (0x25 :: x :: y :: rest) = signedEscape rest := by
          have hx' := beq_false_of_ne hx
          rw [signedEscape, hx', signedEscape_cons (ne_of_hexValue hdigits.1 hpercent),
            signedEscape_cons (ne_of_hexValue hdigits.2 hpercent)]
          simp
        rw [hmeant, hsigned, asciiCount_cons, asciiCount_cons]
        refine ⟨Nat.add_le_add_left ih.1 _, fun h => Nat.add_lt_add_left (ih.2.1 h) _, fun h => ?_⟩
        rw [ih.2.2 h]
    · rw [if_neg hb] at hread
      exact nomatch hread
  | case2 b x y rest hread ih =>
    have hnone : b = 0x25 → readEscape x y = none := fun hb => by rwa [if_pos hb] at hread
    have hpair : b = 0x25 → hexPair x y = none := by
      intro hb
      have hnone := hnone hb
      rw [readEscape_eq] at hnone
      split at hnone
      · next hx => rw [hx, hexPair, hplus]; rfl
      · exact hnone
    have hmeant : unescape (b :: x :: y :: rest) = b :: unescape (x :: y :: rest) :=
      unescapeWith_none hpair
    have hsigned : signedEscape (b :: x :: y :: rest) = signedEscape (x :: y :: rest) := by
      have hfirst : (b == 0x25 && x == 0x2b && (hexValue y).isSome) = false := by
        by_cases hb : b = 0x25
        · have hnone := hnone hb
          rw [readEscape_eq] at hnone
          by_cases hx : x = 0x2b
          · rw [if_pos hx, Option.map_eq_none_iff] at hnone
            simp [hnone]
          · simp [hx]
        · simp [hb]
      rw [signedEscape, hfirst, Bool.false_or]
    rw [hmeant, hsigned, asciiCount_cons, asciiCount_cons]
    refine ⟨Nat.add_le_add_left ih.1 _, fun h => Nat.add_lt_add_left (ih.2.1 h) _, fun h => ?_⟩
    rw [ih.2.2 h]
  | case3 short hshort =>
    have hmeant : unescape short = short ∧ signedEscape short = false := by
      match short with
      | [] => exact ⟨rfl, rfl⟩
      | [_] => exact ⟨rfl, rfl⟩
      | [_, _] => exact ⟨rfl, rfl⟩
      | b :: x :: y :: rest => exact absurd rfl (hshort b x y rest)
    rw [hmeant.1, hmeant.2]
    exact ⟨le_refl _, fun h => absurd h Bool.false_ne_true, fun _ => rfl⟩

/-- **Credentials are decoded to what they stand for exactly if they are plain.** -/
theorem decoded_iff (written : Text) :
    Utf8.encode (percentDecode written) = unescape (Utf8.encode written) ↔ Plain written := by
  obtain ⟨-, hless, hsame⟩ := asciiCount_unescapeWith (Utf8.encode written)
  constructor
  · intro h
    refine ⟨⟨_, h⟩, Bool.eq_false_iff.mpr fun hsigned => ?_⟩
    have hcount := Utf8.filter_encode_decodeLossy
      (unescapeWith readEscape (Utf8.encode written))
    have hlt := hless hsigned
    rw [asciiCount, asciiCount, ← hcount, ← h, percentDecode] at hlt
    exact Nat.lt_irrefl _ hlt
  · rintro ⟨⟨t, ht⟩, hunsigned⟩
    rw [percentDecode, hsame hunsigned, ← ht, Utf8.decodeLossy_encode]

/-! ### What a setting is -/

/-- A scheme in front of a setting; none is one for SOCKS. -/
inductive SchemeText : Text → Kind → Prop
  | bare : SchemeText [] .socks5
  | socks5 {s : Text}
      (h : s.map Char.toLower ∈ ["socks5".toList, "socks5h".toList, "socks".toList]) :
      SchemeText (s ++ "://".toList) .socks5
  | http {s : Text} (h : s.map Char.toLower = "http".toList) :
      SchemeText (s ++ "://".toList) .http

/-- Credentials in front of an endpoint, as they are written. -/
inductive CredentialText : Text → Option Text → Option Text → Prop
  | none : CredentialText [] none none
  | user {u : Text} (hu : ∀ c ∈ u, c ≠ ':' ∧ c ≠ '/') : CredentialText (u ++ ['@']) (some u) none
  | pair {u p : Text} (hu : ∀ c ∈ u, c ≠ ':' ∧ c ≠ '/') (hp : '/' ∉ p) :
      CredentialText (u ++ ':' :: p ++ ['@']) (some u) (some p)

/-- A port, in digits. -/
structure PortDigits (d : Text) (port : Nat) : Prop where
  nonempty : d ≠ []
  digits : ∀ c ∈ d, c.isDigit = true
  value : Nat.ofDigitChars 10 d 0 = port
  pos : 0 < port
  lt : port < 65536

inductive EndpointText : Text → Text → Nat → Prop
  | name {host d : Text} {port : Nat} (hne : host ≠ [])
      (hhost : ∀ c ∈ host, c ≠ ':' ∧ c ≠ '/' ∧ c ≠ '@' ∧ c ≠ '[') (hd : PortDigits d port) :
      EndpointText (host ++ ':' :: d) host port
  | bracketed {host d : Text} {port : Nat} (hne : host ≠ [])
      (hhost : ∀ c ∈ host, c ≠ ']' ∧ c ≠ '/' ∧ c ≠ '@') (hd : PortDigits d port) :
      EndpointText ('[' :: (host ++ ']' :: ':' :: d)) host port

/-- The proxy that a setting is written for, with its credentials still encoded. -/
def Writes (t : Text) (written : Proxy) : Prop :=
  ∃ scheme credentials endpoint, t = scheme ++ (credentials ++ endpoint) ∧
    SchemeText scheme written.kind ∧
    CredentialText credentials written.user written.password ∧
    EndpointText endpoint written.host written.port

theorem Writes.ne_nil {w : Proxy} (h : Writes t w) : t ≠ [] := by
  obtain ⟨scheme, credentials, endpoint, rfl, -, -, hendpoint⟩ := h
  cases hendpoint with
  | name _ _ _ => simp
  | bracketed _ _ _ => simp

/-! ### Reading it -/

theorem isDigit_ne {d : Char} (h : c.isDigit = true) (hd : d.isDigit = false) : c ≠ d := by
  rintro rfl
  rw [hd] at h
  exact absurd h Bool.false_ne_true

theorem PortDigits.read (h : PortDigits d port) : readEndpointPort d = some port := by
  have hhead : d.head? ≠ some '+' := fun heq =>
    isDigit_ne (h.digits '+' (mem_of_mem_head? heq)) (by decide) rfl
  have hparse : Text.parseUnsigned 65536 d = some port := by
    unfold Text.parseUnsigned
    rw [if_neg hhead, if_neg, h.value, if_pos h.lt]
    rw [not_or, not_not, all_eq_true]
    exact ⟨h.nonempty, h.digits⟩
  rw [readEndpointPort, hparse, Option.filter_some, if_pos]
  exact decide_eq_true (Nat.pos_iff_ne_zero.mp h.pos)

theorem PortDigits.notMem (h : PortDigits d port) (hc : c.isDigit = false) :
    c ∉ d := fun hmem => isDigit_ne (h.digits c hmem) hc rfl

theorem EndpointText.notMem {host : Text} (h : EndpointText endpoint host port) :
    '/' ∉ endpoint ∧ '@' ∉ endpoint := by
  cases h with
  | name _ hhost hd =>
    have hslash : '/' ∉ host := fun hmem => (hhost '/' hmem).2.1 rfl
    have hat : '@' ∉ host := fun hmem => (hhost '@' hmem).2.2.1 rfl
    simp [hslash, hat, hd.notMem (show '/'.isDigit = false from rfl),
      hd.notMem (show '@'.isDigit = false from rfl)]
  | bracketed _ hhost hd =>
    have hslash : '/' ∉ host := fun hmem => (hhost '/' hmem).2.1 rfl
    have hat : '@' ∉ host := fun hmem => (hhost '@' hmem).2.2 rfl
    simp [hslash, hat, hd.notMem (show '/'.isDigit = false from rfl),
      hd.notMem (show '@'.isDigit = false from rfl)]

theorem EndpointText.split {host : Text} (h : EndpointText endpoint host port) :
    splitEndpoint endpoint = some (host, port) := by
  cases h with
  | @name host d port hne hhost hd =>
    have hcut : Text.rsplitOnce ':' (host ++ ':' :: d) = some (host, d) :=
      Text.rsplitOnce_of_notMem (hd.notMem rfl)
    unfold splitEndpoint
    split
    · next rest heq =>
        obtain ⟨c, more, rfl⟩ := exists_cons_of_ne_nil hne
        obtain rfl := (List.cons.inj heq).1
        exact absurd rfl (hhost '[' mem_cons_self).2.2.2
    · simp [hcut, hd.read, hne]
  | @bracketed host d port hne hhost hd =>
    have hcut : Text.splitOnce [']'] (host ++ ']' :: ':' :: d) = some (host, ':' :: d) :=
      Text.splitOnce_char (fun hmem => (hhost ']' hmem).1 rfl) _
    have hport : Text.strip [':'] (':' :: d) = some d := Text.strip_append [':'] d
    simp [splitEndpoint, hcut, hport, hd.read, hne]

theorem CredentialText.slash (h : CredentialText credentials user password) :
    '/' ∉ credentials := by
  cases h with
  | none => exact not_mem_nil
  | user hu =>
    rw [mem_append, not_or]
    exact ⟨fun hmem => (hu '/' hmem).2 rfl, by decide⟩
  | pair hu hp =>
    have hslash : ∀ c ∈ _, c ≠ '/' := fun c hc => (hu c hc).2
    simp only [mem_append, mem_cons, not_mem_nil, or_false, not_or]
    exact ⟨⟨fun hmem => hslash '/' hmem rfl, by decide, hp⟩, by decide⟩

theorem CredentialText.split (h : CredentialText credentials user password)
    (hend : '@' ∉ endpoint) :
    ∃ pair, splitCredentials (credentials ++ endpoint) = (pair, endpoint) ∧
      splitPair pair = (user, password) := by
  have hcut : ∀ pair : Text,
      splitCredentials (pair ++ ['@'] ++ endpoint) = (some pair, endpoint) := by
    intro pair
    rw [splitCredentials, append_assoc, singleton_append,
      Text.rsplitOnce_of_notMem hend]
  cases h with
  | none =>
    refine ⟨Option.none, ?_, rfl⟩
    rw [splitCredentials, nil_append, Text.rsplitOnce_none hend]
  | @user u hu =>
    refine ⟨some u, hcut u, ?_⟩
    rw [splitPair, Text.splitOnce_char_none fun hmem => (hu ':' hmem).1 rfl]
  | @pair u p hu _ =>
    refine ⟨some (u ++ ':' :: p), hcut _, ?_⟩
    rw [splitPair, Text.splitOnce_char fun hmem => (hu ':' hmem).1 rfl]

theorem toNat_lt_of_toLower (h : c.toLower.toNat < 128) : c.toNat < 128 := by
  unfold Char.toLower at h
  split at h
  · next hupper =>
      have hle : c.toNat ≤ 90 := UInt32.le_iff_toNat_le.mp hupper.2
      omega
  · exact h

theorem SchemeText.split (hlower : Text.LowersAscii lower) {scheme rest : Text} {kind : Kind}
    (h : SchemeText scheme kind) (hrest : '/' ∉ rest) :
    ∃ word, splitScheme lower (scheme ++ rest) = (word, rest) ∧ kindOf word = some kind ∧
      word ≠ "https".toList := by
  -- a word of ASCII letters is lowered by the table, and has no colon in it
  have hword : ∀ {s word : Text}, s.map Char.toLower = word →
      (word.all fun c => decide (c.toNat < 128 ∧ c ≠ ':')) = true →
      splitScheme lower (s ++ "://".toList ++ rest) = (word, rest) := by
    intro s word hmap hall
    have hchar : ∀ c ∈ s, c.toLower.toNat < 128 ∧ c.toLower ≠ ':' := by
      intro c hc
      have hmem : c.toLower ∈ word := hmap ▸ mem_map_of_mem hc
      exact of_decide_eq_true (all_eq_true.mp hall _ hmem)
    have hcolon : ':' ∉ s := fun hmem => (hchar ':' hmem).2 rfl
    have hascii : ∀ c ∈ s, c.toNat < 128 := fun c hc => toNat_lt_of_toLower (hchar c hc).1
    have hcut : Text.splitOnce "://".toList (s ++ ("://".toList ++ rest)) = some (s, rest) :=
      Text.splitOnce_of_head hcolon rest
    rw [splitScheme, append_assoc, hcut, ← hmap, ← hlower.whole s hascii]
  cases h with
  | bare =>
    refine ⟨"socks5".toList, ?_, by decide, by decide⟩
    have hnone : Text.splitOnce "://".toList rest = none :=
      Text.splitOnce_none (show '/' ∈ "://".toList by decide) hrest
    rw [splitScheme, nil_append, hnone]
  | @socks5 s hs =>
    refine ⟨s.map Char.toLower, ?_, ?_, ?_⟩
    · refine hword rfl ?_
      simp only [mem_cons, not_mem_nil, or_false] at hs
      obtain hs | hs | hs := hs
      all_goals rw [hs]; decide
    · rw [kindOf, if_pos hs]
    · intro hhttps
      rw [hhttps] at hs
      exact absurd hs (by decide)
  | @http s hs =>
    exact ⟨"http".toList, hword hs (by decide), by decide, by decide⟩

/-- **The engine cuts a setting where it is written.** -/
theorem cut_of_writes (hlower : Text.LowersAscii lower) {written : Proxy}
    (htrim : Text.trim t = t) (h : Writes t written) : cut lower t = .ok written := by
  obtain ⟨scheme, credentials, endpoint, rfl, hscheme, hcredentials, hendpoint⟩ := h
  obtain ⟨hslash, hat⟩ := hendpoint.notMem
  have hrest : '/' ∉ credentials ++ endpoint := by
    rw [mem_append, not_or]
    exact ⟨hcredentials.slash, hslash⟩
  obtain ⟨word, hword, hkind, hhttps⟩ := hscheme.split hlower hrest
  obtain ⟨pair, hpair, hparts⟩ := hcredentials.split hat
  have hend : (endpoint.reverse.dropWhile (· == '/')).reverse = endpoint := by
    rw [dropWhile_eq_self_iff.mpr, reverse_reverse]
    intro hpos hhead
    have hmem : endpoint.reverse[0] ∈ endpoint.reverse := getElem_mem hpos
    rw [beq_iff_eq.mp hhead, mem_reverse] at hmem
    exact hslash hmem
  unfold cut
  rw [htrim, hword]
  simp only [hkind, hpair, hhttps, false_and, if_false, hend, hendpoint.split, hparts]

end Aether.Upstream
