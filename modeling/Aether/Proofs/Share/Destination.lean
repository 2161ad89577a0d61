/-
The destination a request names and the one that is opened for it.

`serveHttpClient` always dials, so a target is served right exactly if it fits and the text that
is cut out as the host and the number that is read as the port stand for the ones named.  What
is cut out too long has a character no host has.
-/
import Aether.Share.Destination
import Aether.Proofs.Net.Grammar
import Aether.Proofs.Share.Http

namespace Aether.Share

open List

open LanGuard (latin1Bytes)

/-! ### Characters -/

variable {c : Char} {t p further path name b : Text} {a : Authority} {default : Nat}
  {query : Option Text}

theorem isNameChar_of_isHexDigit (h : isHexDigit c = true) : isNameChar c = true := by
  have hcases : ('0' ≤ c ∧ c ≤ '9') ∨ ('a' ≤ c ∧ c ≤ 'f') ∨ ('A' ≤ c ∧ c ≤ 'F') :=
    isSome_toDigit_sixteen.mp h
  change (48 ≤ c.toNat ∧ c.toNat ≤ 57) ∨ (97 ≤ c.toNat ∧ c.toNat ≤ 102) ∨
    (65 ≤ c.toNat ∧ c.toNat ≤ 70) at hcases
  unfold isNameChar
  rw [Text.isAlphanum_iff.mpr (by omega), Bool.true_or]

/-- What a component is written with. -/
theorem mem_isComponent (h : isComponent further t = true) :
    ∀ c ∈ t, isNameChar c = true ∨ c ∈ further ∨ c = '%' := by
  fun_induction isComponent further t with
  | case1 => simp
  | case2 a b rest ih =>
    rw [Bool.and_eq_true, Bool.and_eq_true] at h
    obtain ⟨⟨ha, hb⟩, hrest⟩ := h
    intro c hc
    simp only [mem_cons] at hc
    obtain rfl | rfl | rfl | hc := hc
    · exact .inr (.inr rfl)
    · exact .inl (isNameChar_of_isHexDigit ha)
    · exact .inl (isNameChar_of_isHexDigit hb)
    · exact ih hrest c hc
  | case3 c rest _ ih =>
    rw [Bool.and_eq_true, Bool.or_eq_true] at h
    obtain ⟨hc, hrest⟩ := h
    intro c' hc'
    obtain rfl | hc' := mem_cons.mp hc'
    · exact hc.imp_right fun hfurther => .inl (by simpa using hfurther)
    · exact ih hrest c' hc'

/-- What an authority is written with. -/
def isAuthorityChar (c : Char) : Bool := isNameChar c || "%[]:@".toList.contains c

theorem isAuthorityChar_lt (h : isAuthorityChar c = true) : c.toNat < 128 := by
  have hmarks :
      ("-._~!$&'()*+,;=".toList ++ "%[]:@".toList).all (fun c => c.toNat < 128) = true := by
    decide
  simp only [isAuthorityChar, isNameChar, Bool.or_eq_true, contains_iff_mem] at h
  obtain (h | h) | h := h
  · have := Text.isAlphanum_iff.mp h
    omega
  · simpa using all_eq_true.mp hmarks c (mem_append_left _ h)
  · simpa using all_eq_true.mp hmarks c (mem_append_right _ h)

/-- Another character is in no component. -/
theorem notMem_of_isComponent (h : isComponent further t = true) (hname : isNameChar c = false)
    (hfurther : c ∉ further) (hpct : c ≠ '%') : c ∉ t := by
  intro hc
  obtain hc' | hc' | hc' := mem_isComponent h c hc
  · rw [hname] at hc'
    cases hc'
  · exact hfurther hc'
  · exact hpct hc'

/-- A class that has the characters of names and percent signs, and the further ones. -/
theorem all_of_isComponent {P : Char → Bool} (hP : ∀ c, isNameChar c = true ∨ c = '%' → P c = true)
    (h : isComponent further t = true) (hfurther : further.all P = true) :
    ∀ c ∈ t, P c = true := by
  intro c hc
  obtain hc' | hc' | hc' := mem_isComponent h c hc
  · exact hP c (.inl hc')
  · exact all_eq_true.mp hfurther c hc'
  · exact hP c (.inr hc')

theorem isAuthorityChar_of_isNameChar (c : Char) (h : isNameChar c = true ∨ c = '%') :
    isAuthorityChar c = true := by
  obtain h | rfl := h
  · simp [isAuthorityChar, h]
  · decide

/-! ### ASCII texts -/

theorem encode_ascii (h : ∀ c ∈ t, c.toNat < 128) :
    Utf8.encode t = t.map fun c => UInt8.ofNat c.toNat := by
  induction t with
  | nil => rfl
  | cons c t ih =>
    show String.utf8EncodeChar c ++ Utf8.encode t = _
    rw [Utf8.encodeChar_ascii (h c (by simp)), ih fun c' hc' => h c' (by simp [hc'])]
    rfl

/-- The engine reads an ASCII name as it was written. -/
theorem decodeLossy_latin1Bytes (h : ∀ c ∈ t, c.toNat < 128) :
    Utf8.decodeLossy (latin1Bytes t) = t := by
  have hbytes : latin1Bytes t = Utf8.encode t := by
    rw [encode_ascii h]
    refine map_congr_left fun c hc => if_pos ?_
    have := h c hc
    omega
  rw [hbytes, Utf8.decodeLossy_encode]

theorem length_decodeLossy_le (bytes : Bytes) : (Utf8.decodeLossy bytes).length ≤ bytes.length := by
  induction bytes using Utf8.decode_induction with
  | nil => exact Nat.le_refl 0
  | cons b rest ih =>
    rw [length_drop] at ih
    rw [Utf8.decodeLossy_cons, length_cons, length_cons]
    omega

theorem length_pctBytes_le (t : Text) : (pctBytes t).length ≤ t.length := by
  fun_induction pctBytes t with
  | case1 => exact Nat.le_refl 0
  | case2 a b rest ih | case3 c rest _ ih =>
    simp only [length_cons]
    omega

/-- A percent sign stands for two more characters. -/
theorem length_pctBytes_lt (h : isComponent further t = true) (hfurther : '%' ∉ further)
    (hpct : '%' ∈ t) : (pctBytes t).length < t.length := by
  fun_induction pctBytes t with
  | case1 => cases hpct
  | case2 a b rest ih =>
    have hle := length_pctBytes_le rest
    simp only [length_cons]
    omega
  | case3 c rest hne ih =>
    have hcases : (isNameChar c = true ∨ further.contains c = true) ∧
        isComponent further rest = true := by
      rw [isComponent] at h
      · rw [Bool.and_eq_true, Bool.or_eq_true] at h
        exact h
      · exact hne
    obtain ⟨hstart, hcomponent⟩ := hcases
    have hc : c ≠ '%' := by
      rintro rfl
      obtain hname | hmem := hstart
      · exact absurd hname (by decide)
      · exact hfurther (by simpa using hmem)
    have hmem : '%' ∈ rest := by
      obtain heq | hmem := mem_cons.mp hpct
      · exact absurd heq.symm hc
      · exact hmem
    have hlt := ih hcomponent hmem
    simp only [length_cons]
    omega

theorem length_pctDecode_le (t : Text) : (pctDecode t).length ≤ t.length :=
  Nat.le_trans (length_decodeLossy_le _) (length_pctBytes_le t)

theorem pctDecode_eq (hpct : '%' ∉ t) (h : ∀ c ∈ t, c.toNat < 128) : pctDecode t = t := by
  have hbytes : pctBytes t = t.map fun c => UInt8.ofNat c.toNat := by
    clear h
    fun_induction pctBytes t with
    | case1 => rfl
    | case2 a b rest ih => simp at hpct
    | case3 c rest _ ih =>
      rw [map_cons, ih fun hmem => hpct (mem_cons_of_mem c hmem)]
  unfold pctDecode
  rw [hbytes, ← encode_ascii h, Utf8.decodeLossy_encode]

/-! ### What the engine reads -/

theorem readTarget_domain {len : UInt8} {input : Bytes} (hlen : len.toNat + 2 ≤ input.length) :
    Socks.readTarget Socks.atypDomain (len :: input)
      = some (.domain (Utf8.decodeLossy (input.take len.toNat)),
        u16FromBe ((input.drop len.toNat).take 2), (input.drop len.toNat).drop 2) := by
  have hname : ¬ input.length < len.toNat := by omega
  have hport : ¬ (input.drop len.toNat).length < 2 := by
    rw [length_drop]
    omega
  unfold Socks.readTarget
  rw [if_neg (by decide), if_neg (by decide), if_pos rfl]
  simp only [List.head?_cons, Option.bind_eq_bind, Option.bind_some, drop_one, tail_cons,
    if_neg hname, if_neg hport]

/-- The two octets of a port. -/
theorem toNat_port (port : Int) :
    ((u16FromBe [UInt8.ofNat ((port / 256) % 256).toNat, UInt8.ofNat (port % 256).toNat]).toNat
      : Int) = port % 65536 := by
  have hhigh : (UInt8.ofNat ((port / 256) % 256).toNat).toNat = ((port / 256) % 256).toNat := by
    rw [UInt8.toNat_ofNat']
    omega
  have hlow : (UInt8.ofNat (port % 256).toNat).toNat = (port % 256).toNat := by
    rw [UInt8.toNat_ofNat']
    omega
  unfold u16FromBe
  rw [UInt16.toNat_ofNat', beNat, beNat, beNat, hhigh, hlow]
  simp only [length_cons, length_nil]
  omega

/-- **The engine reads what was written, if the length fits its octet.** -/
theorem reaches_iff {host : Text} (hascii : ∀ c ∈ host, c.toNat < 128) (port : Int)
    (destination : Destination) (number : Nat) :
    Reaches host port destination number ↔
      host.length ≤ 255 ∧ Destination.ofName host host = destination ∧ port % 65536 = number := by
  have hlen : (latin1Bytes host).length = host.length := length_map _
  have hread : readRequest (socksRequest host port)
      = (Socks.readTarget Socks.atypDomain (UInt8.ofNat host.length :: (latin1Bytes host ++
          [UInt8.ofNat ((port / 256) % 256).toNat, UInt8.ofNat (port % 256).toNat]))).map
        fun read => (1, read.1, read.2.1, read.2.2) := by
    unfold socksRequest
    rw [hlen]
    rfl
  unfold Reaches
  rw [hread]
  by_cases hfits : host.length ≤ 255
  · have hoctet : (UInt8.ofNat host.length).toNat = (latin1Bytes host).length := by
      rw [hlen, UInt8.toNat_ofNat']
      exact Nat.mod_eq_of_lt (by omega)
    rw [readTarget_domain (by rw [hoctet, length_append]; simp), hoctet, take_left,
      drop_left, decodeLossy_latin1Bytes hascii]
    constructor
    · rintro ⟨target, wirePort, heq, hdenotes, hport⟩
      cases heq
      refine ⟨hfits, hdenotes, ?_⟩
      rw [← hport]
      exact (toNat_port port).symm
    · rintro ⟨-, hdenotes, hport⟩
      refine ⟨_, _, rfl, hdenotes, ?_⟩
      have hwire := toNat_port port
      rw [hport] at hwire
      exact Int.ofNat_inj.mp hwire
  · -- the octet is too small, and the end of the host is left over
    have hoctet : (UInt8.ofNat host.length).toNat + 256 ≤ host.length := by
      rw [UInt8.toNat_ofNat']
      omega
    refine iff_of_false ?_ (fun hright => hfits hright.1)
    rintro ⟨target, wirePort, heq, -⟩
    rw [readTarget_domain (by rw [length_append, hlen]; omega), Option.map_some] at heq
    have hrest := congrArg (fun r => r.map fun x : UInt8 × Socks.Target × UInt16 × Bytes =>
      x.2.2.2.length) heq
    simp only [Option.map_some, length_drop, length_append, hlen, length_cons,
      length_nil, Option.some.injEq] at hrest
    omega

/-! ### What a text stands for -/

theorem ofName_of_none (h : parseIpAddr name = none) (decoded : Text) :
    Destination.ofName name decoded = .domain decoded := by
  unfold Destination.ofName
  rw [h]

theorem ofName_of_some {ip : IpAddr} (h : parseIpAddr name = some ip) (decoded : Text) :
    Destination.ofName name decoded = .address ip := by
  unfold Destination.ofName
  rw [h]

section Hosts

variable {h : Host}

theorem Host.WellFormed.chars (hh : h.WellFormed) : ∀ c ∈ h.text, isAuthorityChar c = true := by
  cases h with
  | name t => exact all_of_isComponent isAuthorityChar_of_isNameChar (hh.name t rfl).2 rfl
  | ipv6 t =>
    obtain ⟨ip, hip⟩ := hh.ipv6 t rfl
    have hall := all_eq_true.mp (all_isAddrChar_of_parseIpAddr hip)
    intro c hc
    simp only [Host.text, cons_append, mem_cons, mem_append, not_mem_nil, or_false] at hc
    obtain rfl | hc | rfl := hc
    · decide
    · have haddr := hall c hc
      simp only [isAddrChar, Bool.or_eq_true, beq_iff_eq] at haddr
      obtain (hhex | rfl) | rfl := haddr
      · simp [isAuthorityChar, isNameChar_of_isHexDigit hhex]
      · decide
      · decide
    · decide

theorem Host.WellFormed.colon_notMem (hh : (Host.name t).WellFormed) : ':' ∉ t :=
  notMem_of_isComponent (hh.name t rfl).2 (by decide) (by simp) (by decide)

/-- A text that no address is written with, and longer than the name. -/
theorem Host.WellFormed.ofName_ne (hh : h.WellFormed) {s : Text} {c : Char} (hc : c ∈ s)
    (hnot : isAddrChar c = false) (hlen : ∀ t, h = .name t → t.length < s.length) :
    Destination.ofName s s ≠ h.denotes := by
  rw [ofName_of_none (parseIpAddr_eq_none hc hnot)]
  cases h with
  | name t =>
    have hlt := hlen t rfl
    have hle := length_pctDecode_le t
    show Destination.domain s ≠ Destination.ofName t (pctDecode t)
    cases hip : parseIpAddr t with
    | some ip =>
      rw [ofName_of_some hip]
      simp
    | none =>
      rw [ofName_of_none hip]
      intro heq
      have hlen' := congrArg List.length (Destination.domain.inj heq)
      omega
  | ipv6 t =>
    obtain ⟨ip, hip⟩ := hh.ipv6 t rfl
    show Destination.domain s ≠ Destination.ofName t (pctDecode t)
    rw [ofName_of_some hip]
    simp

/-- The text of a host stands for the host exactly if it is plain. -/
theorem Host.WellFormed.ofName_text (hh : h.WellFormed) :
    Destination.ofName h.text h.text = h.denotes ↔ h.Plain := by
  cases h with
  | name t =>
    obtain ⟨-, hcomponent⟩ := hh.name t rfl
    show Destination.ofName t t = Destination.ofName t (pctDecode t) ↔ '%' ∉ t
    constructor
    · intro heq hpct
      have hlt := length_pctBytes_lt hcomponent (by simp) hpct
      have hle := length_decodeLossy_le (pctBytes t)
      have hnone := parseIpAddr_eq_none hpct (by decide)
      rw [ofName_of_none hnone, ofName_of_none hnone] at heq
      have hlen := congrArg List.length (Destination.domain.inj heq)
      unfold pctDecode at hlen
      omega
    · intro hpct
      rw [pctDecode_eq hpct fun c hc => isAuthorityChar_lt (hh.chars c hc)]
  | ipv6 t =>
    refine iff_of_false ?_ (fun hfalse => hfalse)
    exact hh.ofName_ne (c := '[') (by simp [Host.text]) (by decide) nofun

end Hosts

/-! ### Cuts and numbers -/

theorem substring_append {a : Text} (h : c ∉ a) (missing b : Text) :
    substringBefore c (a ++ b) = a ++ substringBefore c b ∧
      substringAfter c missing (a ++ b) = substringAfter c missing b := by
  unfold substringBefore substringAfter
  rw [Text.splitOnce_char_append h]
  cases Text.splitOnce [c] b with
  | none => exact ⟨rfl, rfl⟩
  | some parts => exact ⟨rfl, rfl⟩

theorem substring_cut {a : Text} (h : c ∉ a) (missing b : Text) :
    substringBefore c (a ++ c :: b) = a ∧ substringAfter c missing (a ++ c :: b) = b := by
  unfold substringBefore substringAfter
  rw [Text.splitOnce_char h]
  exact ⟨rfl, rfl⟩

theorem substringLast_cut (h : c ∉ b) (a : Text) :
    substringBeforeLast c (a ++ c :: b) = a ∧ substringAfterLast c (a ++ c :: b) = b := by
  unfold substringBeforeLast substringAfterLast
  rw [Text.rsplitOnce_of_notMem h]
  exact ⟨rfl, rfl⟩

theorem substringLast_of_notMem (h : c ∉ t) :
    substringBeforeLast c t = t ∧ substringAfterLast c t = t := by
  unfold substringBeforeLast substringAfterLast
  rw [Text.rsplitOnce_none h]
  exact ⟨rfl, rfl⟩

/-- The last place of a character. -/
theorem exists_last (h : c ∈ t) : ∃ a b, t = a ++ c :: b ∧ c ∉ b := by
  obtain ⟨b, a, heq, hb⟩ := eq_append_cons_of_mem (mem_reverse.mpr h)
  refine ⟨a.reverse, b.reverse, ?_, by simpa using hb⟩
  rw [← reverse_reverse t, heq]
  simp

theorem substringBeforeLast_subset (c : Char) (t : Text) : substringBeforeLast c t ⊆ t := by
  by_cases hc : c ∈ t
  · obtain ⟨a, b, rfl, hb⟩ := exists_last hc
    rw [(substringLast_cut hb a).1]
    exact subset_append_left _ _
  · rw [(substringLast_of_notMem hc).1]
    exact List.Subset.refl t

/-- The first character is cut off only if it is the one that is looked for. -/
theorem mem_substringBeforeLast_cons {d : Char} (h : d ≠ c) (t : Text) :
    d ∈ substringBeforeLast c (d :: t) := by
  by_cases hc : c ∈ d :: t
  · obtain ⟨a, b, heq, hb⟩ := exists_last hc
    rw [heq, (substringLast_cut hb a).1]
    cases a with
    | nil => exact absurd (List.cons.inj heq).1 h
    | cons d' a =>
      rw [(List.cons.inj heq).1]
      simp
  · rw [(substringLast_of_notMem hc).1]
    simp

theorem splitSign_cases (t : Text) :
    splitSign t = (false, t) ∨ ∃ sign digits, t = sign :: digits ∧ (sign = '-' ∨ sign = '+') ∧
      ∃ negative, splitSign t = (negative, digits) := by
  unfold splitSign
  split
  · exact .inr ⟨'-', _, rfl, .inl rfl, true, rfl⟩
  · exact .inr ⟨'+', _, rfl, .inr rfl, false, rfl⟩
  · exact .inl rfl

/-- A character that is no digit and no sign makes no number. -/
theorem toIntOrNull_eq_none (hc : c ∈ t) (hdigit : c.isDigit = false) (hminus : c ≠ '-')
    (hplus : c ≠ '+') : toIntOrNull t = none := by
  have hdigits : c ∈ (splitSign t).2 := by
    obtain heq | ⟨sign, digits, rfl, hsign, negative, heq⟩ := splitSign_cases t
    · rw [heq]
      exact hc
    · rw [heq]
      obtain rfl | hc := mem_cons.mp hc
      · obtain rfl | rfl := hsign
        · exact absurd rfl hminus
        · exact absurd rfl hplus
      · exact hc
  have hall : (splitSign t).2.all Char.isDigit = false := by
    rw [all_eq_false]
    exact ⟨c, hdigits, by simp [hdigit]⟩
  unfold toIntOrNull
  dsimp only
  rw [hall]
  exact if_pos (.inr rfl)

/-- The port that is read where one is named. -/
theorem toIntOrNull_port (hp : p.all Char.isDigit = true)
    (hfits : (if p = [] then default else decimal p) ≤ 65535) :
    (toIntOrNull p).getD default = ((if p = [] then default else decimal p : Nat) : Int) := by
  by_cases hnil : p = []
  · subst hnil
    rfl
  · rw [if_neg hnil] at hfits ⊢
    have hsplit : splitSign p = (false, p) := by
      obtain heq | ⟨sign, digits, rfl, hsign, -⟩ := splitSign_cases p
      · exact heq
      · rw [all_cons, Bool.and_eq_true] at hp
        obtain rfl | rfl := hsign
        · exact absurd hp.1 (by decide)
        · exact absurd hp.1 (by decide)
    unfold toIntOrNull
    rw [hsplit]
    dsimp only
    rw [hp, if_neg (by simp [hnil])]
    rw [if_pos (by omega)]
    rfl

/-! ### Authorities -/

/-- The host and the port that were cut out stand for the ones named. -/
def Cut (host : Text) (port : Int) (a : Authority) (default : Nat) : Prop :=
  host.length ≤ 255 ∧ Destination.ofName host host = a.host.denotes ∧
    port % 65536 = a.portNumber default

theorem Authority.WellFormed.chars (ha : a.WellFormed) :
    ∀ c ∈ a.text, isAuthorityChar c = true := by
  intro c hc
  unfold Authority.text at hc
  rw [mem_append, mem_append] at hc
  obtain (hc | hc) | hc := hc
  · cases hu : a.userinfo with
    | none =>
      rw [hu] at hc
      cases hc
    | some u =>
      rw [hu] at hc
      obtain hc | hc := mem_append.mp hc
      · exact all_of_isComponent isAuthorityChar_of_isNameChar (ha.userinfo u hu) rfl c hc
      · rw [mem_singleton.mp hc]
        rfl
  · exact ha.host.chars c hc
  · cases hp : a.port with
    | none =>
      rw [hp] at hc
      cases hc
    | some p =>
      rw [hp] at hc
      obtain rfl | hc := mem_cons.mp hc
      · rfl
      · have hdigit := all_eq_true.mp (ha.port p hp) c hc
        simp [isAuthorityChar, isNameChar, Char.isAlphanum, hdigit]

theorem notMem_of_digits (hp : p.all Char.isDigit = true) (hc : c.isDigit = false) : c ∉ p := by
  intro hmem
  have hdigit := all_eq_true.mp hp c hmem
  rw [hc] at hdigit
  cases hdigit

theorem portNumber_some (h : a.port = some p) (default : Nat) :
    a.portNumber default = if p = [] then default else decimal p := by
  unfold Authority.portNumber
  rw [h]
  cases p with
  | nil => rfl
  | cons c p => rfl

/-- A port that fits is read as the one named. -/
theorem Authority.WellFormed.port_read (ha : a.WellFormed) (hp : a.port = some p)
    (hfits : a.portNumber default ≤ 65535) :
    (toIntOrNull p).getD default % 65536 = a.portNumber default := by
  rw [portNumber_some hp] at hfits ⊢
  rw [toIntOrNull_port (ha.port p hp) hfits]
  omega

/-! ### Authorities of a CONNECT -/

section Connect

variable {u p : Text} {h : Host}

theorem connect_port_cut (ha : (Authority.mk none h (some p)).WellFormed)
    (hfits : (RequestTarget.connect ⟨none, h, some p⟩).Fits) :
    Cut (connectHost (Authority.text ⟨none, h, some p⟩))
        (connectPort (Authority.text ⟨none, h, some p⟩)) ⟨none, h, some p⟩ 443 ↔ h.Plain := by
  have hcolon : ':' ∉ p := notMem_of_digits (ha.port p rfl) (by decide)
  obtain ⟨hbefore, hafter⟩ := substringLast_cut hcolon h.text
  unfold Cut connectHost connectPort
  rw [show Authority.text ⟨none, h, some p⟩ = h.text ++ ':' :: p from rfl, hbefore, hafter,
    ha.host.ofName_text]
  exact (and_iff_right hfits.1).trans (and_iff_left (ha.port_read rfl hfits.2))

/-- The whole target is taken for the host and for the port. -/
theorem connect_bare_cut (ha : (Authority.mk none h none).WellFormed)
    (hfits : (RequestTarget.connect ⟨none, h, none⟩).Fits) :
    Cut (connectHost (Authority.text ⟨none, h, none⟩))
        (connectPort (Authority.text ⟨none, h, none⟩)) ⟨none, h, none⟩ 443 ↔
      h.Plain ∧ ∀ n ∈ toIntOrNull h.text, n % 65536 = 443 := by
  rw [show Authority.text ⟨none, h, none⟩ = h.text from append_nil _]
  cases h with
  | name t =>
    obtain ⟨hbefore, hafter⟩ := substringLast_of_notMem ha.host.colon_notMem
    have hnumber :
        (toIntOrNull t).getD 443 % 65536 = 443 ↔ ∀ n ∈ toIntOrNull t, n % 65536 = 443 := by
      cases toIntOrNull t <;> simp
    unfold Cut connectHost connectPort
    rw [Host.text, hbefore, hafter]
    exact (and_iff_right hfits.1).trans (and_congr ha.host.ofName_text hnumber)
  | ipv6 t =>
    refine iff_of_false (fun hcut => ?_) (fun hright => hright.1)
    exact ha.host.ofName_ne (s := connectHost ('[' :: (t ++ [']']))) (c := '[')
      (mem_substringBeforeLast_cons (by decide) _) (by decide) nofun hcut.2.1

/-- User information is taken for a part of the host. -/
theorem connect_user_port_cut (ha : (Authority.mk (some u) h (some p)).WellFormed) :
    ¬ Cut (connectHost (Authority.text ⟨some u, h, some p⟩))
        (connectPort (Authority.text ⟨some u, h, some p⟩)) ⟨some u, h, some p⟩ 443 := by
  have hcolon : ':' ∉ p := notMem_of_digits (ha.port p rfl) (by decide)
  have htext : Authority.text ⟨some u, h, some p⟩ = (u ++ '@' :: h.text) ++ ':' :: p := by
    simp [Authority.text]
  intro hcut
  have hdest := hcut.2.1
  unfold connectHost at hdest
  rw [htext, (substringLast_cut hcolon _).1] at hdest
  refine ha.host.ofName_ne (c := '@') (by simp) (by decide) ?_ hdest
  rintro t rfl
  simp [Host.text]
  omega

/-- If the last colon is one of the user information, what stands before it is taken for the
host. -/
theorem connect_user_cut_at {u₁ u₂ : Text} (hu : u = u₁ ++ ':' :: u₂) (hu₂ : ':' ∉ u₂)
    (hcolon : ':' ∉ h.text) :
    connectHost (Authority.text ⟨some u, h, none⟩) = u₁ ∧
      connectPort (Authority.text ⟨some u, h, none⟩) = 443 := by
  have htext : Authority.text ⟨some u, h, none⟩ = u₁ ++ ':' :: (u₂ ++ '@' :: h.text) := by
    simp [Authority.text, hu]
  have hnot : ':' ∉ u₂ ++ '@' :: h.text := by
    simp [hu₂, hcolon]
  obtain ⟨hbefore, hafter⟩ := substringLast_cut hnot u₁
  unfold connectHost connectPort
  rw [htext, hbefore, hafter,
    toIntOrNull_eq_none (c := '@') (by simp) (by decide) (by decide) (by decide)]
  exact ⟨rfl, rfl⟩

theorem connect_user_cut (ha : (Authority.mk (some u) h none).WellFormed) :
    Cut (connectHost (Authority.text ⟨some u, h, none⟩))
        (connectPort (Authority.text ⟨some u, h, none⟩)) ⟨some u, h, none⟩ 443 ↔
      ':' ∉ h.text ∧ ∃ u₁ u₂, u = u₁ ++ ':' :: u₂ ∧ ':' ∉ u₂ ∧ StandsFor u₁ h := by
  have htext : Authority.text ⟨some u, h, none⟩ = u ++ '@' :: h.text := by
    simp [Authority.text]
  constructor
  · intro hcut
    by_cases hcolon : ':' ∈ h.text
    · -- the last colon is in the brackets
      obtain ⟨x, y, heq, hy⟩ := exists_last hcolon
      have hdest := hcut.2.1
      unfold connectHost at hdest
      rw [htext, heq, show u ++ '@' :: (x ++ ':' :: y) = (u ++ '@' :: x) ++ ':' :: y by simp,
        (substringLast_cut hy _).1] at hdest
      refine absurd hdest (ha.host.ofName_ne (c := '@') (by simp) (by decide) ?_)
      rintro t rfl
      exact absurd hcolon ha.host.colon_notMem
    · refine ⟨hcolon, ?_⟩
      by_cases hu : ':' ∈ u
      · obtain ⟨u₁, u₂, heq, hu₂⟩ := exists_last hu
        obtain ⟨hhost, -⟩ := connect_user_cut_at heq hu₂ hcolon
        rw [hhost] at hcut
        exact ⟨u₁, u₂, heq, hu₂, hcut.1, hcut.2.1⟩
      · have hdest := hcut.2.1
        unfold connectHost at hdest
        rw [htext, (substringLast_of_notMem (by simp [hu, hcolon])).1] at hdest
        refine absurd hdest (ha.host.ofName_ne (c := '@') (by simp) (by decide) ?_)
        rintro t rfl
        simp [Host.text]
        omega
  · rintro ⟨hcolon, u₁, u₂, heq, hu₂, hlen, hdest⟩
    obtain ⟨hhost, hport⟩ := connect_user_cut_at heq hu₂ hcolon
    rw [hhost, hport]
    exact ⟨hlen, hdest, rfl⟩

end Connect

/-- **Which authorities of a CONNECT are cut right.** -/
theorem connect_cut (ha : a.WellFormed) (hfits : (RequestTarget.connect a).Fits) :
    Cut (connectHost a.text) (connectPort a.text) a 443 ↔ (RequestTarget.connect a).CutRight := by
  obtain ⟨userinfo, h, port⟩ := a
  cases userinfo with
  | none =>
    cases port with
    | none => exact connect_bare_cut ha hfits
    | some p => exact connect_port_cut ha hfits
  | some u =>
    cases port with
    | none => exact connect_user_cut ha
    | some p => exact iff_of_false (connect_user_port_cut ha) (fun hright => hright)

/-! ### Authorities of an absolute URI -/

/-- What is taken for the authority: a query without a path goes with it. -/
theorem urlHostPort_urlText (ht : (RequestTarget.absolute a path query).WellFormed) :
    ∃ tail, urlHostPort (urlText a path query) = a.text ++ tail ∧
      (tail = [] ∧ (path ≠ [] ∨ query = none) ∨
        (∃ q, tail = '?' :: q) ∧ path = [] ∧ query ≠ none) := by
  have hslash : '/' ∉ a.text := fun hc => absurd (ht.authority.chars _ hc) (by decide)
  obtain ⟨hpath, -⟩ := ht.absolute a path query rfl
  unfold urlHostPort urlText
  rw [append_assoc, (substring_append hslash [] _).1]
  refine ⟨_, rfl, ?_⟩
  obtain rfl | hhead := hpath
  · cases query with
    | none => exact .inl ⟨rfl, .inr rfl⟩
    | some q =>
      refine .inr ⟨⟨substringBefore '/' q, ?_⟩, rfl, by simp⟩
      exact (substring_append (a := ['?']) (by decide) [] q).1
  · obtain ⟨rest, rfl⟩ := List.head?_eq_some_iff.mp hhead
    exact .inl ⟨(substring_cut not_mem_nil [] _).1, .inl (by simp)⟩

section Absolute

variable {u p t tail : Text} {h : Host} {port : Option Text}

/-- The host and the port of what was taken for the authority. -/
def CutAt (hostPort : Text) (a : Authority) : Prop :=
  Cut (substringBefore ':' hostPort)
    ((toIntOrNull (substringAfter ':' "80".toList hostPort)).getD 80) a 80

theorem absolute_bare_cut (ha : (Authority.mk none (.name t) none).WellFormed)
    (hlen : t.length ≤ 255) (htail : tail = [] ∨ ∃ q, tail = '?' :: q) :
    CutAt (Authority.text ⟨none, .name t, none⟩ ++ tail) ⟨none, .name t, none⟩ ↔
      Host.Plain (.name t) ∧ tail = [] := by
  obtain ⟨hbefore, hafter⟩ := substring_append ha.host.colon_notMem "80".toList tail
  have htext : Authority.text ⟨none, .name t, none⟩ ++ tail = t ++ tail := by
    simp [Authority.text, Host.text]
  unfold CutAt Cut
  rw [htext, hbefore, hafter]
  obtain rfl | ⟨q, rfl⟩ := htail
  · rw [show substringBefore ':' [] = [] from rfl, append_nil]
    exact (and_iff_right hlen).trans (and_congr ha.host.ofName_text (iff_of_true rfl rfl))
  · refine iff_of_false (fun hcut => ?_) (fun hright => by cases hright.2)
    have hdest := hcut.2.1
    rw [show '?' :: q = ['?'] ++ q from rfl, (substring_append (by decide) [] q).1] at hdest
    refine ha.host.ofName_ne (c := '?') (by simp) (by decide) ?_ hdest
    intro t' heq
    cases heq
    simp

theorem absolute_port_cut (ha : (Authority.mk none (.name t) (some p)).WellFormed)
    (hlen : t.length ≤ 255) (hfits : (Authority.mk none (.name t) (some p)).portNumber 80 ≤ 65535)
    (htail : tail = [] ∨ ∃ q, tail = '?' :: q) :
    CutAt (Authority.text ⟨none, .name t, some p⟩ ++ tail) ⟨none, .name t, some p⟩ ↔
      Host.Plain (.name t) ∧
        (tail = [] ∨ (Authority.mk none (.name t) (some p)).portNumber 80 = 80) := by
  obtain ⟨hbefore, hafter⟩ := substring_cut ha.host.colon_notMem "80".toList (p ++ tail)
  have htext : Authority.text ⟨none, .name t, some p⟩ ++ tail = t ++ ':' :: (p ++ tail) := by
    simp [Authority.text, Host.text]
  unfold CutAt Cut
  rw [htext, hbefore, hafter, and_iff_right hlen]
  refine and_congr ha.host.ofName_text ?_
  obtain rfl | ⟨q, rfl⟩ := htail
  · rw [append_nil]
    exact iff_of_true (ha.port_read rfl hfits) (.inl rfl)
  · rw [toIntOrNull_eq_none (c := '?') (by simp) (by decide) (by decide) (by decide),
      or_iff_right (cons_ne_nil _ _), eq_comm]
    exact Int.ofNat_inj (n := 80)

/-- The bracket is left in front of what is taken for the host. -/
theorem absolute_ipv6_cut (ha : (Authority.mk none (.ipv6 t) port).WellFormed) :
    ¬ CutAt (Authority.text ⟨none, .ipv6 t, port⟩ ++ tail) ⟨none, .ipv6 t, port⟩ := by
  intro hcut
  have htext : Authority.text ⟨none, .ipv6 t, port⟩ ++ tail
      = ['['] ++ (t ++ ']' :: ((port.map (':' :: ·)).getD [] ++ tail)) := by
    simp [Authority.text, Host.text]
  have hdest := hcut.2.1
  rw [htext, (substring_append (by decide) [] _).1] at hdest
  exact ha.host.ofName_ne (c := '[') (by simp) (by decide) nofun hdest

/-- If the first colon is one of the user information, what stands before it is taken for the
host. -/
theorem absolute_user_cut_at {u₁ u₂ : Text} (hu : u = u₁ ++ ':' :: u₂) (hu₁ : ':' ∉ u₁) :
    CutAt (Authority.text ⟨some u, h, port⟩ ++ tail) ⟨some u, h, port⟩ ↔
      Cut u₁ 80 ⟨some u, h, port⟩ 80 := by
  have htext : Authority.text ⟨some u, h, port⟩ ++ tail
      = u₁ ++ ':' :: (u₂ ++ '@' :: (h.text ++ ((port.map (':' :: ·)).getD [] ++ tail))) := by
    simp [Authority.text, hu]
  unfold CutAt
  rw [htext, (substring_cut hu₁ [] _).1, (substring_cut hu₁ _ _).2,
    toIntOrNull_eq_none (c := '@') (by simp) (by decide) (by decide) (by decide)]
  rfl

theorem absolute_user_cut (ha : (Authority.mk (some u) h port).WellFormed) :
    CutAt (Authority.text ⟨some u, h, port⟩ ++ tail) ⟨some u, h, port⟩ ↔
      (Authority.mk (some u) h port).portNumber 80 = 80 ∧
        ∃ u₁ u₂, u = u₁ ++ ':' :: u₂ ∧ ':' ∉ u₁ ∧ StandsFor u₁ h := by
  constructor
  · intro hcut
    by_cases hu : ':' ∈ u
    · obtain ⟨u₁, u₂, heq, hu₁⟩ := eq_append_cons_of_mem hu
      rw [absolute_user_cut_at heq hu₁] at hcut
      obtain ⟨hlen, hdest, hport⟩ := hcut
      refine ⟨?_, u₁, u₂, heq, hu₁, hlen, hdest⟩
      exact (Int.ofNat_inj.mp (hport : ((80 : Nat) : Int) = _)).symm
    · have htext : Authority.text ⟨some u, h, port⟩ ++ tail
          = (u ++ ['@']) ++ (h.text ++ ((port.map (':' :: ·)).getD [] ++ tail)) := by
        simp [Authority.text]
      have hdest := hcut.2.1
      rw [htext, (substring_append (by simp [hu]) [] _).1] at hdest
      refine absurd hdest (ha.host.ofName_ne (c := '@') (by simp) (by decide) ?_)
      rintro t rfl
      rw [Host.text, (substring_append ha.host.colon_notMem [] _).1]
      simp
      omega
  · rintro ⟨hport, u₁, u₂, heq, hu₁, hlen, hdest⟩
    rw [absolute_user_cut_at heq hu₁]
    refine ⟨hlen, hdest, ?_⟩
    rw [hport]
    rfl

end Absolute

/-- **Which absolute URIs are cut right.** -/
theorem absolute_cut (ht : (RequestTarget.absolute a path query).WellFormed)
    (hfits : (RequestTarget.absolute a path query).Fits) :
    Cut (urlHost (urlText a path query)) (urlPort (urlText a path query)) a 80 ↔
      (RequestTarget.absolute a path query).CutRight := by
  obtain ⟨tail, hhostPort, htail⟩ := urlHostPort_urlText ht
  have hshape : tail = [] ∨ ∃ q, tail = '?' :: q := htail.imp And.left And.left
  have hempty : tail = [] ↔ path ≠ [] ∨ query = none := by
    obtain ⟨rfl, hquery⟩ | ⟨⟨q, rfl⟩, hpath, hquery⟩ := htail
    · exact iff_of_true rfl hquery
    · simp [hpath, hquery]
  unfold urlHost urlPort
  rw [hhostPort]
  show CutAt (a.text ++ tail) a ↔ _
  have ha : a.WellFormed := ht.authority
  obtain ⟨hlen, hport⟩ := hfits
  obtain ⟨userinfo, h, port⟩ := a
  cases userinfo with
  | some u => exact absolute_user_cut ha
  | none =>
    cases h with
    | ipv6 t => exact iff_of_false (absolute_ipv6_cut ha) (fun hright => hright.1)
    | name t =>
      show _ ↔ Host.Plain (.name t) ∧ (path ≠ [] ∨ query = none ∨ port ≠ none ∧ _)
      rw [← or_assoc, ← hempty]
      cases port with
      | none =>
        rw [absolute_bare_cut ha hlen hshape]
        simp
      | some p =>
        rw [absolute_port_cut ha hlen hport hshape]
        simp

/-! ### What is dialled -/

/-- As something is always dialled, it has to be the destination that is named. -/
theorem opens_iff {x : Exchange} {t : RequestTarget} {host : Text} {port : Int}
    (hdialled : x.dialled = some (.destination host port)) (hascii : ∀ c ∈ host, c.toNat < 128) :
    Opens x t ↔ t.Fits ∧ Cut host port t.authority t.defaultPort := by
  by_cases hfits : t.Fits
  · constructor
    · rintro ⟨hopens, -⟩
      obtain ⟨host', port', heq, hreaches⟩ := hopens hfits
      rw [hdialled] at heq
      cases heq
      exact ⟨hfits, (reaches_iff hascii _ _ _).mp hreaches⟩
    · rintro ⟨-, hcut⟩
      refine ⟨fun _ => ⟨host, port, hdialled, ?_⟩, fun hnot => absurd hfits hnot⟩
      exact (reaches_iff hascii _ _ _).mpr hcut
  · refine iff_of_false (fun hopens => ?_) (fun hright => hfits hright.1)
    have hnone := hopens.2 hfits
    rw [hdialled] at hnone
    cases hnone

/-! ### Request lines -/

section Targets

variable {a : Authority} {path : Text} {query : Option Text}

theorem urlText_chars (ht : (RequestTarget.absolute a path query).WellFormed) :
    ∀ c ∈ urlText a path query, (isAuthorityChar c || ['/', '?'].contains c) = true := by
  obtain ⟨-, hpath, hquery⟩ := ht.absolute a path query rfl
  have hname (c : Char) (h : isNameChar c = true ∨ c = '%') :
      (isAuthorityChar c || ['/', '?'].contains c) = true := by
    rw [isAuthorityChar_of_isNameChar c h, Bool.true_or]
  intro c hc
  unfold urlText at hc
  rw [mem_append, mem_append] at hc
  obtain (hc | hc) | hc := hc
  · rw [ht.authority.chars c hc, Bool.true_or]
  · exact all_of_isComponent hname hpath (by decide) c hc
  · cases query with
    | none => cases hc
    | some q =>
      obtain rfl | hc := mem_cons.mp hc
      · decide
      · exact all_of_isComponent hname (hquery q rfl) (by decide) c hc

theorem urlText_ascii (ht : (RequestTarget.absolute a path query).WellFormed) :
    ∀ c ∈ urlText a path query, c.toNat < 128 := by
  intro c hc
  obtain hc | hc := Bool.or_eq_true_iff.mp (urlText_chars ht c hc)
  · exact isAuthorityChar_lt hc
  · simp only [contains_cons, contains_nil, Bool.or_false, Bool.or_eq_true, beq_iff_eq] at hc
    obtain rfl | rfl := hc <;> decide

end Targets

theorem RequestTarget.WellFormed.blank {t : RequestTarget} (ht : t.WellFormed) : ' ' ∉ t.text := by
  cases t with
  | connect a => exact fun hc => absurd (ht.authority.chars _ hc) (by decide)
  | absolute a path query =>
    intro hc
    obtain hc | hc := mem_append.mp hc
    · exact absurd hc (by decide)
    · exact absurd (urlText_chars ht _ hc) (by decide)

/-- A request line is cut at its first two blanks. -/
theorem splitOn_requestLine {method target : Text} (hmethod : ' ' ∉ method) (htarget : ' ' ∉ target)
    (version : Text) :
    ∃ version' more, (method ++ ' ' :: target ++ ' ' :: version).splitOn ' '
      = method :: target :: version' :: more := by
  have hskip : ∀ {t : Text}, ' ' ∉ t → ∀ rest : Text,
      (t ++ ' ' :: rest).splitOn ' ' = t :: rest.splitOn ' ' := by
    intro t ht rest
    refine splitOnP_append_cons_of_forall_mem (fun c hc => ?_) ' ' (by decide) rest
    rw [beq_eq_false_iff_ne]
    rintro rfl
    exact ht hc
  cases hversion : version.splitOn ' ' with
  | nil => exact absurd hversion (splitOn_ne_nil ' ' version)
  | cons version' more =>
    refine ⟨version', more, ?_⟩
    rw [append_assoc, cons_append, hskip hmethod, hskip htarget, hversion]

/-- **The destination that is named is opened exactly for a target that fits and is cut
right.** -/
theorem opens_named_iff (env : Env) (client : Option IpAddr) {input header rest : Bytes}
    {t : RequestTarget} {method version : Text} (ht : t.WellFormed)
    (hheader : readHeaderBlock input = some (header, rest))
    (hline : (lines (latin1 header)).headD [] = method ++ ' ' :: t.text ++ ' ' :: version)
    (hmethod : ' ' ∉ method)
    (hconnect : Text.eqIgnoreAsciiCase method "CONNECT".toList = true ↔ ∃ a, t = .connect a)
    (hallowed : LanGuard.isLoopback client = true ∨
      httpAuthorized env (lines (latin1 header)) = true) :
    Opens (serveHttpClient env client input) t ↔ t.Fits ∧ t.CutRight := by
  obtain ⟨version', more, hsplit⟩ := splitOn_requestLine hmethod ht.blank version
  rw [← hline] at hsplit
  unfold serveHttpClient
  rw [hheader]
  show Opens (serveHead env client (lines (latin1 header)) rest) t ↔ _
  rw [serveHead_of_split hsplit hallowed]
  cases t with
  | connect a =>
    rw [if_pos (hconnect.mpr ⟨a, rfl⟩)]
    have hdialled : (serveConnect env a.text rest).dialled
        = some (.destination (connectHost a.text) (connectPort a.text)) := by
      unfold serveConnect
      split <;> rfl
    refine (opens_iff hdialled ?_).trans
      (and_congr_right fun hfits => connect_cut ht.authority hfits)
    intro c hc
    exact isAuthorityChar_lt (ht.authority.chars c (substringBeforeLast_subset ':' _ hc))
  | absolute a path query =>
    have hother : ¬ Text.eqIgnoreAsciiCase method "CONNECT".toList = true := by
      intro hconn
      obtain ⟨a', heq⟩ := hconnect.mp hconn
      cases heq
    rw [if_neg hother]
    refine (opens_iff ?_ ?_).trans
      (and_congr_right fun hfits => absolute_cut ht hfits)
    · unfold serveAbsolute RequestTarget.text
      rw [Text.strip_append]
      dsimp only
      split <;> rfl
    · exact fun c hc => urlText_ascii ht c (urlHost_subset _ hc)

/-- The head of a GET request for `http://h:8080/a`. -/
def getHead : Bytes :=
  latin1Bytes "GET http://h:8080/a HTTP/1.1\r\nProxy-Authorization: Basic dTpw\r\n\r\n".toList

def getTarget : RequestTarget :=
  .absolute ⟨none, .name ['h'], some "8080".toList⟩ ['/', 'a'] none

theorem getTarget_wellFormed : getTarget.WellFormed where
  authority :=
    { userinfo := by
        intro u hu
        cases hu
      host := ⟨by rintro t ⟨⟩; decide, by rintro t ⟨⟩⟩
      port := by
        intro p hp
        cases hp
        decide }
  absolute := by
    rintro a path query ⟨⟩
    refine ⟨.inr rfl, by decide, ?_⟩
    intro q hq
    cases hq

theorem opens_named_get :
    Opens (serveHttpClient browserEnv (some (.v4 0xc0a80105)) getHead) getTarget := by
  have hread : readHeaderBlock getHead = some (getHead, []) := by decide
  have hplain : '%' ∉ ['h'] := by decide
  have hline : (lines (latin1 getHead)).headD [] =
      "GET".toList ++ ' ' :: getTarget.text ++ ' ' :: "HTTP/1.1".toList := by decide
  refine (opens_named_iff browserEnv (some (.v4 0xc0a80105)) getTarget_wellFormed hread hline
    (by decide) ?_
    (.inr (by decide))).mpr ⟨⟨by decide, by decide⟩, hplain, .inl (by decide)⟩
  refine iff_of_false (by decide) ?_
  rintro ⟨a, heq⟩
  cases heq

/-- A CONNECT to an IPv6 address: the brackets are taken for a part of a name. -/
def connectHead : Bytes := latin1Bytes "CONNECT [::1]:443 HTTP/1.1\r\n\r\n".toList

def connectTarget : RequestTarget := .connect ⟨none, .ipv6 "::1".toList, some "443".toList⟩

theorem brackets_dialled :
    connectTarget.WellFormed ∧ connectTarget.Fits ∧
      (serveHttpClient browserEnv (some (.v4 0x7f000001)) connectHead).dialled
        = some (.destination "[::1]".toList 443) ∧
      ¬ Opens (serveHttpClient browserEnv (some (.v4 0x7f000001)) connectHead) connectTarget := by
  have hdialled : (serveHttpClient browserEnv (some (.v4 0x7f000001)) connectHead).dialled
      = some (.destination "[::1]".toList 443) := by decide
  have hascii : ∀ c ∈ "[::1]".toList, c.toNat < 128 := by simp
  refine ⟨⟨⟨?_, ⟨?_, ?_⟩, ?_⟩, ?_⟩, ⟨by decide, by decide⟩, hdialled, ?_⟩
  · intro u hu
    cases hu
  · rintro t ⟨⟩
  · rintro t ⟨⟩
    exact ⟨1, by decide⟩
  · intro p hp
    cases hp
    decide
  · rintro a path query ⟨⟩
  · rw [opens_iff hdialled hascii]
    rintro ⟨-, -, hdest, -⟩
    exact absurd hdest (by decide)

end Aether.Share
