/-
What a target can do to the CONNECT head sent to the gateway.

A target that is an address, or a name without white space and brackets where they matter,
comes out of the head as it went in.  Any other name does not: white space ends the word early
or, as a line break, the head; a bracket moves the end of the host.
-/
import Aether.Socks.Http
import Aether.Proofs.Net.Grammar
import Aether.Proofs.Socks.Udp

namespace Aether

open List

/-! ### The text of an address -/

theorem isAddrChar_digitChar {n : Nat} (h : n < 16) : isAddrChar (Nat.digitChar n) = true := by
  interval_cases n <;> decide

theorem isAddrChar_toDigits {b : Nat} (hb : 1 < b) (hle : b ≤ 16) (n : Nat) :
    ∀ c ∈ Nat.toDigits b n, isAddrChar c = true := by
  induction n using Nat.strongRecOn with
  | ind n ih =>
    intro c hc
    rw [Nat.toDigits_eq_if hb] at hc
    split at hc
    · next hlt =>
        rw [mem_singleton.mp hc]
        exact isAddrChar_digitChar (by omega)
    · next hge =>
        obtain hc | hc := mem_append.mp hc
        · exact ih (n / b) (Nat.div_lt_self (by omega) hb) c hc
        · rw [mem_singleton.mp hc]
          exact isAddrChar_digitChar (Nat.lt_of_lt_of_le (Nat.mod_lt n (by omega)) hle)

theorem groupsText_chars (segments : List Nat) :
    ∀ c ∈ groupsText segments, isAddrChar c = true := by
  fun_induction groupsText segments with
  | case1 => simp
  | case2 s => exact isAddrChar_toDigits (by decide) (by decide) s
  | case3 s rest _ ih =>
    rw [forall_mem_append, forall_mem_cons]
    exact ⟨isAddrChar_toDigits (by decide) (by decide) s, by decide, ih⟩

theorem Ipv4Addr.toText_chars (ip : Ipv4Addr) : ∀ c ∈ ip.toText, isAddrChar c = true := by
  have hoctet := fun i => isAddrChar_toDigits (by decide) (by decide : 10 ≤ 16) (ip.octet i)
  have hdot : isAddrChar '.' = true := by decide
  simp only [Ipv4Addr.toText, forall_mem_append, forall_mem_cons]
  grind

theorem Ipv6Addr.toText_chars (ip : Ipv6Addr) : ∀ c ∈ ip.toText, isAddrChar c = true := by
  have hmapped : ∀ c ∈ "::ffff:".toList, isAddrChar c = true := all_eq_true.mp (by decide)
  have hzeros : ∀ c ∈ "::".toList, isAddrChar c = true := all_eq_true.mp (by decide)
  unfold Ipv6Addr.toText
  split
  · next v4 _ => exact forall_mem_append.mpr ⟨hmapped, v4.toText_chars⟩
  · simp only
    split
    · rw [forall_mem_append, forall_mem_append]
      exact ⟨⟨groupsText_chars _, hzeros⟩, groupsText_chars _⟩
    · exact groupsText_chars _

theorem groupsText_ne_nil {segments : List Nat} (h : segments ≠ []) : groupsText segments ≠ [] := by
  fun_cases groupsText segments with
  | case1 => exact absurd rfl h
  | case2 s => exact Nat.toDigits_ne_nil
  | case3 s rest _ => simp

theorem IpAddr.toText_ne_nil (ip : IpAddr) : ip.toText ≠ [] := by
  cases ip with
  | v4 ip => simp [IpAddr.toText, Ipv4Addr.toText]
  | v6 ip =>
    unfold IpAddr.toText Ipv6Addr.toText
    simp only
    split
    · simp
    · split
      · simp
      · exact groupsText_ne_nil (by simp [Ipv6Addr.segments])

namespace Socks

/-- A host that a CONNECT line gives back. -/
structure PlainHost (host : Text) : Prop where
  nonempty : host ≠ []
  solid : Text.Solid host
  noOpen : host.head? ≠ some '['
  noClose : ':' ∈ host → ']' ∉ host

/-- Addresses are plain. -/
theorem plainHost_ip (ip : IpAddr) : PlainHost ip.toText := by
  have hchars : ∀ c ∈ ip.toText, isAddrChar c = true := by
    cases ip with
    | v4 ip | v6 ip => exact ip.toText_chars
  refine ⟨ip.toText_ne_nil, solid_of_addrChars hchars, fun hhead => ?_, fun _ hclose => ?_⟩
  · exact absurd (hchars '[' (mem_of_mem_head? hhead)) (by decide)
  · exact absurd (hchars ']' hclose) (by decide)

/-! ### Authorities -/

variable {host : Text} {port : Nat}

/-- What `parse_authority` can give: what stands between brackets, or what stands before the
only colon, or all of it. -/
theorem parseAuthority_cases {raw : Text} {d : Nat}
    (h : parseAuthority raw d = some (host, port)) :
    host ≠ [] ∧ ((∃ tail, Text.trim raw = '[' :: (host ++ ']' :: tail) ∧ ']' ∉ host) ∨
      ((Text.trim raw).head? ≠ some '[' ∧
        (Text.trim raw = host ∨ ∃ tail, Text.trim raw = host ++ ':' :: tail))) := by
  have hhead (hstrip : Text.strip ['['] (Text.trim raw) = none) :
      (Text.trim raw).head? ≠ some '[' := by
    intro hhead
    obtain ⟨rest, hrest⟩ := List.head?_eq_some_iff.mp hhead
    rw [hrest, show '[' :: rest = ['['] ++ rest from rfl, Text.strip_append] at hstrip
    cases hstrip
  revert h
  fun_cases parseAuthority raw d <;> intro h
  case case2 word hword rest hstrip =>
    obtain ⟨⟨inner, tail⟩, hcut, h⟩ := Option.bind_eq_some_iff.mp h
    rw [Option.ite_none_left_eq_some] at h
    obtain ⟨hne, h⟩ := h
    have hhost : inner = host := by
      split at h
      · obtain ⟨_, -, h⟩ := Option.bind_eq_some_iff.mp h
        cases h
        rfl
      · cases h
        rfl
    subst hhost
    refine ⟨hne, .inl ⟨tail, (Text.eq_of_strip hstrip).trans ?_, Text.notMem_of_splitOnce hcut⟩⟩
    rw [Text.eq_of_splitOnce hcut]
    simp
  case case3 word hword hstrip before after hcut _ =>
    have hhost : word = host := congrArg Prod.fst (Option.some.inj h)
    exact ⟨hhost ▸ hword, .inr ⟨hhead hstrip, .inl hhost⟩⟩
  case case5 word hword hstrip before after hcut _ hne =>
    obtain ⟨_, -, h⟩ := Option.bind_eq_some_iff.mp h
    cases h
    exact ⟨hne, .inr ⟨hhead hstrip, .inr ⟨after, Text.eq_of_rsplitOnce hcut⟩⟩⟩
  case case6 word hword hstrip _ =>
    have hhost : word = host := congrArg Prod.fst (Option.some.inj h)
    exact ⟨hhost ▸ hword, .inr ⟨hhead hstrip, .inl hhost⟩⟩
  all_goals cases h

/-- A host is part of the text it was read from. -/
theorem parseAuthority_mem {raw : Text} {d : Nat} (h : parseAuthority raw d = some (host, port)) :
    ∀ c ∈ host, c ∈ Text.trim raw := by
  intro c hc
  obtain ⟨-, ⟨tail, htrim, -⟩ | ⟨-, htrim | ⟨tail, htrim⟩⟩⟩ := parseAuthority_cases h
  · rw [htrim]
    simp [hc]
  · rwa [htrim]
  · rw [htrim]
    simp [hc]

theorem solid_toDigits (n : Nat) : Text.Solid (Nat.toDigits 10 n) :=
  solid_of_addrChars (isAddrChar_toDigits (by decide) (by decide) n)

theorem notMem_toDigits {c : Char} (hc : c.isDigit = false) (n : Nat) : c ∉ Nat.toDigits 10 n := by
  intro hmem
  rw [Nat.isDigit_of_mem_toDigits (by decide) (by decide) hmem] at hc
  cases hc

theorem parseU16_toDigits (hport : port < 65536) : parseU16 (Nat.toDigits 10 port) = some port :=
  Text.parseUnsigned_toDigits hport

theorem parseAuthority_bracket (hport : port < 65536) (hsolid : Text.Solid host) (hne : host ≠ [])
    (hclose : ']' ∉ host) (d : Nat) :
    parseAuthority (['['] ++ host ++ [']', ':'] ++ Nat.toDigits 10 port) d = some (host, port) := by
  have hword : Text.Solid (['['] ++ host ++ [']', ':'] ++ Nat.toDigits 10 port) := by
    rw [Text.solid_append, Text.solid_append, Text.solid_append]
    exact ⟨⟨⟨by decide, hsolid⟩, by decide⟩, solid_toDigits port⟩
  have hopen : Text.strip ['['] (['['] ++ host ++ [']', ':'] ++ Nat.toDigits 10 port) =
      some (host ++ ']' :: ':' :: Nat.toDigits 10 port) := by
    rw [append_assoc, append_assoc, Text.strip_append]
    rfl
  have hcut : Text.splitOnce [']'] (host ++ ']' :: ':' :: Nat.toDigits 10 port) =
      some (host, ':' :: Nat.toDigits 10 port) :=
    Text.splitOnce_char hclose _
  have hcolon : Text.strip [':'] (':' :: Nat.toDigits 10 port) = some (Nat.toDigits 10 port) :=
    Text.strip_append [':'] (Nat.toDigits 10 port)
  unfold parseAuthority
  simp only [Text.trim_of_solid hword, hopen, Option.bind_eq_bind, hcut, Option.bind_some, hcolon,
    if_neg hne, parseU16_toDigits hport]
  simp

theorem parseAuthority_colon (hport : port < 65536) (hsolid : Text.Solid host) (hne : host ≠ [])
    (hopen : host.head? ≠ some '[') (hcolon : ':' ∉ host) (d : Nat) :
    parseAuthority (host ++ [':'] ++ Nat.toDigits 10 port) d = some (host, port) := by
  have hword : Text.Solid (host ++ [':'] ++ Nat.toDigits 10 port) := by
    rw [Text.solid_append, Text.solid_append]
    exact ⟨⟨hsolid, by decide⟩, solid_toDigits port⟩
  have hstrip : Text.strip ['['] (host ++ [':'] ++ Nat.toDigits 10 port) = none := by
    apply Text.strip_eq_none
    intro rest heq
    cases host with
    | nil => exact hne rfl
    | cons c host =>
      obtain ⟨rfl, -⟩ := List.cons.inj heq
      exact hopen rfl
  have hcut : Text.rsplitOnce ':' (host ++ [':'] ++ Nat.toDigits 10 port) =
      some (host, Nat.toDigits 10 port) := by
    rw [append_assoc]
    exact Text.rsplitOnce_of_notMem (notMem_toDigits rfl port)
  unfold parseAuthority
  simp only [Text.trim_of_solid hword, hstrip, hcut, if_neg hcolon, if_neg hne,
    parseU16_toDigits hport]
  simp

theorem proxyAuthority_solid (hsolid : Text.Solid host) :
    Text.Solid (proxyAuthority host port) := by
  have hdigits := solid_toDigits port
  have hbrackets : Text.Solid ['['] ∧ Text.Solid [']', ':'] ∧ Text.Solid [':'] := by decide
  unfold proxyAuthority
  split
  · simp only [Text.solid_append]
    exact ⟨⟨⟨hbrackets.1, hsolid⟩, hbrackets.2.1⟩, hdigits⟩
  · simp only [Text.solid_append]
    exact ⟨⟨hsolid, hbrackets.2.2⟩, hdigits⟩

/-- The word built for a host is read back as that host exactly if it is a plain one. -/
theorem parseAuthority_proxyAuthority (hport : port < 65536) (hsolid : Text.Solid host) :
    parseAuthority (proxyAuthority host port) 443 = some (host, port) ↔ PlainHost host := by
  constructor
  · intro h
    obtain ⟨hne, hcases⟩ := parseAuthority_cases h
    rw [Text.trim_of_solid (proxyAuthority_solid hsolid)] at hcases
    unfold proxyAuthority at hcases
    split at hcases
    · next hcolon =>
        obtain ⟨tail, -, hclose⟩ | ⟨hhead, -⟩ := hcases
        · exact ⟨hne, hsolid, hcolon.2, fun _ => hclose⟩
        · exact absurd rfl hhead
    · next hcolon =>
        obtain ⟨tail, heq, hclose⟩ | ⟨hhead, -⟩ := hcases
        · -- the bracket that ended the host would have to be in it
          have hmem : ']' ∈ host ++ [':'] ++ Nat.toDigits 10 port := by
            rw [heq]
            simp
          simp [hclose, notMem_toDigits (rfl : ']'.isDigit = false)] at hmem
        · have hopen : host.head? ≠ some '[' := by
            cases host with
            | nil => exact absurd rfl hne
            | cons c host => simpa using hhead
          exact ⟨hne, hsolid, hopen, fun hmem => absurd ⟨hmem, hopen⟩ hcolon⟩
  · intro h
    unfold proxyAuthority
    split
    · next hcolon => exact parseAuthority_bracket hport h.solid h.nonempty (h.noClose hcolon.1) 443
    · next hcolon =>
        have hnot : ':' ∉ host := fun hmem => hcolon ⟨hmem, h.noOpen⟩
        exact parseAuthority_colon hport h.solid h.nonempty h.noOpen hnot 443

/-! ### Request lines -/

/-- The host of a CONNECT is one word of its line. -/
theorem solid_of_parseRequestLine {line : Text} {request : HttpRequestLine}
    (h : parseRequestLine line = some request) (hmethod : request.method = "CONNECT".toList) :
    Text.Solid request.authority := by
  unfold parseRequestLine at h
  split at h
  · next method target parts hwords =>
      have hsolid : Text.Solid target := Text.solid_of_mem (t := line) (by simp [hwords])
      split at h
      · simp only [Option.bind_eq_bind, Option.bind_eq_some_iff, Option.pure_def,
          Option.some.injEq] at h
        obtain ⟨⟨authority, port⟩, hparse, rfl⟩ := h
        intro c hc
        have hmem := parseAuthority_mem hparse c hc
        rw [Text.trim_of_solid hsolid] at hmem
        exact hsolid c hmem
      · next hnot =>
          -- another method than CONNECT
          simp only [Option.bind_eq_bind, Option.bind_eq_some_iff, Option.pure_def,
            Option.some.injEq] at h
          obtain ⟨rest, -, ⟨authority, port⟩, -, rfl⟩ := h
          exact absurd (by rw [show method = "CONNECT".toList from hmethod]; decide) hnot
  · cases h

/-- The line of a CONNECT whose target is one word. -/
theorem parseRequestLine_connect {word : Text} (hsolid : Text.Solid word) (hne : word ≠ []) :
    parseRequestLine ("CONNECT ".toList ++ word ++ " HTTP/1.1".toList) =
      (parseAuthority word 443).map fun r =>
        { method := "CONNECT".toList, authority := r.1, port := r.2, rewritten := none } := by
  have hwords : Text.splitWhitespace ("CONNECT ".toList ++ word ++ " HTTP/1.1".toList) =
      ["CONNECT".toList, word, "HTTP/1.1".toList] := by
    have hline : "CONNECT ".toList ++ word ++ " HTTP/1.1".toList =
        "CONNECT".toList ++ ' ' :: (word ++ ' ' :: "HTTP/1.1".toList) := by
      simp
    rw [hline, Text.splitWhitespace_append (by decide) (by decide) (by decide),
      Text.splitWhitespace_append hsolid hne (by decide),
      Text.splitWhitespace_of_solid (by decide) (by decide)]
  unfold parseRequestLine
  rw [hwords]
  simp only [show Text.eqIgnoreAsciiCase "CONNECT".toList "CONNECT".toList = true by decide,
    if_true]
  cases parseAuthority word 443 <;> rfl

/-! ### The head -/

/-- Three lines and an empty one hold the end of a head only at their end. -/
theorem crlfcrlf_once {a b c before after : Bytes} (ha : cr ∉ a) (hb : cr ∉ b) (hc : cr ∉ c)
    (hbne : b ≠ []) (hcne : c ≠ [])
    (h : a ++ cr :: lf :: (b ++ cr :: lf :: (c ++ crlfcrlf)) = before ++ crlfcrlf ++ after) :
    after = [] := by
  have hne : cr ≠ lf := by decide
  have hnot : ∀ {l : Bytes}, cr ∉ l → cr ∉ lf :: l := fun hl => by
    simp [hl, hne]
  have hhead : ∀ {l r : Bytes}, cr ∉ l → l ≠ [] → lf :: (l ++ r) ≠ lf :: cr :: lf :: after := by
    intro l r hl hne heq
    cases l with
    | nil => exact hne rfl
    | cons x l =>
      simp only [cons_append, List.cons.injEq, true_and] at heq
      exact hl (by simp [heq.1])
  rw [append_assoc] at h
  -- the first carriage return is the end of a line that is not empty, and so is the second
  obtain ⟨-, heq⟩ | ⟨m, -, h⟩ := Text.append_cons_eq ha h
  · exact absurd heq.symm (hhead hb hbne)
  · obtain ⟨-, heq⟩ | ⟨m, -, h⟩ := Text.append_cons_eq (hnot hb) h
    · exact absurd heq.symm (hhead hc hcne)
    · -- the third is the end of the last line
      obtain ⟨-, heq⟩ | ⟨m, -, h⟩ := Text.append_cons_eq (hnot hc) h
      · simpa [crlfcrlf] using heq
      · have hlen := congrArg List.length h
        simp at hlen
        omega

/-- The head cannot be bent: it ends where it should, and its line names the host and port. -/
structure HeadIntact (head : Bytes) (host : Text) (port : Nat) : Prop where
  ends : crlfcrlf <:+ head
  once : ∀ before after, head = before ++ crlfcrlf ++ after → after = []
  line : ∃ request, parseRequestLine (Text.firstLine (Utf8.decodeLossy head)) = some request ∧
    request.method = "CONNECT".toList ∧ request.authority = host ∧ request.port = port

/-- The first line of the head, for a host of one word. -/
theorem firstLine_buildProxyConnect (hsolid : Text.Solid host) :
    Text.firstLine (Utf8.decodeLossy (buildProxyConnect host port)) =
      "CONNECT ".toList ++ proxyAuthority host port ++ " HTTP/1.1".toList := by
  have hline : '\n' ∉ "CONNECT ".toList ++ proxyAuthority host port ++ " HTTP/1.1".toList := by
    have hword : '\n' ∉ proxyAuthority host port := fun hmem =>
      absurd (proxyAuthority_solid hsolid '\n' hmem) (by decide)
    simp [hword]
  have htext : Utf8.decodeLossy (buildProxyConnect host port) =
      "CONNECT ".toList ++ proxyAuthority host port ++ " HTTP/1.1".toList ++ '\r' :: '\n' ::
        ("Host: ".toList ++ proxyAuthority host port ++ crlf ++
          ("User-Agent: ".toList ++ uaRegister ++ crlf) ++ crlf) := by
    unfold buildProxyConnect
    rw [Utf8.decodeLossy_encode]
    simp [crlf]
  rw [htext, Text.firstLine_crlf hline]

/-- The bytes of the head, line by line. -/
theorem buildProxyConnect_eq (host : Text) (port : Nat) :
    buildProxyConnect host port =
      Utf8.encode ("CONNECT ".toList ++ proxyAuthority host port ++ " HTTP/1.1".toList) ++
        cr :: lf :: (Utf8.encode ("Host: ".toList ++ proxyAuthority host port) ++
          cr :: lf :: (Utf8.encode ("User-Agent: ".toList ++ uaRegister) ++ crlfcrlf)) := by
  have hcrlf : Utf8.encode crlf = [cr, lf] := by decide
  unfold buildProxyConnect
  simp [hcrlf, crlfcrlf]

theorem cr_notMem_encode {t : Text} (h : '\r' ∉ t) : cr ∉ Utf8.encode t := fun hmem =>
  h (Utf8.mem_of_mem_encode (by decide) hmem)

/-- **Which hosts leave the head intact.** -/
theorem headIntact_iff (hport : port < 65536) :
    HeadIntact (buildProxyConnect host port) host port ↔ PlainHost host := by
  have hword : proxyAuthority host port ≠ [] := by
    unfold proxyAuthority
    split <;> simp
  constructor
  · intro h
    obtain ⟨request, hparse, hmethod, hauthority, hrport⟩ := h.line
    have hsolid : Text.Solid host := hauthority ▸ solid_of_parseRequestLine hparse hmethod
    rw [firstLine_buildProxyConnect hsolid,
      parseRequestLine_connect (proxyAuthority_solid hsolid) hword] at hparse
    simp only [Option.map_eq_some_iff] at hparse
    obtain ⟨⟨authority, rport⟩, hread, rfl⟩ := hparse
    rw [← parseAuthority_proxyAuthority hport hsolid, hread, ← hauthority, ← hrport]
  · intro h
    have hsolid := h.solid
    have hcr : '\r' ∉ proxyAuthority host port := fun hmem =>
      absurd (proxyAuthority_solid hsolid '\r' hmem) (by decide)
    refine ⟨?_, fun before after heq => ?_, ?_⟩
    · rw [buildProxyConnect_eq]
      simp only [← cons_append, ← append_assoc]
      exact suffix_append _ _
    · rw [buildProxyConnect_eq] at heq
      refine crlfcrlf_once (cr_notMem_encode ?_) (cr_notMem_encode ?_) (cr_notMem_encode ?_) ?_ ?_
        heq
      · simp [hcr]
      · simp [hcr]
      · decide
      · simp
      · decide
    · refine ⟨{ method := "CONNECT".toList, authority := host, port, rewritten := none }, ?_, rfl,
        rfl, rfl⟩
      rw [firstLine_buildProxyConnect hsolid,
        parseRequestLine_connect (proxyAuthority_solid hsolid) hword,
        (parseAuthority_proxyAuthority hport hsolid).mpr h, Option.map_some]

/-- **Which targets leave the head intact**: every address, and the plain names. -/
theorem connect_head_intact_iff (target : Target) (port : UInt16) :
    HeadIntact (buildProxyConnect target.toText port.toNat) target.toText port.toNat ↔
      ∀ name, target = .domain name → PlainHost name := by
  rw [headIntact_iff port.toNat_lt]
  cases target with
  | ip addr => exact iff_of_true (plainHost_ip addr) nofun
  | domain name =>
    constructor
    · intro h name' heq
      cases heq
      exact h
    · intro h
      exact h name rfl

/-- A name a client may send: line breaks in it end the head before its time. -/
def bentName : Text := "a\r\n\r\nb".toList

theorem connect_head_bent :
    readTarget atypDomain [6, 97, 13, 10, 13, 10, 98, 0, 80] = some (.domain bentName, 80, []) ∧
      ¬ HeadIntact (buildProxyConnect bentName 80) bentName 80 := by
  refine ⟨by decide, fun h => ?_⟩
  have hsolid := ((headIntact_iff (by decide)).mp h).solid
  exact absurd hsolid (by decide)

end Socks

end Aether
