/-
The four UDP header functions agree with one another.

Both encoders write the same header, both decoders read it back, and neither accepts a part of
it.  On any buffer that both decoders accept they stop at the same place; only a name, which
one keeps as a text and the other reads as an address, is understood differently.

A header has no room for the flow label and the scope of an IPv6 socket address, so these do
not come back.
-/
import Aether.Socks.Udp
import Aether.Proofs.Masque.Octets

namespace Aether

open List

/-! ### Octets -/

theorem Ipv4Addr.ofOctets_octets (ip : Ipv4Addr) : ofOctets ip.octets = ip := by
  unfold ofOctets octets
  have hlt : ip.toNat < 256 ^ 4 := ip.isLt
  rw [beNat_beBytes, Nat.mod_eq_of_lt hlt, BitVec.ofNat_toNat, BitVec.setWidth_eq]

theorem Ipv6Addr.ofOctets_octets (ip : Ipv6Addr) : ofOctets ip.octets = ip := by
  unfold ofOctets octets
  have hlt : ip.toNat < 256 ^ 16 := ip.isLt
  rw [beNat_beBytes, Nat.mod_eq_of_lt hlt, BitVec.ofNat_toNat, BitVec.setWidth_eq]

@[simp] theorem Ipv4Addr.length_octets (ip : Ipv4Addr) : ip.octets.length = 4 :=
  length_beBytes 4 ip.toNat

@[simp] theorem Ipv6Addr.length_octets (ip : Ipv6Addr) : ip.octets.length = 16 :=
  length_beBytes 16 ip.toNat

theorem u16FromBe_u16ToBe (n : UInt16) : u16FromBe (u16ToBe n) = n := by
  unfold u16FromBe u16ToBe
  have hlt : n.toNat < 256 ^ 2 := n.toNat_lt
  rw [beNat_beBytes, Nat.mod_eq_of_lt hlt, UInt16.ofNat_toNat]

@[simp] theorem length_u16ToBe (n : UInt16) : (u16ToBe n).length = 2 := length_beBytes 2 n.toNat

/-- Nothing in the address but its IP and its port. -/
def StdSocketAddr.Plain : StdSocketAddr → Prop
  | .v4 _ _ => True
  | .v6 _ _ flowinfo scopeId => flowinfo = 0 ∧ scopeId = 0

namespace Socks

open Upstream

/-! ### Headers -/

/-- The two encoders write the same header. -/
theorem buildUdpReply_eq (a : StdSocketAddr) (p : Bytes) :
    buildUdpReply a p = encodeUdpHeader a ++ p := by
  unfold buildUdpReply encodeUdpHeader encodeAddress
  cases a.ip <;> simp

/-- The header of an address: three zeros, the type, the octets, the port. -/
def header (atyp : UInt8) (octets : Bytes) (port : UInt16) : Bytes :=
  [0x00, 0x00, 0x00, atyp] ++ (octets ++ u16ToBe port)

theorem encodeUdpHeader_v4 (ip : Ipv4Addr) (port : UInt16) :
    encodeUdpHeader (.v4 ip port) = header atypV4 ip.octets port := by
  simp [encodeUdpHeader, encodeAddress, header, StdSocketAddr.ip, StdSocketAddr.port]

theorem encodeUdpHeader_v6 (ip : Ipv6Addr) (port : UInt16) (flowinfo scopeId : UInt32) :
    encodeUdpHeader (.v6 ip port flowinfo scopeId) = header atypV6 ip.octets port := by
  simp [encodeUdpHeader, encodeAddress, header, StdSocketAddr.ip, StdSocketAddr.port]

@[simp] theorem length_header (atyp : UInt8) (octets : Bytes) (port : UInt16) :
    (header atyp octets port).length = octets.length + 6 := by
  simp [header]

section

variable {atyp : UInt8} {octets p : Bytes} {port : UInt16}

/-- The first check of both decoders passes. -/
theorem header_framed : ¬ ((header atyp octets port ++ p).length < 4 ∨
    (header atyp octets port ++ p).getD 2 0 ≠ 0) := by
  intro h
  obtain hlen | hfrag := h
  · rw [length_append, length_header] at hlen
    omega
  · exact hfrag rfl

theorem header_atyp : (header atyp octets port ++ p).getD 3 0 = atyp := rfl

/-- The octets, the port and the payload stand at their places. -/
theorem slice_header (atyp : UInt8) (port : UInt16) (p : Bytes) {n : Nat}
    (hn : octets.length = n) :
    slice (header atyp octets port ++ p) 4 n = octets ∧
      slice (header atyp octets port ++ p) (4 + n) 2 = u16ToBe port ∧
      (header atyp octets port ++ p).drop (4 + n + 2) = p := by
  subst hn
  rw [Nat.add_comm 4]
  unfold slice header
  simp

/-! ### Reading what was written -/

/-- The requests of `socks.rs`, once the target is read. -/
theorem parseUdpRequest_header {target : Target} {n : Nat} (hn : octets.length = n)
    (htarget : parseUdpTarget (header atyp octets port ++ p) atyp 4 = some (target, 4 + n)) :
    parseUdpRequest (header atyp octets port ++ p) = some (target, port, p) := by
  obtain ⟨-, hport, hdata⟩ := slice_header atyp port p hn
  have hlen : (header atyp octets port ++ p).length = n + 6 + p.length := by
    rw [length_append, length_header, hn]
  unfold parseUdpRequest
  rw [if_neg header_framed, header_atyp, htarget]
  show (if (header atyp octets port ++ p).length < 4 + n + 2 then none else some _) = _
  rw [if_neg (by omega), hport, hdata, u16FromBe_u16ToBe]

end

theorem parseUdpRequest_encode (a : StdSocketAddr) (p : Bytes) :
    parseUdpRequest (encodeUdpHeader a ++ p) = some (.ip a.ip, a.port, p) := by
  cases a with
  | v4 ip port =>
    rw [encodeUdpHeader_v4]
    apply parseUdpRequest_header ip.length_octets
    obtain ⟨hoctets, -⟩ := slice_header atypV4 port p ip.length_octets
    have hlen : (header atypV4 ip.octets port ++ p).length = 10 + p.length := by simp
    unfold parseUdpTarget
    rw [if_pos rfl, if_neg (by omega), hoctets, Ipv4Addr.ofOctets_octets]
    rfl
  | v6 ip port flowinfo scopeId =>
    rw [encodeUdpHeader_v6]
    apply parseUdpRequest_header ip.length_octets
    obtain ⟨hoctets, -⟩ := slice_header atypV6 port p ip.length_octets
    have hlen : (header atypV6 ip.octets port ++ p).length = 22 + p.length := by simp
    unfold parseUdpTarget
    rw [if_neg (by decide), if_pos rfl, if_neg (by omega), hoctets, Ipv6Addr.ofOctets_octets]
    rfl

/-- What `upstream.rs` reads: the address without its flow label and scope. -/
theorem decodeUdpHeader_encode (a : StdSocketAddr) (p : Bytes) :
    decodeUdpHeader (encodeUdpHeader a ++ p) =
      some (.new a.ip a.port, (encodeUdpHeader a).length) := by
  cases a with
  | v4 ip port =>
    rw [encodeUdpHeader_v4]
    obtain ⟨hoctets, hport, -⟩ :=
      slice_header atypV4 port p ip.length_octets
    have hlen : (header atypV4 ip.octets port ++ p).length = 10 + p.length := by simp
    unfold decodeUdpHeader
    rw [if_neg header_framed, header_atyp, if_pos rfl, if_neg (by omega), hoctets, hport,
      Ipv4Addr.ofOctets_octets, u16FromBe_u16ToBe, length_header, Ipv4Addr.length_octets]
    rfl
  | v6 ip port flowinfo scopeId =>
    rw [encodeUdpHeader_v6]
    obtain ⟨hoctets, hport, -⟩ :=
      slice_header atypV6 port p ip.length_octets
    have hlen : (header atypV6 ip.octets port ++ p).length = 22 + p.length := by simp
    unfold decodeUdpHeader
    rw [if_neg header_framed, header_atyp, if_neg (by decide), if_pos rfl, if_neg (by omega),
      hoctets, hport, Ipv6Addr.ofOctets_octets, u16FromBe_u16ToBe, length_header,
      Ipv6Addr.length_octets]
    rfl

variable {a : StdSocketAddr} {pos offset : Nat} {target : Target} {port : UInt16}

theorem new_ip_port : StdSocketAddr.new a.ip a.port = a ↔ a.Plain := by
  cases a with
  | v4 ip port =>
    simp [StdSocketAddr.new, StdSocketAddr.ip, StdSocketAddr.port, StdSocketAddr.Plain]
  | v6 ip port flowinfo scopeId =>
    simp [StdSocketAddr.new, StdSocketAddr.ip, StdSocketAddr.port, StdSocketAddr.Plain, eq_comm]

/-! ### What an accepted buffer looks like -/

variable {buf : Bytes}

/-- Where the port stands, by the type of the address, and the address if it is in octets. -/
inductive PortAt (buf : Bytes) : Nat → Option IpAddr → Prop
  | v4 (h : buf.getD 3 0 = atypV4) : PortAt buf 8 (some (.v4 (.ofOctets (slice buf 4 4))))
  | v6 (h : buf.getD 3 0 = atypV6) : PortAt buf 20 (some (.v6 (.ofOctets (slice buf 4 16))))
  | domain {len : UInt8} (h : buf.getD 3 0 = atypDomain) (hlen : buf[4]? = some len) :
      PortAt buf (5 + len.toNat) none

theorem PortAt.unique {m n : Nat} {x y : Option IpAddr} (hm : PortAt buf m x)
    (hn : PortAt buf n y) : m = n ∧ x = y := by
  have hdiff : atypV4 ≠ atypV6 ∧ atypV4 ≠ atypDomain ∧ atypV6 ≠ atypDomain := by decide
  cases hm <;> cases hn <;> grind

theorem parseUdpTarget_cases (h : parseUdpTarget buf (buf.getD 3 0) 4 = some (target, pos)) :
    ∃ octets, PortAt buf pos octets ∧ ∀ ip ∈ octets, target = .ip ip := by
  revert h
  fun_cases parseUdpTarget buf (buf.getD 3 0) 4 <;> intro h
  case case2 hatyp _ =>
    cases h
    exact ⟨_, .v4 hatyp, fun _ hip => congrArg Target.ip (Option.some.inj hip)⟩
  case case4 hatyp _ =>
    cases h
    exact ⟨_, .v6 hatyp, fun _ hip => congrArg Target.ip (Option.some.inj hip)⟩
  case case5 hatyp =>
    obtain ⟨len, hlen, h⟩ := Option.bind_eq_some_iff.mp h
    rw [Option.ite_none_left_eq_some] at h
    obtain ⟨-, h⟩ := h
    cases h
    exact ⟨_, .domain hatyp hlen, nofun⟩
  all_goals cases h

/-- The requests that are accepted. -/
theorem parseUdpRequest_cases {data : Bytes} (h : parseUdpRequest buf = some (target, port, data)) :
    ∃ pos octets, PortAt buf pos octets ∧ pos + 2 ≤ buf.length ∧
      port = u16FromBe (slice buf pos 2) ∧ data = buf.drop (pos + 2) ∧
      ∀ ip ∈ octets, target = .ip ip := by
  unfold parseUdpRequest at h
  rw [Option.ite_none_left_eq_some] at h
  obtain ⟨-, h⟩ := h
  obtain ⟨⟨target', pos⟩, htarget, h⟩ := Option.bind_eq_some_iff.mp h
  simp only [Option.ite_none_left_eq_some, Option.some.injEq, Prod.mk.injEq] at h
  obtain ⟨hlen, rfl, rfl, rfl⟩ := h
  obtain ⟨octets, hat, hip⟩ := parseUdpTarget_cases htarget
  exact ⟨pos, octets, hat, by omega, rfl, rfl, hip⟩

/-- The headers that are accepted. -/
theorem decodeUdpHeader_cases (h : decodeUdpHeader buf = some (a, offset)) :
    ∃ pos octets, PortAt buf pos octets ∧ offset = pos + 2 ∧ pos + 2 ≤ buf.length ∧
      a.port = u16FromBe (slice buf pos 2) ∧ ∀ ip ∈ octets, a.ip = ip := by
  revert h
  fun_cases decodeUdpHeader buf <;> intro h
  case case3 _ hatyp hlen =>
    cases h
    exact ⟨8, _, .v4 hatyp, rfl, by omega, rfl, fun _ => Option.some.inj⟩
  case case5 _ _ hatyp hlen =>
    cases h
    exact ⟨20, _, .v6 hatyp, rfl, by omega, rfl, fun _ => Option.some.inj⟩
  case case6 _ _ _ hatyp =>
    obtain ⟨len, hlen, h⟩ := Option.bind_eq_some_iff.mp h
    simp only [Option.ite_none_left_eq_some, Option.bind_eq_bind, Option.bind_eq_some_iff] at h
    obtain ⟨hshort, name, -, ip, -, heq⟩ := h
    cases heq
    refine ⟨5 + len.toNat, _, .domain hatyp hlen, rfl, by omega, ?_, nofun⟩
    cases ip <;> rfl
  all_goals cases h

/-! ### Parts of a header -/

/-- A buffer that ends before the port is refused. -/
theorem refused_of_short {octets : Option IpAddr} (hat : PortAt buf pos octets)
    (hlen : buf.length < pos + 2) : parseUdpRequest buf = none ∧ decodeUdpHeader buf = none := by
  constructor
  · rw [Option.eq_none_iff_forall_ne_some]
    intro r h
    obtain ⟨pos', _, hat', hlong, -⟩ :=
      parseUdpRequest_cases (show _ = some (r.1, r.2.1, r.2.2) from h)
    have hsame := (hat.unique hat').1
    omega
  · rw [Option.eq_none_iff_forall_ne_some]
    intro r h
    obtain ⟨pos', _, hat', -, hlong, -⟩ := decodeUdpHeader_cases (show _ = some (r.1, r.2) from h)
    have hsame := (hat.unique hat').1
    omega

/-- One whose fragment number is not zero. -/
theorem refused_of_frag (hfrag : buf.getD 2 0 ≠ 0) :
    parseUdpRequest buf = none ∧ decodeUdpHeader buf = none := by
  unfold parseUdpRequest decodeUdpHeader
  rw [if_pos (.inr hfrag), if_pos (.inr hfrag)]
  exact ⟨rfl, rfl⟩

theorem take_header_refused (a : StdSocketAddr) {k : Nat} (hk : k < (encodeUdpHeader a).length) :
    parseUdpRequest ((encodeUdpHeader a).take k) = none ∧
      decodeUdpHeader ((encodeUdpHeader a).take k) = none := by
  have hlen : ((encodeUdpHeader a).take k).length = k := by
    rw [length_take]
    omega
  by_cases hfour : k < 4
  · unfold parseUdpRequest decodeUdpHeader
    rw [if_pos (.inl (by omega)), if_pos (.inl (by omega))]
    exact ⟨rfl, rfl⟩
  · have hatyp : ((encodeUdpHeader a).take k).getD 3 0 = (encodeUdpHeader a).getD 3 0 := by
      rw [getD_eq_getElem?_getD, List.getElem?_take_of_lt (by omega),
        getD_eq_getElem?_getD]
    cases a with
    | v4 ip port =>
      apply refused_of_short (.v4 hatyp)
      rw [encodeUdpHeader_v4, length_header, Ipv4Addr.length_octets] at hk
      omega
    | v6 ip port flowinfo scopeId =>
      apply refused_of_short (.v6 hatyp)
      rw [encodeUdpHeader_v6, length_header, Ipv6Addr.length_octets] at hk
      omega

/-! ### The codecs together -/

/-- Where both decoders accept, they stop at the same place and read the same port, and the
same address if it is in octets. -/
theorem accepted_alike {data : Bytes} (hparse : parseUdpRequest buf = some (target, port, data))
    (hdecode : decodeUdpHeader buf = some (a, offset)) :
    data = buf.drop offset ∧ offset + data.length = buf.length ∧ port = a.port ∧
      (buf.getD 3 0 = atypV4 ∨ buf.getD 3 0 = atypV6 → target = .ip a.ip) := by
  obtain ⟨pos, octets, hat, hlong, rfl, rfl, htarget⟩ := parseUdpRequest_cases hparse
  obtain ⟨pos', octets', hat', rfl, -, hport, hip⟩ := decodeUdpHeader_cases hdecode
  obtain ⟨rfl, rfl⟩ := hat.unique hat'
  refine ⟨rfl, ?_, hport.symm, fun hatyp => ?_⟩
  · rw [length_drop]
    omega
  · cases hat with
    | v4 h | v6 h => rw [htarget _ rfl, hip _ rfl]
    | domain h hlen =>
      rw [h] at hatyp
      exact absurd hatyp (by decide)

/-- **The UDP codecs agree.**  A written header is read back by both decoders, no strict part
of it is accepted, fragments are refused, and buffers that both accept are cut alike.  The
address itself comes back exactly when it carries nothing but an IP and a port. -/
theorem udp_codecs_agree :
    (∀ a p, parseUdpRequest (encodeUdpHeader a ++ p) = some (.ip a.ip, a.port, p)) ∧
    (∀ a p, parseUdpRequest (buildUdpReply a p) = some (.ip a.ip, a.port, p)) ∧
    (∀ a p, ∃ offset, (buildUdpReply a p).drop offset = p ∧
      decodeUdpHeader (buildUdpReply a p) = some (.new a.ip a.port, offset) ∧
      (decodeUdpHeader (buildUdpReply a p) = some (a, offset) ↔ a.Plain)) ∧
    (∀ a k, k < (encodeUdpHeader a).length →
      parseUdpRequest ((encodeUdpHeader a).take k) = none ∧
        decodeUdpHeader ((encodeUdpHeader a).take k) = none) ∧
    (∀ a p, buildUdpReply a p = encodeUdpHeader a ++ p) ∧
    (∀ buf frag, buf[2]? = some frag → frag ≠ 0 →
      parseUdpRequest buf = none ∧ decodeUdpHeader buf = none) ∧
    ∀ buf target port data a offset, parseUdpRequest buf = some (target, port, data) →
      decodeUdpHeader buf = some (a, offset) →
      data = buf.drop offset ∧ offset + data.length = buf.length ∧ port = a.port ∧
        (buf.getD 3 0 = atypV4 ∨ buf.getD 3 0 = atypV6 → target = .ip a.ip) := by
  refine ⟨parseUdpRequest_encode, fun a p => ?_, fun a p => ?_, fun a k => take_header_refused a,
    buildUdpReply_eq, fun buf frag hfrag hne => ?_,
    fun buf target port data a offset => accepted_alike⟩
  · rw [buildUdpReply_eq, parseUdpRequest_encode]
  · refine ⟨(encodeUdpHeader a).length, ?_, ?_, ?_⟩
    · rw [buildUdpReply_eq, drop_left]
    · rw [buildUdpReply_eq, decodeUdpHeader_encode]
    · rw [buildUdpReply_eq, decodeUdpHeader_encode, ← new_ip_port]
      simp
  · apply refused_of_frag
    rw [getD_eq_getElem?_getD, hfrag]
    exact hne

/-- A datagram that both decoders accept, with its address in octets. -/
theorem udp_codecs_agree_v4 :
    parseUdpRequest [0, 0, 0, 1, 1, 2, 3, 4, 0, 53, 7] = some (.ip (.v4 0x01020304), 53, [7]) ∧
      decodeUdpHeader [0, 0, 0, 1, 1, 2, 3, 4, 0, 53, 7] = some (.v4 0x01020304 53, 10) ∧
      [7] = List.drop 10 [0, 0, 0, 1, 1, 2, 3, 4, 0, 53, (7 : UInt8)] :=
  have hparse : parseUdpRequest [0, 0, 0, 1, 1, 2, 3, 4, 0, 53, 7] =
      some (.ip (.v4 0x01020304), 53, [7]) := by decide
  have hdecode : decodeUdpHeader [0, 0, 0, 1, 1, 2, 3, 4, 0, 53, 7] =
      some (.v4 0x01020304 53, 10) := by decide
  ⟨hparse, hdecode, (udp_codecs_agree.2.2.2.2.2.2 _ _ _ _ _ _ hparse hdecode).1⟩

/-- A link-local address loses its scope on the way. -/
theorem udp_scope_lost :
    decodeUdpHeader (buildUdpReply (.v6 0xfe800000000000000000000000000001 53 0 3) [7]) =
        some (.v6 0xfe800000000000000000000000000001 53 0 0, 22) ∧
      StdSocketAddr.v6 0xfe800000000000000000000000000001 53 0 0 ≠
        .v6 0xfe800000000000000000000000000001 53 0 3 := by
  refine ⟨by decide, ?_⟩
  simp

end Socks

end Aether
