/-
What the front makes of a client's request.

The handshake is read through a buffered stream, so what it finds does not depend on how
the network cut the client's bytes: `handleClient_reads`.  The relay reads the socket
itself.  What the last read of the handshake brought beyond the request is in the buffer
and stays there, so the relay passes on what follows the request exactly when some read
ended with the request's last byte.

A host that looks like an address is handed to `getByName`.  Any text with a colon and any
four groups of digits look like one, and not all of these are addresses.
-/
import Aether.Psiphon.Front
import Aether.Proofs.Net.Grammar

namespace Aether.Psiphon

open List

open Buffered.Input (Reads Within)

/-! ### Requests -/

/-- An address as a client sends it. -/
inductive Address
  | ipv4 (raw : Bytes) (hlen : raw.length = 4)
  | ipv6 (raw : Bytes) (hlen : raw.length = 16)
  | domain (raw : Bytes) (hpos : 0 < raw.length) (hlen : raw.length < 256)

def Address.bytes : Address → Bytes
  | .ipv4 raw _ => atypIpv4 :: raw
  | .ipv6 raw _ => atypIpv6 :: raw
  | .domain raw _ _ => atypDomain :: UInt8.ofNat raw.length :: raw

def Address.host (hostAddress : Bytes → Text) : Address → Text
  | .ipv4 raw _ => hostAddress raw
  | .ipv6 raw _ => hostAddress raw
  | .domain raw _ _ => decodeAscii raw

/-- The greeting and the request of a client that offers to go without authentication. -/
structure ClientRequest where
  methods : Bytes
  offered : methods.contains 0 = true
  short : methods.length < 256
  command : UInt8
  reserved : UInt8
  address : Address
  high : UInt8
  low : UInt8

namespace ClientRequest

def greeting (r : ClientRequest) : Bytes :=
  socksVersion :: UInt8.ofNat r.methods.length :: r.methods

def request (r : ClientRequest) : Bytes :=
  socksVersion :: r.command :: r.reserved :: (r.address.bytes ++ [r.high, r.low])

def bytes (r : ClientRequest) : Bytes := r.greeting ++ r.request

def port (r : ClientRequest) : Nat := r.high.toNat * 256 + r.low.toNat

end ClientRequest

/-! ### The handshake -/

theorem toNat_ofNat_length {raw : Bytes} (h : raw.length < 256) :
    (UInt8.ofNat raw.length).toNat = raw.length := by
  simp [Nat.mod_eq_of_lt h]

theorem ofNat_length_ne_zero {raw : Bytes} (hpos : 0 < raw.length) (h : raw.length < 256) :
    UInt8.ofNat raw.length ≠ 0 := by
  intro hzero
  have hval := congrArg UInt8.toNat hzero
  rw [toNat_ofNat_length h] at hval
  exact absurd hval (Nat.ne_of_gt hpos)

theorem readGreeting_reads (r : ClientRequest) {input : Input} {rest : Bytes}
    (h : input.stream = r.greeting ++ rest) :
    ∃ input', readGreeting input = .ok input' ∧ Reads input r.greeting input' ∧
      input'.stream = rest := by
  have hpos : 0 < r.methods.length :=
    length_pos_of_mem (contains_iff_mem.mp r.offered)
  obtain ⟨input₁, hread₁, hreads₁, h₁⟩ := Buffered.Input.read_reads h
  obtain ⟨input₂, hread₂, hreads₂, h₂⟩ := Buffered.Input.read_reads h₁
  obtain ⟨input₃, hread₃, hreads₃, h₃⟩ := Buffered.Input.readFully_reads h₂
  refine ⟨input₃, ?_, (hreads₁.trans hreads₂).trans hreads₃, h₃⟩
  simp only [readGreeting, hread₁, hread₂, toNat_ofNat_length r.short, hread₃, r.offered,
    ofNat_length_ne_zero hpos r.short, ne_eq, not_true_eq_false, if_false, if_true]

section

variable (hostAddress : Bytes → Text) {rest raw : Bytes} {input : Input}

theorem readRaw_reads {n : Nat} (hlen : raw.length = n) (h : input.stream = raw ++ rest) :
    ∃ input', readRaw hostAddress n input = .ok (hostAddress raw, input') ∧
      Reads input raw input' ∧ input'.stream = rest := by
  subst hlen
  obtain ⟨input', hread, hreads, hrest⟩ := Buffered.Input.readFully_reads h
  exact ⟨input', by simp only [readRaw, hread], hreads, hrest⟩

theorem readDomain_reads (hpos : 0 < raw.length) (hlen : raw.length < 256)
    (h : input.stream = UInt8.ofNat raw.length :: (raw ++ rest)) :
    ∃ input', readDomain input = .ok (decodeAscii raw, input') ∧
      Reads input (UInt8.ofNat raw.length :: raw) input' ∧ input'.stream = rest := by
  obtain ⟨input₁, hread, hreads, h₁⟩ := Buffered.Input.read_reads h
  obtain ⟨input', hraw, hreads', hrest⟩ :=
    readRaw_reads decodeAscii (toNat_ofNat_length hlen).symm h₁
  refine ⟨input', ?_, hreads.trans hreads', hrest⟩
  simp only [readDomain, hread, ofNat_length_ne_zero hpos hlen, if_false, hraw]

/-- The address type and the address after it. -/
theorem readHost_reads (address : Address) (h : input.stream = address.bytes ++ rest) :
    ∃ type input₁ input', input.read = (some type, input₁) ∧
      readHost hostAddress (some type) input₁ = .ok (address.host hostAddress, input') ∧
      Reads input address.bytes input' ∧ input'.stream = rest := by
  cases address with
  | ipv4 raw hlen | ipv6 raw hlen =>
    obtain ⟨input₁, hread, hreads, h₁⟩ := Buffered.Input.read_reads h
    obtain ⟨input', hraw, hreads', hrest⟩ := readRaw_reads hostAddress hlen h₁
    exact ⟨_, input₁, input', hread, hraw, hreads.trans hreads', hrest⟩
  | domain raw hpos hlen =>
    obtain ⟨input₁, hread, hreads, h₁⟩ := Buffered.Input.read_reads h
    obtain ⟨input', hdomain, hreads', hrest⟩ := readDomain_reads hpos hlen h₁
    exact ⟨_, input₁, input', hread, hdomain, hreads.trans hreads', hrest⟩

/-- Up to the address the request has to be there; what stands for the port is read from
the rest. -/
theorem readRequest_opening (command reserved : UInt8) (address : Address)
    (h : input.stream = socksVersion :: command :: reserved :: (address.bytes ++ rest)) :
    ∃ input', readRequest hostAddress input = .ok (⟨some command, address.host hostAddress,
        portByte input'.read.1 * 256 + portByte input'.read.2.read.1⟩, input'.read.2.read.2) ∧
      Reads input (socksVersion :: command :: reserved :: address.bytes) input' ∧
      input'.stream = rest := by
  obtain ⟨input₁, hread₁, hreads₁, h₁⟩ := Buffered.Input.read_reads h
  obtain ⟨input₂, hread₂, hreads₂, h₂⟩ := Buffered.Input.read_reads h₁
  obtain ⟨input₃, hread₃, hreads₃, h₃⟩ := Buffered.Input.read_reads h₂
  obtain ⟨type, input₄, input₅, hread₄, hhost, hreads₅, h₅⟩ := readHost_reads hostAddress address h₃
  refine ⟨input₅, ?_, ((hreads₁.trans hreads₂).trans hreads₃).trans hreads₅, h₅⟩
  simp only [readRequest, hread₁, hread₂, hread₃, hread₄, hhost, ne_eq, not_true_eq_false, if_false]

theorem readRequest_reads (r : ClientRequest) (h : input.stream = r.request ++ rest) :
    ∃ input', readRequest hostAddress input
        = .ok (⟨some r.command, r.address.host hostAddress, r.port⟩, input') ∧
      Reads input r.request input' ∧ input'.stream = rest := by
  simp only [ClientRequest.request, cons_append, append_assoc] at h
  obtain ⟨input₅, hrequest, hreads₅, h₅⟩ := readRequest_opening hostAddress _ _ _ h
  obtain ⟨input₆, hread₆, hreads₆, h₆⟩ := Buffered.Input.read_reads h₅
  obtain ⟨input₇, hread₇, hreads₇, h₇⟩ := Buffered.Input.read_reads h₆
  refine ⟨input₇, ?_, hreads₅.trans (hreads₆.trans hreads₇), h₇⟩
  simp only [hrequest, hread₆, hread₇]
  rfl

/-- What the front does once the request is read. -/
def afterRequest (ipv6Usable : Bool) (r : ClientRequest) (input : Input) : Outcome :=
  if r.command = cmdUdpAssociate then .udpAssociate input
  else if r.command ≠ cmdConnect then .closed (methodAccepted ++ reply repCmdNotSupported)
  else if isIpv6Literal (r.address.host hostAddress) && !ipv6Usable then
    .closed (methodAccepted ++ reply repHostUnreachable)
  else .connect (r.address.host hostAddress) r.port input

/-- The request asks for a connection, and not one that is known to fail. -/
def Dialled (ipv6Usable : Bool) (r : ClientRequest) : Prop :=
  r.command = cmdConnect ∧
    (isIpv6Literal (r.address.host hostAddress) = true → ipv6Usable = true)

theorem afterRequest_cases (ipv6Usable : Bool) (r : ClientRequest) (input : Input) :
    (Dialled hostAddress ipv6Usable r ∧
      afterRequest hostAddress ipv6Usable r input
        = .connect (r.address.host hostAddress) r.port input) ∨
    (¬ Dialled hostAddress ipv6Usable r ∧
      (afterRequest hostAddress ipv6Usable r input = .udpAssociate input ∨
        ∃ written, afterRequest hostAddress ipv6Usable r input = .closed written)) := by
  unfold afterRequest
  by_cases hudp : r.command = cmdUdpAssociate
  · rw [if_pos hudp]
    refine .inr ⟨fun hd => ?_, .inl rfl⟩
    have hsame := hudp.symm.trans hd.1
    exact absurd hsame (by decide)
  rw [if_neg hudp]
  by_cases hconnect : r.command = cmdConnect
  · rw [if_neg (not_not.mpr hconnect)]
    by_cases hfails : (isIpv6Literal (r.address.host hostAddress) && !ipv6Usable) = true
    · rw [if_pos hfails]
      refine .inr ⟨fun hd => ?_, .inr ⟨_, rfl⟩⟩
      rw [Bool.and_eq_true, Bool.not_eq_true'] at hfails
      have husable := hd.2 hfails.1
      rw [hfails.2] at husable
      cases husable
    · rw [if_neg hfails]
      refine .inl ⟨⟨hconnect, fun hipv6 => ?_⟩, rfl⟩
      by_contra husable
      exact hfails (by simp [hipv6, husable])
  · rw [if_pos hconnect]
    exact .inr ⟨fun hd => hconnect hd.1, .inr ⟨_, rfl⟩⟩

/-- **However its bytes are cut, the front finds the client's request**, and reads no
further than it has to. -/
theorem handleClient_reads (ipv6Usable : Bool) (r : ClientRequest) {chunks : List Bytes}
    (h : chunks.flatten = r.bytes ++ rest) :
    ∃ input, handleClient hostAddress ipv6Usable ⟨[], chunks⟩
        = afterRequest hostAddress ipv6Usable r input ∧
      Within chunks input ∧ input.stream = rest := by
  have hstart : (⟨[], chunks⟩ : Input).stream = r.greeting ++ (r.request ++ rest) := by
    rw [← append_assoc]
    exact h
  obtain ⟨input₁, hgreeting, hreads₁, h₁⟩ := readGreeting_reads r hstart
  obtain ⟨input, hrequest, hreads, hrest⟩ := readRequest_reads hostAddress r h₁
  refine ⟨input, ?_, hreads.within (hreads₁.within (.start chunks)), hrest⟩
  simp only [handleClient, hgreeting, hrequest, afterRequest, Option.some.injEq, ne_eq]

end

/-! ### Serving a client -/

section

variable (hostAddress : Bytes → Text) (getByName : Text → Option Bytes) (ipv6Usable : Bool)
  (listener : Option Input) (relay : Option Nat)

/-- A client that is not dialled for goes nowhere; one that is goes to the relay. -/
theorem serve_cases (r : ClientRequest) {rest : Bytes} {chunks : List Bytes}
    (h : chunks.flatten = r.bytes ++ rest) :
    (¬ Dialled hostAddress ipv6Usable r ∧
      (serve getByName hostAddress ipv6Usable listener relay chunks).lookups = [] ∧
      (serve getByName hostAddress ipv6Usable listener relay chunks).upload = none) ∨
    (Dialled hostAddress ipv6Usable r ∧ ∃ input, Within chunks input ∧ input.stream = rest ∧
      serve getByName hostAddress ipv6Usable listener relay chunks
        = relayThroughPsiphon getByName listener (r.address.host hostAddress) r.port input) := by
  obtain ⟨input, hhandle, hwithin, hrest⟩ := handleClient_reads hostAddress ipv6Usable r h
  obtain ⟨hd, hconnect⟩ | ⟨hd, hudp | ⟨written, hclosed⟩⟩ :=
    afterRequest_cases hostAddress ipv6Usable r input
  · rw [hconnect] at hhandle
    exact .inr ⟨hd, input, hwithin, hrest, by simp only [serve, hhandle]⟩
  · rw [hudp] at hhandle
    simp only [serve, hhandle]
    cases relay with
    | none => exact .inl ⟨hd, rfl, rfl⟩
    | some bound => exact .inl ⟨hd, rfl, rfl⟩
  · rw [hclosed] at hhandle
    exact .inl ⟨hd, by simp only [serve, hhandle], by simp only [serve, hhandle]⟩

/-! ### Early data -/

/-- A place in the source told by what is in front of it or by what is behind it. -/
theorem flatten_take_iff {chunks : List Bytes} {front rest : Bytes}
    (h : chunks.flatten = front ++ rest) (k : Nat) :
    (chunks.take k).flatten = front ↔ (chunks.drop k).flatten = rest := by
  rw [← take_append_drop k chunks, flatten_append] at h
  constructor
  · intro hfront
    rw [hfront] at h
    exact append_cancel_left h
  · intro hrest
    rw [hrest] at h
    exact append_cancel_right h

/-- **A relayed client's bytes behind its request go up the stream, all of them and in order,
exactly when some read of its socket ended with the request.** -/
theorem early_data_kept_iff (r : ClientRequest) (rest : Bytes) (chunks : List Bytes)
    (hchunks : chunks.flatten = r.bytes ++ rest)
    (hrelayed :
      (serve getByName hostAddress ipv6Usable listener relay chunks).upload.isSome = true) :
    (serve getByName hostAddress ipv6Usable listener relay chunks).upload = some rest ↔
      ∃ k, (chunks.take k).flatten = r.bytes := by
  obtain ⟨-, -, hnone⟩ | ⟨-, input, hwithin, hrest, hserve⟩ :=
    serve_cases hostAddress getByName ipv6Usable listener relay r hchunks
  · rw [hnone] at hrelayed
    cases hrelayed
  · rw [hserve] at hrelayed ⊢
    unfold relayThroughPsiphon at hrelayed ⊢
    dsimp only at hrelayed ⊢
    split at hrelayed
    · cases hrelayed
    · simp only [Option.some.injEq, flatten_take_iff hchunks, ← hrest]
      exact hwithin.flatten_eq_iff

/-- A client that asks for port 80 of `1.2.3.4`. -/
def plainRequest : ClientRequest where
  methods := [0]
  offered := rfl
  short := by decide
  command := cmdConnect
  reserved := 0
  address := .ipv4 [1, 2, 3, 4] rfl
  high := 0
  low := 80

/-- Psiphon's listener when it connects every request. -/
def willing : Input := ⟨[], [[5, 0], [5, 0, 0, 1, 0, 0, 0, 0, 0, 0]]⟩

def plainHost (_ : Bytes) : Text := "1.2.3.4".toList

def plainAddress (_ : Text) : Option Bytes := some [1, 2, 3, 4]

/-- A client that sends its request on its own is relayed from its next byte on. -/
theorem early_data_kept_apart :
    (serve plainAddress plainHost true (some willing) none
        [[5, 1, 0], [5, 1, 0, 1, 1, 2, 3, 4, 0, 80], [71, 69]]).upload = some [71, 69] :=
  (early_data_kept_iff plainHost plainAddress true (some willing) none plainRequest [71, 69]
    [[5, 1, 0], [5, 1, 0, 1, 1, 2, 3, 4, 0, 80], [71, 69]] rfl rfl).mpr ⟨2, rfl⟩

/-- One that sends the same bytes without waiting loses those behind the request. -/
theorem early_data_lost :
    [[5, 1, 0], [5, 1, 0, 1, 1, 2, 3, 4, 0, 80, 71, 69]].flatten = plainRequest.bytes ++ [71, 69] ∧
    (serve plainAddress plainHost true (some willing) none
        [[5, 1, 0], [5, 1, 0, 1, 1, 2, 3, 4, 0, 80, 71, 69]]).upload = some [] :=
  ⟨rfl, rfl⟩

end

/-! ### Requests that end too soon -/

section

variable {hostAddress : Bytes → Text} {input input' : Input} {written : Bytes}

theorem readGreeting_ok (h : readGreeting input = .ok input') :
    ∃ methods : Bytes, methods.contains 0 = true ∧ methods.length < 256 ∧ input.stream =
      socksVersion :: UInt8.ofNat methods.length :: (methods ++ input'.stream) := by
  revert h
  fun_cases readGreeting input <;> intro h <;> cases h
  next version input₁ hread₁ hversion count input₂ hread₂ hcount methods hoffered hread₃ =>
    obtain ⟨hlength, hstream⟩ := Buffered.Input.stream_of_readFully hread₃
    refine ⟨methods, hoffered, hlength ▸ count.toNat_lt, ?_⟩
    rw [(Buffered.Input.stream_of_read hread₁).1, (Buffered.Input.stream_of_read hread₂).1,
      not_not.mp hversion, hstream, hlength, UInt8.ofNat_toNat]
    rfl

theorem readRaw_ok {n : Nat} {host : Text} (h : readRaw hostAddress n input = .ok (host, input')) :
    ∃ raw : Bytes, raw.length = n ∧ host = hostAddress raw ∧
      input.stream = raw ++ input'.stream := by
  revert h
  fun_cases readRaw hostAddress n input <;> intro h <;> cases h
  next raw hread =>
    obtain ⟨hlength, hstream⟩ := Buffered.Input.stream_of_readFully hread
    exact ⟨raw, hlength, rfl, hstream⟩

theorem readHost_ok {type : Option UInt8} {host : Text}
    (h : readHost hostAddress type input = .ok (host, input')) :
    ∃ address : Address, host = address.host hostAddress ∧
      type.toList ++ input.stream = address.bytes ++ input'.stream := by
  revert h
  fun_cases readHost hostAddress type input <;> intro h
  next htype =>
    obtain ⟨raw, hlen, rfl, hstream⟩ := readRaw_ok h
    exact ⟨.ipv4 raw hlen, rfl, by rw [htype, hstream]; rfl⟩
  next htype =>
    obtain ⟨raw, hlen, rfl, hstream⟩ := readRaw_ok h
    exact ⟨.ipv6 raw hlen, rfl, by rw [htype, hstream]; rfl⟩
  next htype =>
    revert h
    fun_cases readDomain input <;> intro h <;> try cases h
    next length input₁ hread hzero =>
      obtain ⟨raw, hlen, rfl, hstream⟩ := readRaw_ok h
      have hpos : 0 < raw.length := hlen ▸ UInt8.pos_iff_ne_zero.mpr hzero
      refine ⟨.domain raw hpos (hlen ▸ length.toNat_lt), rfl, ?_⟩
      rw [htype, (Buffered.Input.stream_of_read hread).1, hstream, Address.bytes, hlen,
        UInt8.ofNat_toNat]
      rfl
  · cases h

theorem readRequest_ok {request : Request}
    (h : readRequest hostAddress input = .ok (request, input')) :
    ∃ command reserved address port, request.command = some command ∧
      request.host = Address.host hostAddress address ∧
      input.stream = socksVersion :: command :: reserved :: (address.bytes ++ port) := by
  revert h
  fun_cases readRequest hostAddress input <;> intro h <;> cases h
  next version input₁ hread₁ hversion command input₂ hread₂ type input₄ hread₄ host input₅ hhost
      _ _ _ _ _ =>
    obtain ⟨address, hsame, hstream⟩ := readHost_ok hhost
    rcases hread₃ : input₂.read with ⟨reserved, input₃⟩
    rw [hread₃] at hread₄
    obtain ⟨h₂, hend₂⟩ := Buffered.Input.stream_of_read hread₂
    obtain ⟨h₃, hend₃⟩ := Buffered.Input.stream_of_read hread₃
    have hbehind := (Buffered.Input.stream_of_read hread₄).1.trans hstream
    -- there is an address, so the bytes in front of it are there
    have hmore : input₃.stream ≠ [] := by
      rw [hbehind]
      cases address <;> simp [Address.bytes]
    cases reserved with
    | none => exact absurd (hend₃ rfl) hmore
    | some reserved =>
      cases command with
      | none => exact absurd (h₃.symm.trans (hend₂ rfl)) (by simp)
      | some command =>
        refine ⟨command, reserved, address, input₅.stream, rfl, hsame, ?_⟩
        rw [(Buffered.Input.stream_of_read hread₁).1, not_not.mp hversion, h₂, h₃, hbehind]
        rfl

theorem readGreeting_error (h : readGreeting input = .error written) :
    written = [] ∨ written = [socksVersion, 0xff] := by
  revert h
  fun_cases readGreeting input <;> intro h <;> cases h <;> simp

theorem readRaw_error {n : Nat} (h : readRaw hostAddress n input = .error written) :
    written = [] := by
  revert h
  fun_cases readRaw hostAddress n input <;> intro h <;> cases h
  rfl

theorem readRequest_error (h : readRequest hostAddress input = .error written) :
    written = [] ∨ written = reply repGeneralFailure := by
  revert h
  fun_cases readRequest hostAddress input <;> intro h <;> cases h
  · exact .inl rfl
  next type input₁ _ hhost =>
    revert hhost
    fun_cases readHost hostAddress type input₁ <;> intro hhost
    · exact .inl (readRaw_error hhost)
    · exact .inl (readRaw_error hhost)
    · revert hhost
      fun_cases readDomain input₁ <;> intro hhost
      · exact .inl (Except.error.inj hhost).symm
      · exact .inl (Except.error.inj hhost).symm
      · exact .inl (readRaw_error hhost)
    · exact .inr (Except.error.inj hhost).symm

/-- The stream does not begin with a whole greeting and request. -/
def Truncated (stream : Bytes) : Prop := ∀ r : ClientRequest, ¬ r.bytes <+: stream

/-- A request up to its port. -/
def ClientRequest.opening (r : ClientRequest) : Bytes :=
  r.greeting ++ socksVersion :: r.command :: r.reserved :: r.address.bytes

/-- The stream ends where the request has its port. -/
def CutInPort (r : ClientRequest) (stream : Bytes) : Prop :=
  stream = r.opening ∨ stream = r.opening ++ [r.high]

/-- The request is for datagrams or for a connection that is dialled. -/
def Granted (hostAddress : Bytes → Text) (ipv6Usable : Bool) (r : ClientRequest) : Prop :=
  r.command = cmdUdpAssociate ∨ Dialled hostAddress ipv6Usable r

/-- A success was written to the client. -/
def TellsSuccess (replies : Bytes) : Prop :=
  ∃ bound, replies = methodAccepted ++ socksVersion :: repSuccess :: bound

/-- The client is closed and was not told of a success. -/
def Declined (outcome : Outcome) : Prop :=
  ∃ written, outcome = .closed written ∧ ¬ TellsSuccess written

/-- Nothing is asked of Psiphon for the client, nothing goes up, and it is not told of a
success. -/
structure Served.TurnedAway (served : Served) : Prop where
  written : served.written = []
  upload : served.upload = none
  replies : ¬ TellsSuccess served.replies

theorem not_tellsSuccess_reply {code : UInt8} (hcode : code ≠ repSuccess) :
    ¬ TellsSuccess (methodAccepted ++ reply code) := by
  rintro ⟨bound, hbound⟩
  exact hcode (cons.inj (cons.inj (append_cancel_left hbound)).2).1

theorem not_tellsSuccess_short {replies : Bytes} (h : replies.length < 4) :
    ¬ TellsSuccess replies := by
  rintro ⟨bound, rfl⟩
  simp only [methodAccepted, length_append, length_cons, length_nil] at h
  omega

/-- Psiphon's listener is written to as soon as it is connected to. -/
theorem openPsiphonStream_written (getByName : Text → Option Bytes) (upIn : Input) (host : Text)
    (port : Nat) : (openPsiphonStream getByName (some upIn) host port).written ≠ [] := by
  unfold openPsiphonStream
  dsimp only
  split
  · simp
  · split
    · simp
    · split <;> simp

/-- Whatever is around the front, a client is turned away exactly when it is declined. -/
theorem serve_turnedAway_iff {ipv6Usable : Bool} {chunks : List Bytes} :
    (∀ getByName listener relay,
      (serve getByName hostAddress ipv6Usable listener relay chunks).TurnedAway) ↔
      Declined (handleClient hostAddress ipv6Usable ⟨[], chunks⟩) := by
  unfold serve
  cases handleClient hostAddress ipv6Usable ⟨[], chunks⟩ with
  | closed written =>
    constructor
    · intro h
      exact ⟨written, rfl, (h (fun _ => none) none none).replies⟩
    · rintro ⟨_, hclosed, htells⟩ getByName listener relay
      cases hclosed
      exact ⟨rfl, rfl, htells⟩
  | udpAssociate input =>
    refine iff_of_false (fun h => ?_) fun h => by cases h.choose_spec.1
    exact (h (fun _ => none) none (some 0)).replies ⟨_, rfl⟩
  | connect host port input =>
    refine iff_of_false (fun h => ?_) fun h => by cases h.choose_spec.1
    have hwritten := (h (fun _ => none) (some ⟨[], []⟩) none).written
    refine openPsiphonStream_written (fun _ => none) ⟨[], []⟩ host port ?_
    unfold relayThroughPsiphon at hwritten
    dsimp only at hwritten
    split at hwritten
    · exact hwritten
    · exact hwritten

theorem afterRequest_declined_iff {ipv6Usable : Bool} {r : ClientRequest} :
    Declined (afterRequest hostAddress ipv6Usable r input) ↔
      ¬ Granted hostAddress ipv6Usable r := by
  obtain ⟨hd, hconnect⟩ | ⟨hd, hrest⟩ := afterRequest_cases hostAddress ipv6Usable r input
  · rw [hconnect]
    exact iff_of_false (fun h => by cases h.choose_spec.1) (not_not.mpr (.inr hd))
  · simp only [Granted, hd, or_false]
    constructor
    · rintro ⟨written, hclosed, -⟩ hudp
      rw [afterRequest, if_pos hudp] at hclosed
      cases hclosed
    · intro hudp
      rw [afterRequest, if_neg hudp] at hrest ⊢
      split
      · exact ⟨_, rfl, not_tellsSuccess_reply (by decide)⟩
      · split
        · exact ⟨_, rfl, not_tellsSuccess_reply (by decide)⟩
        · simp_all

/-- A request that is there up to its port is taken, with all bits set for a byte that is
missing. -/
theorem handleClient_opening (ipv6Usable : Bool) (r : ClientRequest) {chunks : List Bytes}
    {port : Bytes} (h : chunks.flatten = r.opening ++ port) :
    ∃ high low input, handleClient hostAddress ipv6Usable ⟨[], chunks⟩
      = afterRequest hostAddress ipv6Usable { r with high, low } input := by
  rw [ClientRequest.opening, append_assoc] at h
  obtain ⟨input₁, hgreeting, -, h₁⟩ :=
    readGreeting_reads r (show Buffered.Input.stream ⟨[], chunks⟩ = _ from h)
  obtain ⟨input₂, hrequest, -, -⟩ := readRequest_opening hostAddress _ _ _ h₁
  refine ⟨input₂.read.1.getD 255, input₂.read.2.read.1.getD 255, input₂.read.2.read.2, ?_⟩
  simp only [handleClient, hgreeting, hrequest, afterRequest, Option.some.injEq, ne_eq]
  rfl

theorem handleClient_cases (ipv6Usable : Bool) (chunks : List Bytes) :
    Declined (handleClient hostAddress ipv6Usable ⟨[], chunks⟩) ∨
      ∃ (r : ClientRequest) (port : Bytes), ∀ high low,
        chunks.flatten = ClientRequest.opening { r with high, low } ++ port := by
  cases hgreeting : readGreeting ⟨[], chunks⟩ with
  | error written =>
    refine .inl ⟨written, by simp only [handleClient, hgreeting], ?_⟩
    rcases readGreeting_error hgreeting with rfl | rfl
    · exact not_tellsSuccess_short (by decide)
    · exact not_tellsSuccess_short (by decide)
  | ok input₁ =>
    cases hrequest : readRequest hostAddress input₁ with
    | error written =>
      refine .inl ⟨methodAccepted ++ written, by simp only [handleClient, hgreeting, hrequest], ?_⟩
      rcases readRequest_error hrequest with rfl | rfl
      · exact not_tellsSuccess_short (by decide)
      · exact not_tellsSuccess_reply (by decide)
    | ok read =>
      obtain ⟨methods, hoffered, hshort, hstart⟩ := readGreeting_ok hgreeting
      obtain ⟨command, reserved, address, port, -, -, h₁⟩ := readRequest_ok hrequest
      refine .inr ⟨⟨methods, hoffered, hshort, command, reserved, address, 0, 0⟩, port, ?_⟩
      intro high low
      rw [h₁] at hstart
      simpa [ClientRequest.opening, ClientRequest.greeting, Buffered.Input.stream] using hstart

/-- **A client whose stream ends before its request does is turned away, whatever Psiphon's
listener returns, unless it is the port that is missing.** -/
theorem truncated_declined_iff (hostAddress : Bytes → Text) (ipv6Usable : Bool)
    (chunks : List Bytes) (htruncated : Truncated chunks.flatten) :
    (∀ getByName listener relay,
      (serve getByName hostAddress ipv6Usable listener relay chunks).TurnedAway) ↔
      ¬ ∃ r, CutInPort r chunks.flatten ∧ Granted hostAddress ipv6Usable r := by
  rw [serve_turnedAway_iff]
  have hopening : ∀ (r : ClientRequest) (port : Bytes), chunks.flatten = r.opening ++ port →
      (Declined (handleClient hostAddress ipv6Usable ⟨[], chunks⟩) ↔
        ¬ Granted hostAddress ipv6Usable r) := by
    intro r port hport
    obtain ⟨high, low, input, hhandle⟩ := handleClient_opening ipv6Usable r hport
    rw [hhandle]
    exact afterRequest_declined_iff
  constructor
  · rintro hdeclined ⟨r, hcut | hcut, hgranted⟩
    · exact (hopening r [] (by rw [hcut, append_nil])).mp hdeclined hgranted
    · exact (hopening r _ hcut).mp hdeclined hgranted
  · intro hcut
    obtain hdeclined | ⟨r, port, hport⟩ := handleClient_cases ipv6Usable chunks
    · exact hdeclined
    rcases port with _ | ⟨high, _ | ⟨low, rest⟩⟩
    · refine (hopening r [] (hport _ _)).mpr fun hgranted => hcut ⟨r, .inl ?_, hgranted⟩
      rw [hport r.high r.low, append_nil]
    · refine (hopening r [high] (hport _ _)).mpr fun hgranted => ?_
      exact hcut ⟨{ r with high }, .inr (hport high r.low), hgranted⟩
    · refine absurd ⟨rest, ?_⟩ (htruncated { r with high, low })
      rw [hport high low]
      simp [ClientRequest.bytes, ClientRequest.request, ClientRequest.opening]

/-- The bytes of `plainRequest` without its port. -/
def portless : Bytes := [5, 1, 0, 5, 1, 0, 1, 1, 2, 3, 4]

theorem portless_truncated : Truncated portless := by
  rintro ⟨methods, hoffered, hshort, command, reserved, address, high, low⟩ ⟨rest, hrest⟩
  simp only [ClientRequest.bytes, ClientRequest.greeting, ClientRequest.request, portless,
    cons_append, append_assoc, cons.injEq] at hrest
  obtain ⟨-, hlength, hrest⟩ := hrest
  have hone : methods.length = 1 := (toNat_ofNat_length hshort).symm.trans (congrArg _ hlength)
  obtain ⟨method, rfl⟩ := length_eq_one_iff.mp hone
  have hlength := congrArg length hrest
  cases address with
  | ipv4 raw hlen => simp [Address.bytes, hlen] at hlength
  | ipv6 raw hlen =>
    simp only [Address.bytes, length_append, length_cons, length_nil, hlen] at hlength
    omega
  | domain raw _ _ => simp [Address.bytes, atypDomain] at hrest

theorem ClientRequest.length_opening (r : ClientRequest) : 8 ≤ r.opening.length := by
  have hmethods : 0 < r.methods.length := by
    apply length_pos_of_ne_nil
    intro hnil
    have hoffered := r.offered
    rw [hnil] at hoffered
    cases hoffered
  have haddress : 3 ≤ r.address.bytes.length := by
    cases r.address with
    | ipv4 raw hlen => simp [Address.bytes, hlen]
    | ipv6 raw hlen => simp [Address.bytes, hlen]
    | domain raw hpos hlen =>
      simp only [Address.bytes, length_cons]
      omega
  simp only [opening, greeting, length_append, length_cons]
  omega

/-- Cut behind the type of its address, the request is turned away; cut in front of its port, it
is not. -/
theorem portless_not_declined :
    (Truncated [portless.take 7].flatten ∧ ∀ getByName listener relay,
      (serve getByName plainHost true listener relay [portless.take 7]).TurnedAway) ∧
    Truncated [portless].flatten ∧ ¬ ∀ getByName listener relay,
      (serve getByName plainHost true listener relay [portless]).TurnedAway := by
  have hshort : Truncated [portless.take 7].flatten := fun r hr =>
    portless_truncated r (hr.trans ⟨portless.drop 7, rfl⟩)
  refine ⟨⟨hshort, ?_⟩, portless_truncated, fun h => ?_⟩
  · refine (truncated_declined_iff plainHost true [portless.take 7] hshort).mpr ?_
    rintro ⟨r, hcut, -⟩
    have hlength := r.length_opening
    rcases hcut with hcut | hcut
    · rw [← hcut] at hlength
      exact absurd hlength (by decide)
    · have hone := congrArg length hcut
      rw [length_append] at hone
      have hseven : [portless.take 7].flatten.length = 7 := rfl
      omega
  · exact (truncated_declined_iff plainHost true [portless] portless_truncated).mp h
      ⟨plainRequest, .inl rfl, .inr ⟨rfl, fun _ => rfl⟩⟩

/-- **A request without its port is dialled, at port 65535, and answered with a success.** -/
theorem portless_dialled :
    Truncated [portless].flatten ∧
    serve plainAddress plainHost true (some willing) none [portless] =
      { replies := methodAccepted ++ reply repSuccess
        lookups := ["1.2.3.4".toList]
        written := [5, 1, 0] ++ [5, 1, 0, 1, 1, 2, 3, 4, 255, 255]
        upload := some [] } :=
  ⟨portless_truncated, rfl⟩

end

/-! ### Texts that look like addresses -/

/-- `getByName` asks a resolver unless its argument is an address already. -/
def performsLookup (t : Text) : Bool := (parseIpAddr t).isNone

variable {t g : Text}

theorem performsLookup_eq_false_iff : performsLookup t = false ↔ ∃ ip, IpText t ip := by
  simp only [performsLookup, Option.isNone_eq_false_iff, Option.isSome_iff_exists, parseIpAddr_iff]

/-- The group is written as an octet is: no greater than 255 and without leading zeros. -/
def InRange (g : Text) : Prop := numeralValue 10 g < 256 ∧ (g.head? ≠ some '0' ∨ g.length = 1)

theorem isDottedQuad_iff {host : Text} : isDottedQuad host = true ↔
    (host.splitOn '.').length = 4 ∧
      ∀ g ∈ host.splitOn '.', (∀ c ∈ g, c.isDigit = true) ∧ 1 ≤ g.length ∧ g.length ≤ 3 := by
  simp only [isDottedQuad, Bool.and_eq_true, beq_iff_eq, all_eq_true, decide_eq_true_eq,
    and_assoc]

/-- A group of a dotted quad is an octet when it is in range. -/
theorem octet_iff (hdigits : ∀ c ∈ g, c.isDigit = true) (hpos : 1 ≤ g.length)
    (hlen : g.length ≤ 3) : (∃ n, Octet g n) ↔ InRange g := by
  constructor
  · rintro ⟨n, hn⟩
    refine ⟨hn.value ▸ hn.below, ?_⟩
    obtain hzeros | hfront := hn.front
    · cases hzeros
    · exact hfront
  · intro h
    exact ⟨_, ne_nil_of_length_pos hpos, fun c hc => isSome_toDigit_ten.mpr (hdigits c hc),
      hlen, rfl, h.1, .inr h.2⟩

theorem no_dot_of_octet {n : Nat} (h : Octet g n) : '.' ∉ g := by
  intro hdot
  have hdigit := h.digits '.' hdot
  exact absurd hdigit (by decide)

/-- Four groups are the text with dots between them. -/
theorem eq_quad_of_splitOn (hlen : (t.splitOn '.').length = 4) :
    ∃ a b c d, t.splitOn '.' = [a, b, c, d] ∧ t = a ++ '.' :: (b ++ '.' :: (c ++ '.' :: d)) := by
  obtain ⟨a, b, c, d, hgroups⟩ := length_eq_four.mp hlen
  have hjoin : ['.'].intercalate (t.splitOn '.') = t := intercalate_splitOn '.'
  rw [hgroups] at hjoin
  refine ⟨a, b, c, d, hgroups, ?_⟩
  rw [← hjoin]
  simp [List.intercalate]

theorem forall_mem_quad {P : Text → Prop} {a b c d : Text} :
    (∀ g ∈ [a, b, c, d], P g) ↔ P a ∧ P b ∧ P c ∧ P d := by
  simp

/-- An IPv4 address is four octets between dots. -/
theorem ipv4Text_iff :
    (∃ ip, Ipv4Text t ip) ↔
      (t.splitOn '.').length = 4 ∧ ∀ g ∈ t.splitOn '.', ∃ n, Octet g n := by
  constructor
  · rintro ⟨ip, ⟨ha, hb, hc, hd⟩⟩
    rename_i a b c d na nb nc nd
    have hjoin : a ++ '.' :: (b ++ '.' :: (c ++ '.' :: d)) = ['.'].intercalate [a, b, c, d] := by
      simp [List.intercalate]
    have hsplit : (['.'].intercalate [a, b, c, d]).splitOn '.' = [a, b, c, d] := by
      refine splitOn_intercalate _ (forall_mem_quad.mpr ?_) (cons_ne_nil _ _)
      exact ⟨no_dot_of_octet ha, no_dot_of_octet hb, no_dot_of_octet hc, no_dot_of_octet hd⟩
    rw [hjoin, hsplit, forall_mem_quad]
    exact ⟨rfl, ⟨na, ha⟩, ⟨nb, hb⟩, ⟨nc, hc⟩, ⟨nd, hd⟩⟩
  · rintro ⟨hlen, hoctets⟩
    obtain ⟨a, b, c, d, hgroups, rfl⟩ := eq_quad_of_splitOn hlen
    rw [hgroups, forall_mem_quad] at hoctets
    obtain ⟨⟨na, ha⟩, ⟨nb, hb⟩, ⟨nc, hc⟩, ⟨nd, hd⟩⟩ := hoctets
    exact ⟨_, .mk ha hb hc hd⟩

/-- Groups of digits hold no colon, and neither do the dots between them. -/
theorem no_colon_of_quad (hlen : (t.splitOn '.').length = 4)
    (hdigits : ∀ g ∈ t.splitOn '.', ∀ c ∈ g, c.isDigit = true) : ':' ∉ t := by
  obtain ⟨a, b, c, d, hgroups, htext⟩ := eq_quad_of_splitOn hlen
  have hcolon : ∀ g ∈ t.splitOn '.', ':' ∉ g := by
    intro g hg hmem
    exact absurd (hdigits g hg ':' hmem) (by decide)
  rw [hgroups, forall_mem_quad] at hcolon
  rw [htext]
  simp [hcolon]

/-- A dotted quad is an address when its groups are in range. -/
theorem ipText_of_isDottedQuad {host : Text} (h : isDottedQuad host = true) :
    (∃ ip, IpText host ip) ↔ ∀ g ∈ host.splitOn '.', InRange g := by
  obtain ⟨hlen, hgroups⟩ := isDottedQuad_iff.mp h
  have hoctets : (∀ g ∈ host.splitOn '.', ∃ n, Octet g n) ↔ ∀ g ∈ host.splitOn '.', InRange g :=
    forall₂_congr fun g hg =>
      octet_iff (hgroups g hg).1 (hgroups g hg).2.1 (hgroups g hg).2.2
  rw [← hoctets]
  constructor
  · rintro ⟨ip, hip⟩
    cases hip with
    | v4 hv4 => exact (ipv4Text_iff.mp ⟨_, hv4⟩).2
    | v6 hv6 =>
      obtain ⟨front, rest, htext, -⟩ := hv6.colon
      have hcolon : ':' ∈ host := by simp [htext]
      exact absurd hcolon (no_colon_of_quad hlen fun g hg => (hgroups g hg).1)
  · intro hoct
    obtain ⟨ip, hip⟩ := ipv4Text_iff.mpr ⟨hlen, hoct⟩
    exact ⟨_, .v4 hip⟩

/-- A text with a colon that is an address is an IPv6 address. -/
theorem ipText_of_colon {host : Text} (h : ':' ∈ host) :
    (∃ ip, IpText host ip) ↔ ∃ ip, Ipv6Text host ip := by
  constructor
  · rintro ⟨ip, hip⟩
    cases hip with
    | v6 hv6 => exact ⟨_, hv6⟩
    | v4 hv4 =>
      obtain ⟨hlen, hoctets⟩ := ipv4Text_iff.mp ⟨_, hv4⟩
      refine absurd h (no_colon_of_quad hlen fun g hg c hc => ?_)
      obtain ⟨n, hn⟩ := hoctets g hg
      exact isSome_toDigit_ten.mp (hn.digits c hc)
  · rintro ⟨ip, hip⟩
    exact ⟨_, .v6 hip⟩

/-! ### Names -/

section

variable (hostAddress : Bytes → Text) (getByName : Text → Option Bytes) (ipv6Usable : Bool)
  (listener : Option Input)

/-- What is looked up is the host, and only when it looks like an address. -/
theorem openPsiphonStream_lookups {host t : Text} {port : Nat}
    (h : t ∈ (openPsiphonStream getByName listener host port).lookups) :
    t = host ∧ isIpLiteral host = true := by
  have hrequest : ∀ lookups request, connectRequest getByName host port = (lookups, request) →
      t ∈ lookups → t = host ∧ isIpLiteral host = true := by
    intro lookups request heq hmem
    revert heq
    fun_cases connectRequest getByName host port <;> intro heq <;> cases heq
    next hliteral => exact ⟨mem_singleton.mp hmem, hliteral⟩
    · cases hmem
  revert h
  fun_cases openPsiphonStream getByName listener host port <;> intro h
  · cases h
  · cases h
  all_goals exact hrequest _ _ ‹connectRequest getByName host port = _› h

/-- A listener that takes the greeting gets as far as the lookup. -/
theorem openPsiphonStream_willing (host : Text) (port : Nat) (h : isIpLiteral host = true) :
    host ∈ (openPsiphonStream getByName (some willing) host port).lookups := by
  have hrequest : ∃ request, connectRequest getByName host port = ([host], request) := by
    unfold connectRequest
    rw [if_pos h]
    exact ⟨_, rfl⟩
  obtain ⟨request, hrequest⟩ := hrequest
  unfold openPsiphonStream
  rw [hrequest]
  cases request with
  | none | some request => exact mem_singleton_self host

theorem relayThroughPsiphon_lookups (host : Text) (port : Nat) (input : Input) :
    (relayThroughPsiphon getByName listener host port input).lookups
      = (openPsiphonStream getByName listener host port).lookups := by
  unfold relayThroughPsiphon
  dsimp only
  split
  · rfl
  · rfl

/-- A name is not asked for when every text that looks like an address is one. -/
theorem literal_valid_iff {host : Text} :
    (isIpLiteral host = true → performsLookup host = false) ↔
      (':' ∈ host → ∃ ip, Ipv6Text host ip) ∧
      (isDottedQuad host = true → ∀ g ∈ host.splitOn '.', InRange g) := by
  simp only [performsLookup_eq_false_iff, isIpLiteral, isIpv6Literal, Bool.or_eq_true,
    contains_iff_mem]
  constructor
  · intro h
    exact ⟨fun hcolon => (ipText_of_colon hcolon).mp (h (.inl hcolon)),
      fun hquad => (ipText_of_isDottedQuad hquad).mp (h (.inr hquad))⟩
  · rintro ⟨hv6, hv4⟩ (hcolon | hquad)
    · exact (ipText_of_colon hcolon).mpr (hv6 hcolon)
    · exact (ipText_of_isDottedQuad hquad).mpr (hv4 hquad)

/-- The calls made for a request, over everything Psiphon may answer. -/
theorem lookups_valid_iff (r : ClientRequest) :
    (∀ (listener : Option Input) (relay : Option Nat) (chunks : List Bytes) (rest : Bytes),
      chunks.flatten = r.bytes ++ rest →
        ∀ t ∈ (serve getByName hostAddress ipv6Usable listener relay chunks).lookups,
          performsLookup t = false) ↔
      (Dialled hostAddress ipv6Usable r →
        isIpLiteral (r.address.host hostAddress) = true →
          performsLookup (r.address.host hostAddress) = false) := by
  constructor
  · intro h hd hliteral
    have hflat : [r.bytes].flatten = r.bytes ++ [] := by simp
    obtain ⟨hnot, -, -⟩ | ⟨-, input, -, -, hserve⟩ :=
      serve_cases hostAddress getByName ipv6Usable (some willing) none r hflat
    · exact absurd hd hnot
    · refine h (some willing) none [r.bytes] [] hflat _ ?_
      rw [hserve, relayThroughPsiphon_lookups]
      exact openPsiphonStream_willing getByName _ _ hliteral
  · intro h listener relay chunks rest hflat t ht
    obtain ⟨-, hnone, -⟩ | ⟨hd, input, -, -, hserve⟩ :=
      serve_cases hostAddress getByName ipv6Usable listener relay r hflat
    · rw [hnone] at ht
      exact absurd ht not_mem_nil
    · rw [hserve, relayThroughPsiphon_lookups] at ht
      obtain ⟨rfl, hliteral⟩ := openPsiphonStream_lookups getByName listener ht
      exact h hd hliteral

/-- **A name a client asks for is never looked up here, exactly when it does not look like an
address without being one**: with a colon it is an IPv6 address, unless IPv6 is known not
to work, and as four groups of digits it is an IPv4 address. -/
theorem names_stay_inside_iff (r : ClientRequest) (raw : Bytes) (hpos : 0 < raw.length)
    (hlen : raw.length < 256) (hname : r.address = .domain raw hpos hlen) :
    (∀ (listener : Option Input) (relay : Option Nat) (chunks : List Bytes) (rest : Bytes),
      chunks.flatten = r.bytes ++ rest →
        ∀ t ∈ (serve getByName hostAddress ipv6Usable listener relay chunks).lookups,
          performsLookup t = false) ↔
      (r.command = cmdConnect →
        (':' ∈ decodeAscii raw → ipv6Usable = true → ∃ ip, Ipv6Text (decodeAscii raw) ip) ∧
        (isDottedQuad (decodeAscii raw) = true →
          ∀ g ∈ (decodeAscii raw).splitOn '.', InRange g)) := by
  have hhost : r.address.host hostAddress = decodeAscii raw := by rw [hname]; rfl
  rw [lookups_valid_iff, Dialled, hhost, and_imp]
  refine forall_congr' fun _ => ?_
  constructor
  · intro h
    refine ⟨fun hcolon husable => ?_, fun hquad => ?_⟩
    · exact (literal_valid_iff.mp (h fun _ => husable)).1 hcolon
    · refine (ipText_of_isDottedQuad hquad).mp (performsLookup_eq_false_iff.mp (h ?_ ?_))
      · intro hipv6
        obtain ⟨hfour, hgroups⟩ := isDottedQuad_iff.mp hquad
        exact absurd (contains_iff_mem.mp hipv6)
          (no_colon_of_quad hfour fun g hg => (hgroups g hg).1)
      · rw [isIpLiteral, hquad, Bool.or_true]
  · rintro ⟨hv6, hv4⟩ husable
    exact literal_valid_iff.mpr ⟨fun hcolon => hv6 hcolon (husable (contains_iff_mem.mpr hcolon)),
      hv4⟩

end

/-- A client that asks for port 80 of a name. -/
def namedRequest (raw : Bytes) (hpos : 0 < raw.length) (hlen : raw.length < 256) : ClientRequest :=
  { plainRequest with address := .domain raw hpos hlen }

/-- An address in range may come as a name: `getByName` only reads it. -/
theorem names_stay_inside_address :
    "1.2.3.4".toList ∈ (serve plainAddress plainHost true (some willing) none
        [(namedRequest [49, 46, 50, 46, 51, 46, 52] (by decide) (by decide)).bytes]).lookups ∧
      performsLookup "1.2.3.4".toList = false := by
  have hlooked : "1.2.3.4".toList ∈ (serve plainAddress plainHost true (some willing) none
      [(namedRequest [49, 46, 50, 46, 51, 46, 52] (by decide) (by decide)).bytes]).lookups :=
    mem_singleton_self _
  refine ⟨hlooked, ?_⟩
  refine (names_stay_inside_iff plainHost plainAddress true (namedRequest _ _ _) _ (by decide)
    (by decide) rfl).mpr (fun _ => ⟨fun hcolon => absurd hcolon (by decide), fun _ => ?_⟩)
    (some willing) none _ [] rfl _ hlooked
  have hsplit : (decodeAscii [49, 46, 50, 46, 51, 46, 52]).splitOn '.' =
      [['1'], ['2'], ['3'], ['4']] := rfl
  rw [hsplit, forall_mem_quad]
  simp only [InRange]
  decide

/-- Groups of digits out of range go to the phone's resolver. -/
theorem name_looked_up :
    "999.1.1.1".toList ∈ (serve plainAddress plainHost true (some willing) none
        [(namedRequest [57, 57, 57, 46, 49, 46, 49, 46, 49] (by decide)
          (by decide)).bytes]).lookups ∧
      performsLookup "999.1.1.1".toList = true :=
  ⟨mem_singleton_self _, by decide⟩

end Aether.Psiphon
