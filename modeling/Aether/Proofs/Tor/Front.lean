/-
How the UDP side of the Tor front reads datagrams, and for how long.

Three parsers read the header of a SOCKS5 datagram.  What the engine's accepts is what a complete
header is; the other two ask for ten bytes, the length of the shortest header with an address, and
so refuse the shortest headers with a name.

`pumpUdp` ends when a wait finds the last datagram a minute old, so that it lives as long as its
association only if the pauses are shorter.
-/
import Aether.Tor.Front
import Aether.Proofs.Socks.Udp

namespace Aether.Tor

open List

open Socks (slice)

open Psiphon (atypIpv4 atypDomain atypIpv6)

variable {d : Bytes}

/-! ### The three parsers -/

/-- Where the port stands, by the type of the address before it. -/
def portOffset (d : Bytes) : Option Nat :=
  if d.getD 3 0 = atypIpv4 then some 8
  else if d.getD 3 0 = atypIpv6 then some 20
  else if d.getD 3 0 = atypDomain then some (5 + (d.getD 4 0).toNat)
  else none

/-- The port and the payload of a datagram that begins with a complete header, with the fragment
number 0 and a known type of address. -/
def udpRequest (d : Bytes) : Option (UInt16 × Bytes) :=
  if d.getD 2 0 ≠ 0 then none
  else do
    let pos ← portOffset d
    if d.length < pos + 2 then none
    else some (u16FromBe (slice d pos 2), d.drop (pos + 2))

/-- The engine reads every complete header. -/
theorem engine_eq_udpRequest (d : Bytes) : (Socks.parseUdpRequest d).map (·.2) = udpRequest d := by
  unfold Socks.parseUdpRequest Socks.parseUdpTarget udpRequest portOffset
  unfold Socks.atypV4 Socks.atypV6 Socks.atypDomain atypIpv4 atypIpv6 atypDomain
  -- the checks on the way to the port are part of the last one
  grind

theorem psiphon_eq_udpRequest (d : Bytes) :
    (Psiphon.parseUdpRequest d).map (fun r => (r.port, r.payload)) =
      if d.length < 10 then none else udpRequest d := by
  unfold Psiphon.parseUdpRequest Psiphon.addressLength udpRequest portOffset
  grind

variable {hostAddress : Bytes → Text}

/-- What stands behind the datagram in the buffer does not matter. -/
theorem parseUdpRequest_append (d more : Bytes) :
    parseUdpRequest hostAddress (d ++ more) d.length = parseUdpRequest hostAddress d d.length := by
  by_cases hten : d.length < 10
  · unfold parseUdpRequest
    rw [if_pos (.inl hten), if_pos (.inl hten)]
  have hbyte : ∀ i < 10, (d ++ more).getD i 0 = d.getD i 0 := fun i hi => by
    rw [getD_eq_getElem?_getD, getElem?_append_left (by omega), getD_eq_getElem?_getD]
  have hslice : ∀ pos len, pos + len ≤ d.length →
      slice (d ++ more) pos len = slice d pos len := fun pos len h => by
    unfold slice
    rw [drop_append_of_le_length (by omega),
      take_append_of_le_length (by rw [length_drop]; omega)]
  unfold parseUdpRequest readHost
  rw [hbyte 2 (by decide), hbyte 3 (by decide), hbyte 4 (by decide), length_append]
  grind

/-- The address is a name of no bytes. -/
abbrev Nameless (d : Bytes) : Prop := d.getD 3 0 = atypDomain ∧ (d.getD 4 0).toNat = 0

theorem tor_eq_udpRequest (d : Bytes) :
    (parseUdpRequest hostAddress d d.length).map (fun r => (r.port, r.payload)) =
      if d.length < 10 ∨ Nameless d then none else udpRequest d := by
  have hpayload : ∀ pos, slice d pos (d.length - pos) = d.drop pos := fun pos =>
    take_of_length_le (by rw [length_drop])
  have hdiff : atypDomain ≠ atypIpv4 ∧ atypDomain ≠ atypIpv6 := by decide
  unfold parseUdpRequest readHost udpRequest portOffset Nameless
  simp only [Option.bind_eq_bind, hpayload]
  grind

/-- **The three parsers read the same datagrams** but for complete headers of less than ten bytes,
which the fronts refuse, and those with an empty name, which the Tor front refuses. -/
theorem udp_parsers_agree_iff (hostAddress : Bytes → Text) (d : Bytes) :
    ((∀ more, (parseUdpRequest hostAddress (d ++ more) d.length).map
          (fun r => (r.port, r.payload)) = udpRequest d) ∧
        (Psiphon.parseUdpRequest d).map (fun r => (r.port, r.payload)) = udpRequest d ∧
        (Socks.parseUdpRequest d).map (·.2) = udpRequest d) ↔
      (udpRequest d = none ∨ 10 ≤ d.length ∧ ¬ Nameless d) := by
  rw [and_iff_left (engine_eq_udpRequest d), psiphon_eq_udpRequest]
  simp only [parseUdpRequest_append, tor_eq_udpRequest, forall_const]
  by_cases hrefused : d.length < 10 ∨ Nameless d
  · have hno : ¬ (10 ≤ d.length ∧ ¬ Nameless d) := fun h =>
      hrefused.elim (Nat.not_lt.mpr h.1) h.2
    rw [if_pos hrefused, or_iff_left hno]
    constructor
    · exact fun h => h.1.symm
    · intro hnone
      rw [hnone, ite_self]
      exact ⟨rfl, rfl⟩
  · obtain ⟨hten, hname⟩ := not_or.mp hrefused
    rw [if_neg hrefused, if_neg hten]
    exact iff_of_true ⟨rfl, rfl⟩ (.inr ⟨Nat.not_lt.mp hten, hname⟩)

/-- A name of one byte, and nothing behind the port. -/
theorem short_name_refused :
    Socks.parseUdpRequest [0, 0, 0, 3, 1, 97, 0, 53] = some (.domain ['a'], 53, []) ∧
      Psiphon.parseUdpRequest [0, 0, 0, 3, 1, 97, 0, 53] = none ∧
      parseUdpRequest (fun _ => []) [0, 0, 0, 3, 1, 97, 0, 53] 8 = none := by
  decide

/-! ### The pump -/

/-- The query in a datagram, if there is one. -/
def query (hostAddress : Bytes → Text) (data : Bytes) (length : Nat) : List Bytes :=
  match parseUdpRequest hostAddress data length with
  | some request => if isDnsQuery request then [request.payload] else []
  | none => []

/-- The queries that arrive. -/
def queries (hostAddress : Bytes → Text) : List Received → List Bytes
  | [] => []
  | .timeout _ :: schedule => queries hostAddress schedule
  | .datagram _ data _ _ :: schedule =>
    query hostAddress (data.take udpBuffer) (data.take udpBuffer).length ++
      queries hostAddress schedule

/-- No wait ends with nothing later than the limit after the last datagram: `silence` is the time
since then, in which the pump may have been busy. -/
def Lively (silence : Nat) : List Received → Prop
  | [] => True
  | .timeout late :: schedule =>
    silence + (relayTimeout + late) ≤ udpIdleMs ∧
      Lively (silence + (relayTimeout + late)) schedule
  | .datagram _ _ _ work :: schedule => Lively work schedule

theorem handle_eq (hostAddress : Bytes → Text) (p : Pump) (length : Nat) (answer : Option Bytes) :
    ∃ replies, p.handle hostAddress length answer =
      { p with resolved := p.resolved ++ query hostAddress p.buffer length, replies } := by
  unfold Pump.handle query
  cases parseUdpRequest hostAddress p.buffer length with
  | none => exact ⟨p.replies, by simp⟩
  | some request =>
    cases hdns : isDnsQuery request with
    | false => exact ⟨p.replies, by simp [hdns]⟩
    | true =>
      cases answer with
      | none => exact ⟨p.replies, by simp [hdns]⟩
      | some answer => exact ⟨p.replies ++ [_], by simp only [hdns]; rfl⟩

/-- From anywhere in the loop. -/
theorem serves_iff {p : Pump} {schedule : List Received}
    (hopen : (p.running && !p.relayClosed) = true) (hseen : p.lastSeen ≤ p.now) :
    (∃ p', pumpUdp hostAddress p schedule = some p' ∧
        p'.resolved = p.resolved ++ queries hostAddress schedule) ↔
      Lively (p.now - p.lastSeen) schedule := by
  induction schedule generalizing p with
  | nil => simp [pumpUdp, Lively, queries]
  | cons received schedule ih =>
    unfold pumpUdp
    rw [foldlM_cons]
    unfold Pump.turn
    rw [if_pos hopen]
    cases received with
    | timeout late =>
      have hsilence : p.now + (relayTimeout + late) - p.lastSeen =
          p.now - p.lastSeen + (relayTimeout + late) := by
        omega
      dsimp only
      unfold Lively
      rw [hsilence]
      split
      · next hidle => exact iff_of_false (by simp) fun h => Nat.not_le.mpr hidle h.1
      · next hidle =>
          rw [and_iff_right (Nat.not_lt.mp hidle), ← hsilence]
          exact ih (p := { p with now := p.now + (relayTimeout + late) }) hopen
            (by dsimp only; omega)
    | datagram waited data answer work =>
      obtain ⟨replies, hhandle⟩ := handle_eq hostAddress { p with
        now := p.now + waited
        lastSeen := p.now + waited
        buffer := data.take udpBuffer ++ p.buffer.drop (data.take udpBuffer).length }
        (data.take udpBuffer).length answer
      have hquery : query hostAddress (data.take udpBuffer ++
            p.buffer.drop (data.take udpBuffer).length) (data.take udpBuffer).length =
          query hostAddress (data.take udpBuffer) (data.take udpBuffer).length := by
        unfold query
        rw [parseUdpRequest_append]
      have hrest := ih (p := { p with
        now := p.now + waited + work
        lastSeen := p.now + waited
        buffer := data.take udpBuffer ++ p.buffer.drop (data.take udpBuffer).length
        resolved := p.resolved ++
          query hostAddress (data.take udpBuffer) (data.take udpBuffer).length
        replies }) hopen (Nat.le_add_right _ _)
      dsimp only
      rw [hhandle, hquery]
      rw [Nat.add_sub_cancel_left] at hrest
      simp only [append_assoc] at hrest
      exact hrest

/-- **A schedule is served to its end if and only if it is never silent for too long.** -/
theorem pumpUdp_serves_iff (hostAddress : Bytes → Text) (start : Nat) (schedule : List Received) :
    (∃ p, pumpUdp hostAddress { now := start, lastSeen := start } schedule = some p ∧
        p.resolved = queries hostAddress schedule) ↔ Lively 0 schedule := by
  have h := @serves_iff hostAddress { now := start, lastSeen := start } schedule rfl (Nat.le_refl _)
  rw [Nat.sub_self] at h
  exact h

/-- A query after a minute and a second. -/
theorem query_unread :
    queries (fun _ => []) (replicate 61 (.timeout 0) ++
        [.datagram 0 [0, 0, 0, 1, 9, 9, 9, 9, 0, 53, 7] none 0]) = [[7]] ∧
      pumpUdp (fun _ => []) { now := 0, lastSeen := 0 } (replicate 61 (.timeout 0) ++
        [.datagram 0 [0, 0, 0, 1, 9, 9, 9, 9, 0, 53, 7] none 0]) = none := by
  decide

end Aether.Tor
