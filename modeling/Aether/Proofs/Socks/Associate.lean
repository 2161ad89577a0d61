/-
What leaves outside the tunnel, and for whom.

  * A client from elsewhere reaches no address of this machine through a direct route: each
    address is checked before it is dialled or sent to, whatever the resolver answered.
  * An association serves one client.  Each turn either keeps the client it is latched to or
    latches to the source it accepts, and everything it does is for that client.
-/
import Aether.Socks.Associate

namespace Aether.Socks

open List Routing

/-! ### Direct routes -/

/-- The addresses of this machine: with mapped ones unwrapped, 127.0.0.0/8, `::1` and the
unspecified ones. -/
def OwnMachine (ip : IpAddr) : Prop :=
  (IpNet.v4 0x7f000000 8).contains (normalizeIp ip) = true ∨ normalizeIp ip = .v6 1 ∨
    normalizeIp ip = .v4 0 ∨ normalizeIp ip = .v6 0

theorem ownMachine_iff {ip : IpAddr} :
    OwnMachine ip ↔ ((normalizeIp ip).isLoopback || (normalizeIp ip).isUnspecified) = true := by
  unfold OwnMachine
  cases normalizeIp ip with
  | v4 v4 =>
    simp only [IpNet.contains, IpAddr.isLoopback, IpAddr.isUnspecified, Ipv4Addr.octet,
      BitVec.toNat_eq, Bool.or_eq_true, beq_iff_eq, IpAddr.v4.injEq, reduceCtorEq, false_or,
      or_false]
    have htop : (0x7f000000 : Ipv4Addr).toNat = 0x7f000000 := rfl
    have hzero : (0 : Ipv4Addr).toNat = 0 := rfl
    rw [htop, hzero]
    omega
  | v6 v6 =>
    simp [IpNet.contains, IpAddr.isLoopback, IpAddr.isUnspecified, BitVec.toNat_eq]

theorem not_ownMachine {client address : IpAddr} (hclient : (normalizeIp client).isLoopback = false)
    (h : directTargetAllowed client address = true) : ¬ OwnMachine address := by
  intro hown
  unfold directTargetAllowed at h
  rw [if_pos (ownMachine_iff.mp hown), hclient] at h
  cases h

theorem allowed_of_tried {client : IpAddr} {address : StdSocketAddr}
    {found : List (StdSocketAddr × Dial)} {last : Dial}
    (h : address ∈ (connectEach client last found).2) :
    directTargetAllowed client address.ip = true := by
  induction found generalizing last with
  | nil => cases h
  | cons first rest ih =>
    simp only [connectEach] at h
    split at h
    · rename_i hallowed
      split at h
      · rw [mem_singleton.mp h]
        exact hallowed
      · rcases mem_cons.mp h with rfl | hrest
        · exact hallowed
        · exact ih hrest
    · exact ih h

theorem mem_udpLoop {turn : Option StdSocketAddr → UdpEvent → Turned} {act : Act}
    {events : List UdpEvent} {client : Option StdSocketAddr}
    (h : act ∈ udpLoop turn client events) :
    ∃ before event after acts, turn before event = some (after, acts) ∧ act ∈ acts := by
  induction events generalizing client with
  | nil => cases h
  | cons event events ih =>
    simp only [udpLoop] at h
    cases hturn : turn client event with
    | none =>
      rw [hturn] at h
      cases h
    | some next =>
      rw [hturn] at h
      rcases mem_append.mp h with hnow | hlater
      · exact ⟨client, event, next.1, next.2, hturn, hnow⟩
      · exact ih hlater

/-- An accepted datagram is sent on at most once, and on `direct_relay` only where it may go. -/
theorem carried_cases {lower : Text → Text} {set : RuleSet} {controlPeer source : StdSocketAddr}
    {data : Bytes} {found : Option (List StdSocketAddr)} {dns : Option IpAddr} {act : Act}
    (h : act ∈ carryDatagram lower set controlPeer source data found dns) :
    ∃ hop dst payload, act = .forwarded source hop dst payload ∧
      (hop = .direct → directTargetAllowed controlPeer.ip dst.ip = true) := by
  revert h
  fun_cases carryDatagram lower set controlPeer source data found dns <;> intro h
  case case3 hallowed => exact ⟨.direct, _, _, mem_singleton.mp h, fun _ => hallowed⟩
  case case6 => exact ⟨.stack, _, _, mem_singleton.mp h, fun hne => by cases hne⟩
  all_goals cases h

/-- What a turn of `handle_udp_associate` does. -/
theorem acts_of_turn {lower : Text → Text} {set : RuleSet} {controlPeer : StdSocketAddr}
    {expectedIp : IpAddr} {client after : Option StdSocketAddr} {event : UdpEvent}
    {acts : List Act} {act : Act}
    (h : associateTurn lower set controlPeer expectedIp client event = some (after, acts))
    (hact : act ∈ acts) :
    (∃ source, act = .accepted source) ∨ (∃ dst packet, act = .replied dst packet) ∨
      ∃ source data found dns,
        act ∈ carryDatagram lower set controlPeer source data found dns := by
  have hanswer {src data} (h : onAnswer client src data = some (after, acts)) :
      ∃ dst packet, act = .replied dst packet := by
    cases client with
    | none =>
      cases h
      cases hact
    | some c =>
      cases h
      exact ⟨c, _, mem_singleton.mp hact⟩
  rcases event with ⟨_ | ⟨source, data⟩, found, dns, _⟩ | ⟨_ | ⟨src, data⟩⟩ |
    ⟨_ | ⟨src, data⟩⟩ | ⟨_ | ⟨_ | _⟩⟩
  case datagram.some =>
    simp only [associateTurn, onDatagram] at h
    split at h <;> cases h
    · rcases mem_cons.mp hact with hfirst | hserved
      · exact .inl ⟨source, hfirst⟩
      · exact .inr (.inr ⟨source, data, found, dns, hserved⟩)
    · cases hact
  case answer.some => exact .inr (.inl (hanswer h))
  case outside.some => exact .inr (.inl (hanswer h))
  all_goals
    cases h
    try cases hact

/-- **A client from elsewhere never reaches this machine through a direct route**: neither by a
connection, whatever the resolver answers, nor by a datagram of an association, whatever the
rules and the events. -/
theorem direct_routes_keep_out {client : IpAddr}
    (hclient : (normalizeIp client).isLoopback = false) :
    (∀ (lookup : Lookup) (host : Text) (port : UInt16),
      ∀ address ∈ (connectDirect lookup host port client).2, ¬ OwnMachine address.ip) ∧
    (∀ (lower : Text → Text) (set : RuleSet) (controlPeer : StdSocketAddr) (requested : Target)
      (events : List UdpEvent) (source dst : StdSocketAddr) (payload : Bytes),
      controlPeer.ip = client → Act.forwarded source .direct dst payload ∈
        handleUdpAssociate lower set controlPeer requested events → ¬ OwnMachine dst.ip) := by
  constructor
  · intro lookup host port address hmem
    unfold connectDirect at hmem
    cases hfound : lookup host port with
    | none =>
      rw [hfound] at hmem
      cases hmem
    | some found =>
      rw [hfound] at hmem
      exact not_ownMachine hclient (allowed_of_tried hmem)
  · rintro lower set controlPeer requested events source dst payload rfl hmem
    obtain ⟨before, event, after, acts, hturn, hact⟩ := mem_udpLoop hmem
    refine not_ownMachine hclient ?_
    rcases acts_of_turn hturn hact with ⟨_, hne⟩ | ⟨_, _, hne⟩ | hcarried
    · cases hne
    · cases hne
    · obtain ⟨_, _, _, _, hcarried⟩ := hcarried
      obtain ⟨_, _, _, ⟨⟩, hallowed⟩ := carried_cases hcarried
      exact hallowed rfl

/-- From `192.168.1.7`, a name that resolves to `::ffff:127.0.0.1` and to `1.1.1.1`: the second
one is tried. -/
theorem direct_routes_keep_out_mapped :
    (connectDirect (fun _ _ => some [(.v6 0xffff7f000001 80 0 0, .connected),
      (.v4 0x01010101 80, .connected)]) "name".toList 80 (.v4 0xc0a80107)).2 =
        [.v4 0x01010101 80] ∧ ¬ OwnMachine (.v4 0x01010101) :=
  ⟨by decide, (direct_routes_keep_out
      (show (normalizeIp (.v4 0xc0a80107)).isLoopback = false by decide)).1
    (fun _ _ => some [(.v6 0xffff7f000001 80 0 0, .connected), (.v4 0x01010101 80, .connected)])
    "name".toList 80 (.v4 0x01010101 80) (by decide)⟩

/-! ### One client -/

theorem normalizeIp_idem (ip : IpAddr) : normalizeIp (normalizeIp ip) = normalizeIp ip := by
  cases ip with
  | v4 v4 => rfl
  | v6 v6 => cases h : v6.toIpv4Mapped <;> simp [normalizeIp, h]

theorem normalizeIp_expected (controlPeer : StdSocketAddr) (requested : Target) :
    normalizeIp (expectedUdpSource controlPeer requested)
      = expectedUdpSource controlPeer requested := by
  unfold expectedUdpSource
  split
  · split <;> exact normalizeIp_idem _
  · exact normalizeIp_idem _

/-- What a turn may do: act for the client there is, or latch to the source it accepts and act
for that one. -/
inductive Latch (expectedIp : IpAddr) : Option StdSocketAddr → Turned → Prop
  | over {client} : Latch expectedIp client none
  | kept {client acts} (hacts : ∀ act ∈ acts, client = some act.peer) :
      Latch expectedIp client (some (client, acts))
  | latched {c acts} (hacts : ∀ act ∈ acts, act.peer = c)
      (hip : normalizeIp c.ip = normalizeIp expectedIp) :
      Latch expectedIp none (some (some c, .accepted c :: acts))

section Loop

variable {expectedIp : IpAddr} {client : Option StdSocketAddr}

theorem Latch.unchanged : Latch expectedIp client (some (client, [])) :=
  .kept fun _ hact => by cases hact

theorem onDatagram_latch {source : StdSocketAddr} {serve : List Act}
    (hserve : ∀ act ∈ serve, act.peer = source) :
    Latch expectedIp client (onDatagram expectedIp client source serve) := by
  unfold onDatagram
  split
  · rename_i hallowed
    cases client with
    | none => exact .latched hserve (beq_iff_eq.mp hallowed)
    | some known =>
      cases beq_iff_eq.mp hallowed
      refine .kept fun act hact => ?_
      rcases mem_cons.mp hact with rfl | hlater
      · rfl
      · rw [hserve act hlater]
  · exact .unchanged

theorem onAnswer_latch {src : StdSocketAddr} {data : Bytes} :
    Latch expectedIp client (onAnswer client src data) := by
  cases client with
  | none => exact .unchanged
  | some c =>
    refine .kept fun act hact => ?_
    rw [mem_singleton.mp hact]
    rfl

theorem onControl_latch {read : Option Bytes} :
    Latch expectedIp client (onControl client read) := by
  unfold onControl
  split
  · exact .over
  · exact .over
  · exact .unchanged

theorem peer_of_lookUp {source : StdSocketAddr} {data : Bytes} {permit : Bool} {act : Act}
    (h : act ∈ lookUp source data permit) : act.peer = source := by
  unfold lookUp at h
  split at h
  · split at h
    · rw [mem_singleton.mp h]
      rfl
    · cases h
  · cases h

theorem associateTurn_latch {lower : Text → Text} {set : RuleSet} {controlPeer : StdSocketAddr}
    (client : Option StdSocketAddr) (event : UdpEvent) :
    Latch expectedIp client
      (associateTurn lower set controlPeer expectedIp client event) := by
  rcases event with ⟨_ | _, _⟩ | ⟨_ | _⟩ | ⟨_ | _⟩ | read
  · exact .over
  · refine onDatagram_latch fun act hact => ?_
    obtain ⟨_, _, _, rfl, _⟩ := carried_cases hact
    rfl
  · exact .over
  · exact onAnswer_latch
  · exact .unchanged
  · exact onAnswer_latch
  · exact onControl_latch

theorem connectorTurn_latch (client : Option StdSocketAddr) (event : UdpEvent) :
    Latch expectedIp client (connectorTurn expectedIp client event) := by
  rcases event with ⟨_ | _, _⟩ | ⟨_ | _⟩ | received | read
  · exact .over
  · exact onDatagram_latch fun act => peer_of_lookUp
  · exact .over
  · exact onAnswer_latch
  · exact .unchanged
  · exact onControl_latch

/-- What an association may do: after accepting a datagram from `c` it accepts and forwards
only what comes from `c` and replies only to `c`, which has the expected address, and it
replies to nobody before. -/
structure OneClient (expectedIp : IpAddr) (acts : List Act) : Prop where
  served : ∀ before c after, acts = before ++ .accepted c :: after → ∀ act ∈ after, act.peer = c
  address : ∀ c, .accepted c ∈ acts → normalizeIp c.ip = expectedIp
  waits : ∀ before dst packet after, acts = before ++ .replied dst packet :: after →
    ∃ c, .accepted c ∈ before

variable {turn : Option StdSocketAddr → UdpEvent → Turned}
  (hturn : ∀ client event, Latch expectedIp client (turn client event))
include hturn

/-- A loop that is latched stays so. -/
theorem udpLoop_latched {c : StdSocketAddr} {events : List UdpEvent} :
    ∀ act ∈ udpLoop turn (some c) events, act.peer = c := by
  induction events with
  | nil => exact fun _ hact => by cases hact
  | cons event events ih =>
    intro act hact
    have hlatch := hturn (some c) event
    simp only [udpLoop] at hact
    cases hstep : turn (some c) event with
    | none =>
      rw [hstep] at hact
      cases hact
    | some next =>
      rw [hstep] at hact hlatch
      cases hlatch with
      | kept hacts =>
        rcases mem_append.mp hact with hnow | hlater
        · exact (Option.some.inj (hacts act hnow)).symm
        · exact ih act hlater

/-- A loop does nothing, or begins by accepting the client that all the rest is for. -/
theorem udpLoop_first (events : List UdpEvent) :
    udpLoop turn none events = [] ∨ ∃ c acts, udpLoop turn none events = .accepted c :: acts ∧
      (∀ act ∈ acts, act.peer = c) ∧ normalizeIp c.ip = normalizeIp expectedIp := by
  induction events with
  | nil => exact .inl rfl
  | cons event events ih =>
    have hlatch := hturn none event
    simp only [udpLoop]
    cases hstep : turn none event with
    | none => exact .inl rfl
    | some next =>
      rw [hstep] at hlatch
      cases hlatch with
      | @kept _ acts hacts =>
        cases acts with
        | nil => exact ih
        | cons act acts => cases hacts act mem_cons_self
      | @latched c acts hacts hip =>
        refine .inr ⟨c, _, rfl, fun act hact => ?_, hip⟩
        rcases mem_append.mp hact with hnow | hlater
        · exact hacts act hnow
        · exact udpLoop_latched hturn act hlater

theorem oneClient (hexpected : normalizeIp expectedIp = expectedIp) (events : List UdpEvent) :
    OneClient expectedIp (udpLoop turn none events) := by
  rcases udpLoop_first hturn events with hnil | ⟨c, acts, hcons, hacts, hip⟩
  · rw [hnil]
    exact ⟨fun _ _ _ h => by simp at h, fun _ h => (not_mem_nil h).elim,
      fun _ _ _ _ h => by simp at h⟩
  · rw [hcons]
    have hpeer : ∀ act ∈ Act.accepted c :: acts, act.peer = c := by
      intro act hact
      rcases mem_cons.mp hact with rfl | hlater
      · rfl
      · exact hacts act hlater
    refine ⟨fun before c' after h act hact => ?_, fun c' h => ?_, fun before _ _ _ h => ?_⟩
    · have hc' : c' = c := hpeer (.accepted c') (by simp [h])
      rw [hc']
      exact hpeer act (by simp [h, hact])
    · have hc' : c' = c := hpeer _ h
      rw [hc', hip, hexpected]
    · cases before with
      | nil => cases h
      | cons first before =>
        cases h
        exact ⟨c, mem_cons_self⟩

end Loop

/-- **An association serves one client only**, whatever happens at its sockets and in whatever
order, with the stack and over the connector. -/
theorem associations_serve_one_client (controlPeer : StdSocketAddr) (requested : Target)
    (events : List UdpEvent) :
    (∀ (lower : Text → Text) (set : RuleSet), OneClient (expectedUdpSource controlPeer requested)
      (handleUdpAssociate lower set controlPeer requested events)) ∧
    OneClient (expectedUdpSource controlPeer requested)
      (handleUdpOverConnector controlPeer requested events) :=
  ⟨fun _ _ => oneClient associateTurn_latch (normalizeIp_expected controlPeer requested) events,
    oneClient connectorTurn_latch (normalizeIp_expected controlPeer requested) events⟩

end Aether.Socks
