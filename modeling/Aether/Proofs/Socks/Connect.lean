/-
Replies and the gateway: what a CONNECT tells its client, and what becomes of a refusal.

The reply that sniffing sends early is remembered by every exit but one: when the way through
the tunnel cannot be opened, the failure reply is written all the same.  And a gateway that
refuses a target is treated like one that is gone.
-/
import Aether.Socks.Connect

namespace Aether.Socks

open List

open Routing

/-! ### Bytes of the remote side -/

abbrev Log := List (Origin × Bytes)

/-- Nothing but bytes of the remote side. -/
def Relayed (log : Log) : Prop := ∀ x ∈ log, x.1 = Origin.relayed

/-- A reply of the protocol. -/
def IsReply (bytes : Bytes) : Prop := bytes = replyBound unbound ∨ ∃ code, bytes = reply code

/-- At most one reply, of which a failing socket may have taken a part, and behind it only
bytes of the remote side. -/
def OneReply (log : Log) : Prop :=
  Relayed log ∨ ∃ part full rest, log = (Origin.own, part) :: rest ∧ IsReply full ∧ part <+: full ∧
    Relayed rest

/-- A continuation that writes only bytes of the remote side to the client. -/
def Passes (f : Ends → Ends) : Prop :=
  ∀ e, ∃ more, (f e).client.log = e.client.log ++ more ∧ Relayed more

theorem passes_id : Passes id := fun _ => ⟨[], by simp, by simp [Relayed]⟩

theorem passes_relay (later : List (Option Bytes)) (down : List Bytes) :
    Passes (relay later down) := fun e => Sink.log_writeEach e.client .relayed down

section

variable {next : Ends → Ends}

theorem passes_toRemote (hnext : Passes next) (origin : Origin) (data : Bytes) :
    Passes fun e => e.toRemote origin data next := by
  intro e
  show ∃ more, (e.toRemote origin data next).client.log = _ ∧ _
  unfold Ends.toRemote
  split
  · exact hnext _
  · exact passes_id e

/-- A write to the client, and then only bytes of the remote side. -/
theorem log_toClient (hnext : Passes next) (e : Ends) (origin : Origin) (data : Bytes) :
    ∃ part more, part <+: data ∧ Relayed more ∧
      (e.toClient origin data next).client.log =
        e.client.log ++ (Sink.piece origin part ++ more) := by
  obtain ⟨part, hpart, hlog, -⟩ := Sink.log_write e.client origin data
  unfold Ends.toClient
  split
  · next client hwrite =>
      rw [hwrite] at hlog
      obtain ⟨more, hmore, hrelayed⟩ := hnext { e with client }
      refine ⟨part, more, hpart, hrelayed, ?_⟩
      rw [hmore, ← append_assoc]
      exact congrArg (· ++ more) hlog
  · next client hwrite =>
      rw [hwrite] at hlog
      exact ⟨part, [], hpart, by simp [Relayed], by rw [append_nil]; exact hlog⟩

theorem passes_toClient (hnext : Passes next) (data : Bytes) :
    Passes fun e => e.toClient .relayed data next := by
  intro e
  obtain ⟨part, more, -, hrelayed, hlog⟩ := log_toClient hnext e .relayed data
  refine ⟨_, hlog, forall_mem_append.mpr ⟨?_, hrelayed⟩⟩
  unfold Sink.piece
  split <;> simp

/-! ### Replies -/

/-- A first reply, and then only bytes of the remote side. -/
theorem oneReply_toClient {e : Ends} (hlog : e.client.log = []) {full : Bytes}
    (hfull : IsReply full) (hnext : Passes next) :
    OneReply (e.toClient .own full next).client.log := by
  obtain ⟨part, more, hpart, hrelayed, hwritten⟩ := log_toClient hnext e .own full
  rw [hwritten, hlog, nil_append]
  unfold Sink.piece
  split
  · exact .inl hrelayed
  · exact .inr ⟨part, full, more, rfl, hfull, hpart, hrelayed⟩

end

/-! ### The handler -/

/-- What the client has when the route is decided: the success reply if it was sent early. -/
def Agrees (sniffed : Sniffed) (e : Ends) : Prop :=
  e.client.log = if sniffed.replied then [(.own, replyBound unbound)] else []

section

variable {env : ConnectEnv} {sniffed : Sniffed} {e : Ends}

theorem oneReply_passes (h : Agrees sniffed e) {f : Ends → Ends} (hf : Passes f) :
    OneReply (f e).client.log := by
  obtain ⟨more, hmore, hrelayed⟩ := hf e
  rw [hmore, h]
  split
  · exact .inr ⟨_, _, more, rfl, .inl rfl, prefix_refl _, hrelayed⟩
  · exact .inl hrelayed

/-- The success reply goes out once. -/
theorem oneReply_replyOnce (h : Agrees sniffed e) {next : Ends → Ends} (hnext : Passes next) :
    OneReply (replyOnce sniffed.replied next e).client.log := by
  unfold replyOnce
  split
  · exact oneReply_passes h hnext
  · next hnot =>
      rw [Agrees, if_neg hnot] at h
      exact oneReply_toClient h (.inl rfl) hnext

/-- A failure reply that looks at what was sent. -/
theorem oneReply_refuse (h : Agrees sniffed e) (code : UInt8) :
    OneReply (if sniffed.replied then e else e.toClient .own (reply code) id).client.log := by
  split
  · exact oneReply_passes h passes_id
  · next hnot =>
      rw [Agrees, if_neg hnot] at h
      exact oneReply_toClient h (.inr ⟨code, rfl⟩) passes_id

theorem oneReply_direct (h : Agrees sniffed e) :
    OneReply (handleDirect env sniffed e).client.log := by
  have hrelay := passes_relay env.later env.down
  unfold handleDirect
  cases env.dial with
  | noPeer => exact oneReply_passes h passes_id
  | denied => exact oneReply_refuse h repNotAllowed
  | failed => exact oneReply_refuse h repGeneral
  | connected =>
    simp only
    split
    · exact oneReply_replyOnce h hrelay
    · unfold Ends.toRemote
      split
      · next remote _ =>
          exact oneReply_replyOnce (show Agrees sniffed { e with remote } from h) hrelay
      · next remote _ =>
          exact oneReply_passes (show Agrees sniffed { e with remote } from h) passes_id

theorem passes_ite {c : Prop} [Decidable c] {f g : Ends → Ends} (hf : Passes f) (hg : Passes g) :
    Passes fun e => if c then f e else g e := by
  intro e
  show ∃ more, (if c then f e else g e).client.log = _ ∧ _
  split
  · exact hf e
  · exact hg e

theorem oneReply_tunneled (h : Agrees sniffed e) (leftover : Bytes) :
    OneReply (serveTunneled env sniffed leftover e).client.log := by
  have hrelay := passes_relay env.later env.down
  have hanswer := passes_ite (c := leftover = []) hrelay (passes_toClient hrelay leftover)
  unfold serveTunneled
  apply oneReply_replyOnce h
  exact passes_ite hanswer (passes_toRemote hanswer .relayed sniffed.head)

end

section

variable {hostname : Bytes → Option Text} {lower : Text → Text} {set : RuleSet}
  {env : ConnectEnv} {target : Target} {port : Nat} {p : Process} {e₀ : Ends}

/-- The reply was sent early, to a client that still takes bytes, the route is the tunnel, and
the tunnel cannot be opened. -/
structure LateFailure (hostname : Bytes → Option Text) (lower : Text → Text) (set : RuleSet)
    (env : ConnectEnv) (target : Target) (port : Nat) (p : Process) (room : Option Nat) : Prop where
  sniffs : wantsSniff set env target = true
  room : ∀ n, room = some n → 10 < n
  head : ∃ head, env.sniffHead = some head ∧
    decideRoute lower set target (if head = [] then none else hostname head) port = .proxy
  opening : (openTunneled env.opening target port p).1 = none

theorem oneReply_bound : OneReply [(.own, replyBound unbound)] :=
  .inr ⟨_, _, [], rfl, .inl rfl, prefix_refl _, by simp [Relayed]⟩

theorem not_oneReply_two {a b : Bytes} {rest : Log} :
    ¬ OneReply ((.own, a) :: (.own, b) :: rest) := by
  intro h
  obtain hrelayed | ⟨part, full, rest', heq, -, -, hrelayed⟩ := h
  · cases hrelayed (.own, a) (by simp)
  · obtain ⟨-, rfl⟩ := List.cons.inj heq
    cases hrelayed (.own, b) (by simp)

/-- A second reply is one too many, if the client takes any of it. -/
theorem oneReply_second {e : Ends} (hlog : e.client.log = [(.own, replyBound unbound)])
    (code : UInt8) :
    OneReply (e.toClient .own (reply code) id).client.log ↔ e.client.room = some 0 := by
  have hsent : ∀ part : Bytes, OneReply ([(.own, replyBound unbound)] ++ Sink.piece .own part) ↔
      part = [] := by
    intro part
    cases part with
    | nil => exact iff_of_true oneReply_bound rfl
    | cons x part => exact iff_of_false not_oneReply_two (by simp)
  unfold Ends.toClient Sink.write
  rw [hlog]
  cases e.client.room with
  | none => exact iff_of_false (fun h => absurd ((hsent _).mp h) (by simp [reply])) (by simp)
  | some n =>
    by_cases hfits : (reply code).length ≤ n
    · have hn : n ≠ 0 := by
        simp [reply] at hfits
        omega
      simp only [if_pos hfits, id]
      rw [hsent]
      exact iff_of_false (by simp [reply]) (by simpa using hn)
    · simp only [if_neg hfits]
      rw [hsent]
      simp [reply]

/-- The early reply: the client takes all of it, or there was no room for it. -/
theorem early_reply {client : Sink Origin UInt8} (hlog : client.log = []) :
    (∃ client', client.write .own (replyBound unbound) = (true, client') ∧
      client'.log = [(.own, replyBound unbound)] ∧
      (client'.room = some 0 ↔ client.room = some 10) ∧ ∀ n, client.room = some n → 10 ≤ n) ∨
    ∃ client' n, client.write .own (replyBound unbound) = (false, client') ∧
      OneReply client'.log ∧ client.room = some n ∧ n < 10 := by
  have hlen : (replyBound unbound).length = 10 := by decide
  have hpiece : Sink.piece Origin.own (replyBound unbound) = [(.own, replyBound unbound)] := rfl
  unfold Sink.write
  rw [hlog, hpiece]
  cases hroom : client.room with
  | none => exact .inl ⟨_, rfl, rfl, by simp, by simp⟩
  | some n =>
    by_cases hfits : (replyBound unbound).length ≤ n
    · left
      simp only [if_pos hfits]
      refine ⟨_, rfl, rfl, ?_, ?_⟩
      · simp only [Option.some.injEq]
        omega
      · intro m hm
        obtain rfl := Option.some.inj hm
        omega
    · right
      simp only [if_neg hfits]
      refine ⟨_, n, rfl, ?_, rfl, by omega⟩
      show OneReply ([] ++ Sink.piece .own ((replyBound unbound).take n))
      unfold Sink.piece
      split
      · exact .inl (by simp [Relayed])
      · exact .inr ⟨_, _, [], rfl, .inl rfl, take_prefix n _, by simp [Relayed]⟩

/-- From the route on: one reply, unless the tunnel cannot be opened after an early one. -/
theorem oneReply_routed {sniffed : Sniffed} {e : Ends} (h : Agrees sniffed e)
    (hsniff : sniff hostname set env target e₀ = .ok (sniffed, e)) :
    OneReply (handleConnect hostname lower set env target port p e₀).2.client.log ↔
      ¬ (sniffed.replied = true ∧ decideRoute lower set target sniffed.named port = .proxy ∧
        (openTunneled env.opening target port p).1 = none ∧ e.client.room ≠ some 0) := by
  unfold handleConnect
  simp only [hsniff]
  cases hroute : decideRoute lower set target sniffed.named port with
  | block => exact iff_of_true (oneReply_refuse h repNotAllowed) (by simp)
  | direct => exact iff_of_true (oneReply_direct h) (by simp)
  | proxy =>
    cases hopen : openTunneled env.opening target port p with
    | mk conn p' =>
      cases conn with
      | some leftover => exact iff_of_true (oneReply_tunneled h leftover) (by simp)
      | none =>
        by_cases hreplied : sniffed.replied = true
        · rw [Agrees, if_pos hreplied] at h
          show OneReply (e.toClient .own (reply repGeneral) id).client.log ↔ _
          rw [oneReply_second h repGeneral]
          simp [hreplied]
        · rw [Agrees, if_neg hreplied] at h
          refine iff_of_true (oneReply_toClient h (.inr ⟨_, rfl⟩) passes_id) ?_
          simp [hreplied]

/-- Sniffing starts with the early reply; without room for it the handler ends there. -/
theorem sniff_early (hwants : wantsSniff set env target = true) {e : Ends}
    (hlog : e.client.log = []) :
    (∃ client, client.log = [(.own, replyBound unbound)] ∧
      (client.room = some 0 ↔ e.client.room = some 10) ∧
      (∀ n, e.client.room = some n → 10 ≤ n) ∧
      sniff hostname set env target e =
        match env.sniffHead with
        | none => .error { e with client }
        | some head =>
          .ok ({ replied := true, head, named := if head = [] then none else hostname head },
            { e with client })) ∨
    ∃ client n, OneReply client.log ∧ e.client.room = some n ∧ n < 10 ∧
      sniff hostname set env target e = .error { e with client } := by
  unfold sniff
  rw [if_pos hwants]
  obtain ⟨client, hwrite, hsent, hroom, hfits⟩ | ⟨client, n, hwrite, hone, hroom, hlt⟩ :=
    early_reply hlog
  · left
    refine ⟨client, hsent, hroom, hfits, ?_⟩
    rewrite [hwrite]
    rfl
  · right
    refine ⟨client, n, hone, hroom, hlt, ?_⟩
    rw [hwrite]

/-- With the early reply out and a head read, a late failure is one of the opening. -/
theorem lateFailure_iff {client : Sink Origin UInt8} {room : Option Nat} {head : Bytes}
    (hwants : wantsSniff set env target = true) (hhead : env.sniffHead = some head)
    (hroom : client.room = some 0 ↔ room = some 10) (hfits : ∀ n, room = some n → 10 ≤ n) :
    LateFailure hostname lower set env target port p room ↔
      decideRoute lower set target (if head = [] then none else hostname head) port = .proxy ∧
        (openTunneled env.opening target port p).1 = none ∧ client.room ≠ some 0 := by
  constructor
  · intro h
    obtain ⟨head', hhead', hroute⟩ := h.head
    rw [hhead] at hhead'
    obtain rfl := Option.some.inj hhead'
    refine ⟨hroute, h.opening, fun hfull => ?_⟩
    have hlt := h.room 10 (hroom.mp hfull)
    omega
  · intro h
    obtain ⟨hroute, hopen, hmore⟩ := h
    refine ⟨hwants, fun n hn => ?_, ⟨head, hhead, hroute⟩, hopen⟩
    have hten : n ≠ 10 := fun heq => hmore (hroom.mpr (by rw [← heq]; exact hn))
    have hle := hfits n hn
    omega

/-- **When a CONNECT gets one reply**: always but in a late failure. -/
theorem one_reply_iff (hostname : Bytes → Option Text) (lower : Text → Text) (set : RuleSet)
    (env : ConnectEnv) (target : Target) (port : Nat) (p : Process) (room : Option Nat)
    (remote : Sink Origin UInt8) :
    OneReply (handleConnect hostname lower set env target port p
        { client := { room, log := [] }, remote }).2.client.log ↔
      ¬ LateFailure hostname lower set env target port p room := by
  by_cases hwants : wantsSniff set env target = true
  · obtain ⟨client, hlog, hroom, hfits, hsniff⟩ | ⟨client, n, hone, hroom, hlt, hsniff⟩ :=
      @sniff_early hostname set env target hwants _
        (show ({ client := { room, log := [] }, remote } : Ends).client.log = [] from rfl)
    · cases hhead : env.sniffHead with
      | none =>
        simp only [hhead] at hsniff
        refine iff_of_true ?_ fun h => ?_
        · simp only [handleConnect, hsniff, hlog]
          exact oneReply_bound
        · obtain ⟨head, hsome, -⟩ := h.head
          rw [hhead] at hsome
          cases hsome
      | some head =>
        simp only [hhead] at hsniff
        rw [oneReply_routed (by exact hlog) hsniff, lateFailure_iff hwants hhead hroom hfits]
        simp only [true_and]
    · refine iff_of_true ?_ fun h => ?_
      · simp only [handleConnect, hsniff]
        exact hone
      · have hlarge := h.room n hroom
        omega
  · have hsniff : sniff hostname set env target { client := { room, log := [] }, remote } =
        .ok ({ replied := false, head := [], named := none },
          { client := { room, log := [] }, remote }) := by
      unfold sniff
      rw [if_neg hwants]
    rw [oneReply_routed (by rfl) hsniff]
    exact iff_of_true (by simp) fun h => hwants h.sniffs

end

/-- A client that asks for an address, with a rule on names set, the tunnel refusing to open. -/
def refusedOpening : ConnectEnv where
  sniffEnabled := true
  sniffHead := some []
  opening := { gateway := { opening := .failed, sent := false, answers := [], closes := true }
               dns := none, opens := false }
  dial := .failed
  later := []
  down := []

/-- It gets a success and then a failure. -/
theorem second_reply_written :
    (handleConnect (fun _ => none) id { block := [.domainFull ['x']], direct := [] } refusedOpening
        (.ip (.v4 0x0a000001)) 22 { proxy := none, healthy := true, trace := [] }
        .fresh).2.client.log =
      [(.own, replyBound unbound), (.own, reply repGeneral)] ∧
    ¬ OneReply (handleConnect (fun _ => none) id { block := [.domainFull ['x']], direct := [] }
        refusedOpening (.ip (.v4 0x0a000001)) 22 { proxy := none, healthy := true, trace := [] }
        .fresh).2.client.log := by
  have hlog : (handleConnect (fun _ => none) id { block := [.domainFull ['x']], direct := [] }
      refusedOpening (.ip (.v4 0x0a000001)) 22 { proxy := none, healthy := true, trace := [] }
      .fresh).2.client.log = [(.own, replyBound unbound), (.own, reply repGeneral)] := by
    decide
  refine ⟨hlog, ?_⟩
  rw [hlog]
  exact not_oneReply_two

end Aether.Socks
