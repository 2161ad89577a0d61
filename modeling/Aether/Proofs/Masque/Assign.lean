/-
Addresses the edge assigns, from the capsule to the interface.

`handle_cmd` merges an assigned address with the configured one of the other family and hands
both to smoltcp.  The configured ones were taken before, so whether it panics depends on the
assigned address alone, and no step on the way looks at it.
-/
import Aether.Netstack.Simple
import Aether.Proofs.Masque.Receive
import Aether.Proofs.Netstack.Cases

namespace Aether

open List

variable {σ υ : Type} {m : Smoltcp σ υ} {tun : Tuning} {env : OpenEnv} {s : NetStack σ υ}

/-- Every configured address is one that smoltcp takes. -/
def NetStack.Addressed (m : Smoltcp σ υ) (s : NetStack σ υ) : Prop :=
  ∀ c ∈ s.iface, m.takesAddr c.addr = true

/-- The current address of a family is a configured one. -/
theorem currentAddrs_mem (iface : List IpCidr) :
    (∀ a ∈ (currentAddrs iface).1, ∃ c ∈ iface, c.addr = .v4 a.1) ∧
      ∀ a ∈ (currentAddrs iface).2, ∃ c ∈ iface, c.addr = .v6 a.1 := by
  induction iface using List.reverseRecOn with
  | nil => exact ⟨nofun, nofun⟩
  | append_singleton iface c ih =>
    simp only [mem_append, mem_singleton]
    rw [currentAddrs, foldl_concat]
    -- the last address replaces the one of its family
    cases hc : c.addr with
    | v4 ip =>
      refine ⟨fun a ha => ⟨c, .inr rfl, ?_⟩, fun a ha => ?_⟩
      · cases ha
        exact hc
      · obtain ⟨c', hc', haddr⟩ := ih.2 a ha
        exact ⟨c', .inl hc', haddr⟩
    | v6 ip =>
      refine ⟨fun a ha => ?_, fun a ha => ⟨c, .inr rfl, ?_⟩⟩
      · obtain ⟨c', hc', haddr⟩ := ih.1 a ha
        exact ⟨c', .inl hc', haddr⟩
      · cases ha
        exact hc

/-- The addresses that `handle_cmd` installs for an assigned one. -/
def merged (iface : List IpCidr) (a : AssignedAddr) : List IpCidr :=
  match a.ip with
  | .v4 ip => ⟨.v4 ip, routablePrefixV4 a.prefixLen⟩ ::
      ((currentAddrs iface).2.map fun b => ⟨.v6 b.1, routablePrefixV6 b.2⟩).toList
  | .v6 ip => ((currentAddrs iface).1.map fun b => ⟨.v4 b.1, routablePrefixV4 b.2⟩).toList ++
      [⟨.v6 ip, routablePrefixV6 a.prefixLen⟩]

theorem handleCmd_setAddrs (s : NetStack σ υ) (a : AssignedAddr) :
    handleCmd m tun env s a.setAddrs =
      match (merged s.iface a).find? fun c => !m.takesAddr c.addr with
      | some c => .error (.badAddress c.addr)
      | none => .ok { s with iface := merged s.iface a } := by
  obtain ⟨ip, p⟩ := a
  cases ip with
  | v4 ip =>
    simp only [AssignedAddr.setAddrs, handleCmd, applyAddrs_eq, routable, merged, Option.some_or,
      Option.none_or, Option.map_some, Option.toList_some, singleton_append]
    generalize find? _ _ = found
    cases found <;> rfl
  | v6 ip =>
    simp only [AssignedAddr.setAddrs, handleCmd, applyAddrs_eq, routable, merged, Option.some_or,
      Option.none_or, Option.map_some, Option.toList_some]
    generalize find? _ _ = found
    cases found <;> rfl

variable {a : AssignedAddr}

/-- They are the assigned one and a configured one. -/
theorem mem_merged {iface : List IpCidr} {c : IpCidr} (h : c ∈ merged iface a) :
    c.addr = a.ip ∨ ∃ c' ∈ iface, c'.addr = c.addr := by
  obtain ⟨h4, h6⟩ := currentAddrs_mem iface
  obtain ⟨ip, p⟩ := a
  cases ip with
  | v4 ip =>
    obtain rfl | h := mem_cons.mp h
    · exact .inl rfl
    · obtain ⟨b, hb, rfl⟩ := Option.map_eq_some_iff.mp (Option.mem_toList.mp h)
      exact .inr (h6 b hb)
  | v6 ip =>
    obtain h | h := mem_append.mp h
    · obtain ⟨b, hb, rfl⟩ := Option.map_eq_some_iff.mp (Option.mem_toList.mp h)
      exact .inr (h4 b hb)
    · obtain rfl := mem_singleton.mp h
      exact .inl rfl

theorem merged_assigned (iface : List IpCidr) (a : AssignedAddr) :
    ∃ c ∈ merged iface a, c.addr = a.ip := by
  obtain ⟨ip, p⟩ := a
  cases ip with
  | v4 ip => exact ⟨_, mem_cons_self, rfl⟩
  | v6 ip => exact ⟨_, mem_append_right _ mem_cons_self, rfl⟩

/-- An address that smoltcp takes goes into the stack. -/
theorem handleCmd_taken (hs : s.Addressed m) (ha : m.takesAddr a.ip = true) :
    ∃ s', handleCmd m tun env s a.setAddrs = .ok s' ∧ s'.Addressed m := by
  have hall : ∀ c ∈ merged s.iface a, m.takesAddr c.addr = true := by
    intro c hc
    obtain hassigned | ⟨c', hc', haddr⟩ := mem_merged hc
    · rwa [hassigned]
    · exact haddr ▸ hs c' hc'
  have hnone : (merged s.iface a).find? (fun c => !m.takesAddr c.addr) = none := by
    rw [List.find?_eq_none]
    intro c hc
    simp [hall c hc]
  exact ⟨{ s with iface := merged s.iface a }, by rw [handleCmd_setAddrs, hnone], hall⟩

/-- One that it does not take ends the task. -/
theorem handleCmd_refused (tun : Tuning) (env : OpenEnv) (s : NetStack σ υ)
    (ha : m.takesAddr a.ip = false) : ∃ e, handleCmd m tun env s a.setAddrs = .error e := by
  obtain ⟨c, hc, haddr⟩ := merged_assigned s.iface a
  have hsome : ((merged s.iface a).find? fun c => !m.takesAddr c.addr).isSome = true :=
    List.find?_isSome.mpr ⟨c, hc, by rw [haddr, ha]; rfl⟩
  obtain ⟨c', hfind⟩ := Option.isSome_iff_exists.mp hsome
  exact ⟨.badAddress c'.addr, by rw [handleCmd_setAddrs, hfind]⟩

/-- What a capsule of assigned addresses puts on the channel. -/
theorem mem_drain_assigned {t : Target} {value e : Bytes}
    (he : WireCapsule.Fits t ⟨capsuleAddressAssign, value⟩ e) :
    a ∈ (drainCapsulesH3 t true (.having e)).sinks.assigned ↔
      ∃ addrs, parseAddressAssign value = .ok addrs ∧ ∃ b ∈ addrs, ∃ ip,
        bytesToIp b.ipVersion b.address = some ip ∧ ⟨ip, b.prefixLen⟩ = a := by
  have htake : takeCapsule t (Receiver.having e).parser.buf =
      some (⟨capsuleAddressAssign, value⟩, []) := by
    rw [← takeCapsule_whole [] he, append_nil]
    rfl
  rw [drainCapsulesH3, Receiver.drain, Receiver.drainLoop_of_some _ htake, ← decodeCapsule_eq]
  cases hparse : parseAddressAssign value with
  | error err =>
    have hmeans : decodeCapsule capsuleAddressAssign value = .error err := by
      rw [decodeCapsule, if_pos rfl, hparse]
      rfl
    rw [hmeans]
    constructor
    · intro hmem
      cases hmem
    · rintro ⟨addrs, hok, -⟩
      cases hok
  | ok addrs =>
    have hmeans : decodeCapsule capsuleAddressAssign value = .ok (.addressAssign addrs) := by
      rw [decodeCapsule, if_pos rfl, hparse]
      rfl
    have hgoes : ∀ sinks, (handleH3 true (.ok (.addressAssign addrs)) sinks).2 = true :=
      fun _ => rfl
    rw [hmeans, if_pos (hgoes _), Receiver.drainLoop_of_none _ (decodes_takeCapsule t).empty]
    simp only [Receiver.took, handleH3, Sinks.assign, Receiver.having, Sinks.empty, if_true,
      nil_append, mem_filterMap, Option.map_eq_some_iff, Except.ok.injEq,
      exists_eq_left']

/-- **The stack survives an assignment exactly when smoltcp takes every address in it.**  The
channel may drop some of the addresses; whatever it lets through goes into the stack. -/
theorem assignment_survived_iff (hm : m.TakesUnicast) (tun : Tuning) (env : OpenEnv)
    (hs : s.Addressed m) (t : Target) {value e : Bytes}
    (he : WireCapsule.Fits t ⟨capsuleAddressAssign, value⟩ e) :
    (∀ got, got.Sublist (drainCapsulesH3 t true (.having e)).sinks.assigned →
      ∃ s', bridge m tun env s got = .ok s') ↔
    ∀ addrs, parseAddressAssign value = .ok addrs → ∀ a ∈ addrs, ∀ ip,
      bytesToIp a.ipVersion a.address = some ip →
        ip.isUnicast = true ∨ ip.isUnspecified = true := by
  constructor
  · intro h addrs hparse a ha ip hip
    have hmem := (mem_drain_assigned he).mpr ⟨addrs, hparse, a, ha, ip, hip, rfl⟩
    by_contra hbad
    have hrefused : m.takesAddr ip = false := by
      rw [hm.takes]
      simpa using hbad
    obtain ⟨s', hs'⟩ := h [⟨ip, a.prefixLen⟩] (singleton_sublist.mpr hmem)
    obtain ⟨err, herr⟩ := handleCmd_refused tun env s (a := ⟨ip, a.prefixLen⟩) hrefused
    rw [bridge, foldlM_cons, herr] at hs'
    cases hs'
  · intro h got hgot
    have hall : ∀ a ∈ got, m.takesAddr a.ip = true := by
      intro a ha
      obtain ⟨addrs, hparse, b, hb, ip, hip, rfl⟩ := (mem_drain_assigned he).mp (hgot.subset ha)
      rw [hm.takes, Bool.or_eq_true]
      exact h addrs hparse b hb ip hip
    obtain ⟨s', hs', -⟩ := Machine.foldlM_succeeds (P := NetStack.Addressed m) hs
      fun a ha t ht => handleCmd_taken ht (hall a ha)
    exact ⟨s', hs'⟩

/-- The small TCP, with smoltcp's check of addresses. -/
def Simple.unicast : Smoltcp Simple.Socket Unit :=
  { Simple.tcp with takesAddr := fun a => a.isUnicast || a.isUnspecified }

/-- `10.0.0.2` with a prefix octet of 255, and `fd00::2` with one of 200. -/
theorem assignment_survived_host :
    ∃ s', bridge Simple.unicast Simple.tuning Simple.openEnv Solo.up.stack
      (drainCapsulesH3 .arm64V8a true
        (.having ([1, 26, 0, 4, 10, 0, 0, 2, 255, 1, 6, 0xfd] ++
          List.replicate 14 0 ++ [2, 200]))).sinks.assigned = .ok s' := by
  have hfits : WireCapsule.Fits .arm64V8a ⟨capsuleAddressAssign,
        [0, 4, 10, 0, 0, 2, 255, 1, 6, 0xfd] ++ List.replicate 14 0 ++ [2, 200]⟩
      ([1, 26, 0, 4, 10, 0, 0, 2, 255, 1, 6, 0xfd] ++ List.replicate 14 0 ++ [2, 200]) :=
    ⟨⟨[1], [26], ⟨0, by decide⟩, ⟨0, by decide⟩, rfl⟩, by decide⟩
  refine (assignment_survived_iff (m := Simple.unicast) ⟨fun _ => rfl⟩ Simple.tuning
    Simple.openEnv (s := Solo.up.stack) nofun .arm64V8a hfits).mpr ?_ _ (List.Sublist.refl _)
  intro addrs hparse a ha ip hip
  cases hparse
  simp only [mem_cons, not_mem_nil, or_false] at ha
  obtain rfl | rfl := ha
  · cases hip
    exact .inl (by decide)
  · cases hip
    exact .inl (by decide)

/-- `224.0.0.1/32`: the task of the stack dies. -/
theorem multicast_assigned :
    (drainCapsulesH3 .arm64V8a true (.having [1, 7, 0, 4, 224, 0, 0, 1, 32])).sinks.assigned =
      [⟨.v4 0xe0000001#32, 32⟩] ∧
    (bridge Simple.unicast Simple.tuning Simple.openEnv (Solo.up.stack)
      [⟨.v4 0xe0000001#32, 32⟩]).toOption.isNone = true := by
  exact ⟨by decide, by decide⟩

end Aether
