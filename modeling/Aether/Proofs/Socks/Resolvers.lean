/-
Which resolvers the engine reads from a list.

An entry is read if it is the text of a socket address or of an address (`readResolver_iff`), and a
list of entries that are all read becomes the list of their addresses, each of them once
(`resolverAddresses_join`).
-/
import Aether.Proofs.Net.Grammar
import Aether.Socks.Resolvers

namespace Aether.Socks

open List

/-- The texts of resolvers. -/
inductive ResolverText : Text → StdSocketAddr → Prop
  | socket {t : Text} {addr : StdSocketAddr} (h : SocketText t addr) : ResolverText t addr
  | ip {t : Text} {ip : IpAddr} (h : IpText t ip) : ResolverText t (.new ip 53)

variable {addr : StdSocketAddr} {addrs : List StdSocketAddr} {es : List Text}

/-- No text is both. -/
theorem not_ipText_of_socketText {t : Text} {ip : IpAddr} (h : SocketText t addr)
    (hip : IpText t ip) : False := by
  cases h with
  | @v4 w d ip' port hw hd =>
    have hread : readIpv4Addr (w ++ ':' :: d) = some (ip', ':' :: d) :=
      readIpv4Addr_iff.mpr ⟨w, rfl, hw, noDigit_cons rfl d⟩
    cases hip with
    | v4 h4 =>
      have hread' := readIpv4Addr_iff.mpr ⟨_, (append_nil _).symm, h4, noDigit_nil 10⟩
      rw [hread] at hread'
      cases hread'
    | v6 h6 =>
      rw [h6.readIpv4Addr] at hread
      exact nomatch hread
  | v6 _ _ _ =>
    have hbracket : isAddrChar '[' = true := by
      cases hip with
      | v4 h4 => exact h4.chars _ mem_cons_self
      | v6 h6 => exact h6.chars _ mem_cons_self
    exact absurd hbracket (by decide)

theorem readResolver_iff {t : Text} : readResolver t = some addr ↔ ResolverText t addr := by
  unfold readResolver
  constructor
  · intro h
    cases hsocket : parseSocketAddr t with
    | some addr' =>
      rw [hsocket] at h
      cases h
      exact .socket (parseSocketAddr_iff.mp hsocket)
    | none =>
      rw [hsocket] at h
      obtain ⟨ip, hip, rfl⟩ := Option.map_eq_some_iff.mp h
      exact .ip (parseIpAddr_iff.mp hip)
  · intro h
    cases h with
    | socket h => rw [parseSocketAddr_iff.mpr h, Option.orElse_some]
    | ip h =>
      have hnone : parseSocketAddr t = none := by
        rw [Option.eq_none_iff_forall_ne_some]
        exact fun addr haddr => not_ipText_of_socketText (parseSocketAddr_iff.mp haddr) h
      rw [hnone, Option.orElse_none, parseIpAddr_iff.mpr h]
      rfl

/-! ### Lists -/

theorem eraseDups_concat {α : Type} [BEq α] [LawfulBEq α] (seen : List α) (addr : α) :
    (seen ++ [addr]).eraseDups =
      if seen.eraseDups.contains addr then seen.eraseDups else seen.eraseDups ++ [addr] := by
  rw [eraseDups_append]
  by_cases h : addr ∈ seen
  · have hseen : seen.eraseDups.contains addr = true :=
      contains_iff_mem.mpr (mem_eraseDups.mpr h)
    rw [if_pos hseen]
    simp [List.removeAll, h]
  · have hseen : ¬ seen.eraseDups.contains addr = true := fun hc =>
      h (mem_eraseDups.mp (contains_iff_mem.mp hc))
    rw [if_neg hseen]
    simp [List.removeAll, h, eraseDups_cons]

/-- Every entry adds its address to those before. -/
theorem foldl_addResolver
    (h : List.Forall₂ (fun e a => Text.trim e ≠ [] ∧ readResolver (Text.trim e) = some a) es addrs)
    (seen : List StdSocketAddr) :
    es.foldl addResolver seen.eraseDups = (seen ++ addrs).eraseDups := by
  induction h generalizing seen with
  | nil => rw [foldl_nil, append_nil]
  | @cons e a es addrs he _ ih =>
    have hadd : addResolver seen.eraseDups e = (seen ++ [a]).eraseDups := by
      unfold addResolver
      rw [if_neg he.1, he.2, eraseDups_concat]
    rw [foldl_cons, hadd, ih,
      append_assoc, singleton_append]

/-- **A list of entries that are all read becomes the list of their addresses.** -/
theorem resolverAddresses_join (hne : es ≠ [])
    (hwhole : ∀ e ∈ es, ∀ c ∈ e, (c == ',' || c == ' ' || c == ';') = false)
    (h : List.Forall₂ (fun e a => Text.trim e ≠ [] ∧ readResolver (Text.trim e) = some a) es
      addrs) :
    resolverAddresses (some ([','].intercalate es)) = addrs.eraseDups := by
  have hfold := foldl_addResolver h []
  rw [eraseDups_nil, nil_append] at hfold
  unfold resolverAddresses
  dsimp only
  rw [Option.getD_some, Pieces.splitOnP_intercalate (by decide) hne hwhole, hfold, if_neg]
  cases h with
  | nil => exact absurd rfl hne
  | cons _ _ =>
    rw [eraseDups_cons]
    exact cons_ne_nil _ _

end Aether.Socks
