/-
Whether the inner tunnel fits the outer one.

A clamp from above keeps what the subtraction before it established.  A clamp from below breaks it
as soon as it raises the value: below the smallest QUIC datagram with its headers, and for HTTP/2 at
the smallest MTU.
-/
import Aether.Hops.Inner

namespace Aether.Hops

/-- The inner tunnel fits: over QUIC its datagrams with their headers go into a packet of the outer
tunnel and its packets into the datagrams, over HTTP/2 its packets are smaller. -/
def Fits (outer : Nat) (peer : StdSocketAddr) (h2 : Bool) : Prop :=
  let (datagram, mtu) := mimInnerBudget outer peer h2
  if h2 then mtu < outer
  else datagram + headers peer ≤ outer ∧ mtu + masqueDatagramOverhead ≤ datagram

theorem masqueTunnelMtu_range (env : Engine.Environment) (h2 : Bool) :
    576 ≤ masqueTunnelMtu env h2 ∧ masqueTunnelMtu env h2 ≤ 1500 := by
  unfold masqueTunnelMtu
  dsimp only
  split
  · next mtu hset => exact of_decide_eq_true (Option.filter_eq_some_iff.mp hset).2
  · cases h2 with
    | true => decide
    | false => decide

/-- **When the inner tunnel fits the outer one**, whose MTU is set or is the default one. -/
theorem inner_fits_iff (env : Engine.Environment) (enabled : Bool) (peer : StdSocketAddr)
    (h2 : Bool) :
    Fits (masqueTunnelMtu env enabled) peer h2 ↔
      if h2 then masqueTunnelMtu env enabled ≠ 576
      else minDatagramSize + headers peer ≤ masqueTunnelMtu env enabled := by
  obtain ⟨hlow, hhigh⟩ := masqueTunnelMtu_range env enabled
  unfold Fits mimInnerBudget clamp masqueDatagramOverhead maxDatagramSize minDatagramSize tunnelMtu
  cases h2 with
  | true =>
    simp only [if_true]
    omega
  | false =>
    simp only [Bool.false_eq_true, if_false]
    omega

/-- With the smallest MTU that is admitted, a datagram of the inner tunnel is larger than a packet
of the outer one, and over HTTP/2 both tunnels have the same MTU. -/
theorem small_mtu_overrun :
    let env : Engine.Environment := fun name =>
      if name = "AETHER_MASQUE_MTU" then some "576".toList else none
    let peer : StdSocketAddr := .v4 0xa29fc001 443
    masqueTunnelMtu env false = 576 ∧ mimInnerBudget 576 peer false = (1200, 1130) ∧
      ¬ Fits (masqueTunnelMtu env false) peer false ∧
      mimInnerBudget 576 peer true = (1350, 576) ∧ ¬ Fits (masqueTunnelMtu env true) peer true := by
  have hset : ∀ h2, masqueTunnelMtu
      (fun name => if name = "AETHER_MASQUE_MTU" then some "576".toList else none) h2 = 576 :=
    fun h2 => rfl
  unfold Fits
  decide

end Aether.Hops
