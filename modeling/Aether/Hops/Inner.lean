/-
The inner hop of MASQUE in MASQUE, from `lib.rs`: how much its packets may carry.

Of the environment only the variable of the MTU is read; whether the tunnel runs over HTTP/2 is an
argument.
-/
import Aether.Engine.Cli

namespace Aether.Hops

open Engine (Environment)

def tunnelMtu : Nat := 1280

def h2TunnelMtu : Nat := 1500

/-- The sizes of QUIC datagrams, from `quic.rs`. -/
def maxDatagramSize : Nat := 1350

def minDatagramSize : Nat := 1200

def masqueDatagramOverhead : Nat := maxDatagramSize - tunnelMtu

def clamp (low high n : Nat) : Nat := max low (min n high)

def masqueTunnelMtu (env : Environment) (h2 : Bool) : Nat :=
  let set := (env "AETHER_MASQUE_MTU").bind fun value =>
    Text.parseUnsigned (2 ^ 64) (Text.trim value)
  match set.filter fun mtu => 576 ≤ mtu ∧ mtu ≤ 1500 with
  | some mtu => mtu
  | none => if h2 then h2TunnelMtu else tunnelMtu

/-- The IP and UDP headers in front of a datagram to this peer. -/
def headers : StdSocketAddr → Nat
  | .v4 .. => 28
  | .v6 .. => 48

/-- The datagrams of the inner tunnel, and its MTU. -/
def mimInnerBudget (outerMtu : Nat) (innerPeer : StdSocketAddr) (h2 : Bool) : Nat × Nat :=
  if h2 then (maxDatagramSize, clamp 576 1500 (outerMtu - 100))
  else
    let datagram := clamp minDatagramSize maxDatagramSize (outerMtu - headers innerPeer)
    (datagram, clamp 576 1500 (datagram - masqueDatagramOverhead))

end Aether.Hops
