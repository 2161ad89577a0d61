/-
The resolvers used inside the tunnel: `resolver_addresses` of `socks.rs`.
-/
import Aether.Lib.Text
import Aether.Net.Addr

namespace Aether.Socks

/-- An entry is a socket address, or an address with the port 53. -/
def readResolver (entry : Text) : Option StdSocketAddr :=
  (parseSocketAddr entry).orElse fun _ => (parseIpAddr entry).map fun ip => .new ip 53

/-- One round of the loop. -/
def addResolver (servers : List StdSocketAddr) (token : Text) : List StdSocketAddr :=
  let entry := Text.trim token
  if entry = [] then servers
  else
    match readResolver entry with
    | none => servers
    | some server => if servers.contains server then servers else servers ++ [server]

/-- `1.1.1.1:53` and `1.0.0.1:53`. -/
def defaultResolvers : List StdSocketAddr := [.v4 0x01010101 53, .v4 0x01000001 53]

/-- `resolver_addresses`, with `AETHER_DNS`. -/
def resolverAddresses (configured : Option Text) : List StdSocketAddr :=
  let tokens := (configured.getD []).splitOnP fun c => c == ',' || c == ' ' || c == ';'
  let servers := tokens.foldl addResolver []
  if servers = [] then defaultResolvers else servers

end Aether.Socks
