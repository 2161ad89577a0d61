import Aether.Proofs.Netstack.Ports
import Aether.Proofs.Netstack.Uplink
import Aether.Proofs.Netstack.Download
import Aether.Proofs.Netstack.Admission
import Aether.Proofs.Netstack.Backlog
import Aether.Proofs.Routing.Rules
import Aether.Proofs.Upstream.Detour
import Aether.Proofs.Socks.Http
import Aether.Proofs.Socks.Gateway
import Aether.Proofs.Socks.Associate
import Aether.Proofs.Socks.Heads
import Aether.Proofs.Api.Front
import Aether.Proofs.Dns.Query
import Aether.Proofs.Vault.Log
import Aether.Proofs.Share.Session
import Aether.Proofs.Share.Scope
import Aether.Proofs.Share.Heads
import Aether.Proofs.Share.Destination
import Aether.Proofs.Share.Access
import Aether.Proofs.Share.Connections
import Aether.Proofs.Tun.Session
import Aether.Proofs.Tun.Downlink
import Aether.Proofs.Tun.Worker
import Aether.Proofs.Vpn.Service
import Aether.Proofs.Vpn.Supervisor
import Aether.Proofs.Ai.Credential
import Aether.Proofs.Ai.Digest
import Aether.Proofs.Profile.Transport
import Aether.Proofs.Profile.Separation
import Aether.Proofs.Vpn.Interface
import Aether.Proofs.Vpn.Commands
import Aether.Proofs.Vpn.Coroutines
import Aether.Proofs.Profile.Bridges
import Aether.Proofs.Profile.Resolvers
import Aether.Proofs.Profile.Rules
import Aether.Proofs.Profile.Upstream
import Aether.Proofs.Ai.Patch
import Aether.Proofs.Scan.Candidates
import Aether.Proofs.Team.Token
import Aether.Proofs.Vault.Config
import Aether.Proofs.Vault.Lastconn
import Aether.Proofs.Vault.Load
import Aether.Proofs.Exit.Location
import Aether.Proofs.Psiphon.Front
import Aether.Proofs.Relay.Pumps
import Aether.Proofs.Psiphon.Udpgw
import Aether.Proofs.Psiphon.Health
import Aether.Proofs.Tor.Front
import Aether.Proofs.Netstack.Device
import Aether.Proofs.Masque.Assign
import Aether.Proofs.Hops.Inner
