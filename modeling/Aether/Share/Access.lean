/-
Who gets through `ShareBridge`: the credential, the calls that install one, and the threads of
the connections that check what their clients send against it.

The user and the password are two flows, each one read and written on its own.  `setCredentials`
writes the user and then the password, the SOCKS share reads them in that order, and the HTTP
share the other way round.  Every read and every write is a step, so calls and connections
interleave at these points.  What a client sends is fixed when it is accepted; a connection
that breaks off has sent less.

Every pair the flows have held is kept for the statements, and for a connection that was served
the ones they held from its first read on.
-/
import Aether.Lib.Machine
import Aether.Share.Proxy
import Mathlib.Logic.Function.Basic

namespace Aether.Share

open Function

/-- `MAX_LIVE_CONNECTIONS`. -/
def maxLiveConnections : Int := 96

/-- `DEFAULT_USER`. -/
def defaultUser : Text := "aether".toList

/-- `PASSWORD_ALPHABET`. -/
def passwordAlphabet : Text := "abcdefghijkmnpqrstuvwxyzABCDEFGHJKLMNPQRSTUVWXYZ23456789".toList

/-- What `randomPassword` can return. -/
def isRandomPassword (t : Text) : Bool :=
  t.length == 16 && t.all passwordAlphabet.contains

/-! ### Clients -/

/-- The listener a client came to. -/
inductive Listener
  | socks
  | http
deriving DecidableEq, Repr

/-- A client, everything it sends, what the upstream answers if it is dialled, and how much is
relayed. -/
structure Client where
  listener : Listener
  inetAddress : Option IpAddr
  input : Bytes
  answers : Option Bytes
  relayed : Nat
deriving DecidableEq

/-- The handler of the listener, with the credential that was read. -/
def Client.serve (sha256 : Bytes → Bytes) (c : Client) (user password : Text) : Exchange :=
  let env : Env := { sha256, user, password, answers := c.answers, relayed := c.relayed }
  match c.listener with
  | .socks => serveSocksClient env c.inetAddress c.input
  | .http => serveHttpClient env c.inetAddress c.input

/-- How far the thread of a connection is. -/
inductive Progress
  | accepted
  /-- One of the flows was read, when the flows had held so many pairs before the current one. -/
  | half (first : Text) (since : Nat)
  | read (user password : Text) (since : Nat)
  | served (exchange : Exchange) (during : List (Text × Text)) (closed : Bool)

/-! ### The bridge -/

/-- A call of `setCredentials`, and whether its first write is behind it. -/
structure Install where
  user : Text
  password : Text
  halfway : Bool
deriving DecidableEq, Repr

structure Access where
  proxyUser : Text
  proxyPassword : Text
  liveConnections : Int
  installs : Nat → Option Install
  /-- A `startSync` found no password and is about to mint one. -/
  minting : Bool
  clients : Nat → Option (Client × Progress)
  /-- The pairs the flows have held, the current one last. -/
  held : List (Text × Text)

/-- The state of the object when the class is loaded. -/
def Access.initial : Access where
  proxyUser := defaultUser
  proxyPassword := []
  liveConnections := 0
  installs := fun _ => none
  minting := false
  clients := fun _ => none
  held := [(defaultUser, [])]

/-- The flows are given new values. -/
def Access.write (a : Access) (user password : Text) : Access :=
  { a with
    proxyUser := user
    proxyPassword := password
    held := a.held ++ [(user, password)] }

/-- `if (user.isNotBlank()) _proxyUser.value = user`. -/
def Access.writeUser (a : Access) (user : Text) : Access :=
  if Text.isBlank user then a else a.write user a.proxyPassword

/-- `if (password.isNotBlank()) _proxyPassword.value = password`. -/
def Access.writePassword (a : Access) (password : Text) : Access :=
  if Text.isBlank password then a else a.write a.proxyUser password

/-- `admit`. -/
def Access.admits (a : Access) (c : Client) : Bool :=
  LanGuard.isLocalNetworkAddress c.inetAddress && a.liveConnections < maxLiveConnections

inductive AccessLabel
  /-- `setCredentials` is called. -/
  | setCredentials (call : Nat) (user password : Text)
  | writeUser (call : Nat)
  /-- The call returns. -/
  | writePassword (call : Nat)
  /-- `startSync` opens a new session. -/
  | startSync (localOnly : Bool)
  | mint (password : Text)
  /-- A client is accepted, and served by a thread of its own or refused. -/
  | accept (id : Nat) (client : Client)
  | readFirst (id : Nat)
  | readSecond (id : Nat)
  /-- The rest of the handler. -/
  | serve (id : Nat)
  | close (id : Nat)

def Access.setProgress (a : Access) (id : Nat) (c : Client) (p : Progress) : Access :=
  { a with clients := update a.clients id (some (c, p)) }

/-- The flow a handler reads first. -/
def Access.firstFlow (a : Access) : Listener → Text
  | .socks => a.proxyUser
  | .http => a.proxyPassword

/-- The credential of a handler that has read one flow and now reads the other one. -/
def Access.pairWith (a : Access) (first : Text) : Listener → Text × Text
  | .socks => (first, a.proxyPassword)
  | .http => (a.proxyUser, first)

def accessStep (sha256 : Bytes → Bytes) (a : Access) : AccessLabel → Except String Access
  | .setCredentials call user password =>
    match a.installs call with
    | some _ => .error "begun"
    | none =>
      .ok { a with installs := update a.installs call (some ⟨user, password, false⟩) }
  | .writeUser call =>
    match a.installs call with
    | some ⟨user, password, false⟩ =>
      .ok { a.writeUser user with
        installs := update a.installs call (some ⟨user, password, true⟩) }
    | _ => .error "not there"
  | .writePassword call =>
    match a.installs call with
    | some ⟨_, password, true⟩ =>
      .ok { a.writePassword password with installs := update a.installs call none }
    | _ => .error "not there"
  | .startSync localOnly =>
    if a.minting then .error "synchronized"
    else
      .ok { a with
        liveConnections := 0
        minting := !localOnly && Text.isBlank a.proxyPassword }
  | .mint password =>
    if !a.minting || !isRandomPassword password then .error "not minted"
    else .ok { a.write a.proxyUser password with minting := false }
  | .accept id client =>
    match a.clients id with
    | some _ => .error "taken"
    | none =>
      if a.admits client then
        .ok { a.setProgress id client .accepted with
          liveConnections := a.liveConnections + 1 }
      else .ok a
  | .readFirst id =>
    match a.clients id with
    | some (c, .accepted) =>
      if LanGuard.isLoopback c.inetAddress then .error "needs no credential"
      else .ok (a.setProgress id c (.half (a.firstFlow c.listener) (a.held.length - 1)))
    | _ => .error "not there"
  | .readSecond id =>
    match a.clients id with
    | some (c, .half first since) =>
      let (user, password) := a.pairWith first c.listener
      .ok (a.setProgress id c (.read user password since))
    | _ => .error "not there"
  | .serve id =>
    match a.clients id with
    | some (c, .accepted) =>
      -- nothing is read for a client of this device
      if LanGuard.isLoopback c.inetAddress then
        .ok (a.setProgress id c (.served (c.serve sha256 [] []) [] false))
      else .error "nothing read"
    | some (c, .read user password since) =>
      .ok (a.setProgress id c
        (.served (c.serve sha256 user password) (a.held.drop since) false))
    | _ => .error "not there"
  | .close id =>
    match a.clients id with
    | some (c, .served exchange during false) =>
      .ok { a.setProgress id c (.served exchange during true) with
        liveConnections := a.liveConnections - 1 }
    | _ => .error "not there"

/-! ### What a client may do -/

/-- Loopback, link-local, RFC 1918, unique local and site-local addresses. -/
def localNets : List IpNet :=
  [.v4 0x7f000000 8, .v6 1 128, .v4 0xa9fe0000 16, .v6 0xfe800000000000000000000000000000 10,
    .v4 0x0a000000 8, .v4 0xac100000 12, .v4 0xc0a80000 16,
    .v6 0xfc000000000000000000000000000000 7, .v6 0xfec00000000000000000000000000000 10]

def loopbackNets : List IpNet := [.v4 0x7f000000 8, .v6 1 128]

/-- The addresses carriers share among their subscribers. -/
def sharedNet : IpNet := .v4 0x64400000 10

/-- The client has sent this user and this password. -/
def Client.Sent (c : Client) (user password : Text) : Prop :=
  match c.listener with
  | .socks =>
    -- greeting and subnegotiation of RFC 1929
    ∃ methods userBytes passwordBytes rest,
      c.input = [5, UInt8.ofNat methods.length] ++ methods ++
        [1, UInt8.ofNat userBytes.length] ++ userBytes ++
        [UInt8.ofNat passwordBytes.length] ++ passwordBytes ++ rest ∧
      methods.length < 256 ∧ userBytes.length < 256 ∧ passwordBytes.length < 256 ∧
      2 ∈ methods ∧
      user = Utf8.decodeLossy userBytes ∧ password = Utf8.decodeLossy passwordBytes
  | .http =>
    -- a line of the head
    ∃ header rest line, readHeaderBlock c.input = some (header, rest) ∧
      line ∈ lines (latin1 header) ∧
      LanGuard.startsWithIgnoreCase proxyAuthHeader line = true ∧
      LanGuard.parseBasicCredential (line.drop proxyAuthHeader.length) = some (user, password)

/-- The address is local, and a client that is not on this device has sent a user and a password
that were each in force at some time while they were checked. -/
structure Entitled (c : Client) (during : List (Text × Text)) : Prop where
  onLocalNet : ∃ ip, c.inetAddress = some ip ∧
    (∃ net ∈ localNets, net.contains (LanGuard.unwrapMapped ip) = true) ∧
    sharedNet.contains (LanGuard.unwrapMapped ip) = false
  authenticated : (∃ ip, c.inetAddress = some ip ∧
      ∃ net ∈ loopbackNets, net.contains (LanGuard.unwrapMapped ip) = true) ∨
    ∃ user password, c.Sent user password ∧
      user ∈ during.map Prod.fst ∧ Text.isBlank user = false ∧
      password ∈ during.map Prod.snd ∧ Text.isBlank password = false

/-- What the client has sent is one pair that was in force at some time while it was checked. -/
def Client.SentHeld (c : Client) (during : List (Text × Text)) : Prop :=
  ∃ pair ∈ during, Text.isBlank pair.2 = false ∧ c.Sent pair.1 pair.2

/-- The hash tells the two texts apart. -/
def Separates (sha256 : Bytes → Bytes) (a b : Text) : Prop :=
  sha256 (Utf8.encode a) = sha256 (Utf8.encode b) → Utf8.encode a = Utf8.encode b

/-- No collision decides a check. -/
def NoCollision (sha256 : Bytes → Bytes) (a : Access) : AccessLabel → Prop
  | .serve id => ∀ c user password since, a.clients id = some (c, .read user password since) →
      ∀ user' password', c.Sent user' password' →
        Separates sha256 user user' ∧ Separates sha256 password password'
  | _ => True

end Aether.Share
