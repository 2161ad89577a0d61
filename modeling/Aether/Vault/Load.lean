/-
`load` of `config.rs`: what the engine makes of the identity file it finds.

The bytes of the file are read as a text, the text as TOML and the values as keys; the last two
steps move the file aside when they fail.  The TOML reader and the Base64 decoder are parameters,
and so is whether a rename succeeds.
-/
import Aether.Vault.Config
import Aether.Lib.Utf8

namespace Aether.Vault

inductive AetherError
  | io (message : Text)
  | other (message : Text)
deriving DecidableEq, Repr

def AetherError.toText : AetherError → Text
  | .io message => "io: ".toList ++ message
  | .other message => "other: ".toList ++ message

structure PersistedIdentity where
  deviceId : Text
  accessToken : Text
  certPem : Text
  keyPem : Text
  certIssuedAt : UInt64
  ipv4 : Text
  ipv6 : Text
  wgPrivateKey : Text
  wgPeerPublicKey : Text
  clientId : Text
  organization : Text
  gatewayProxy : Text
  assignedEndpoint : Text

/-- The `Identity` of `account.rs`. -/
structure Account.Identity where
  deviceId : Text
  accessToken : Text
  certPem : Bytes
  keyPem : Bytes
  certIssuedAt : UInt64
  ipv4 : Text
  ipv6 : Text
  wgPrivateKey : Vector UInt8 32
  wgPeerPublicKey : Vector UInt8 32
  clientId : Vector UInt8 3
  organization : Text
  gatewayProxy : Text
  assignedEndpoint : Text
  refused : Bool

section

-- `toml::from_str`, and the decoder of `base64::engine::general_purpose::STANDARD`
variable (fromStr : Text → Except Text PersistedIdentity) (base64 : Text → Except Text Bytes)

def decodeFixed (n : Nat) (field value : Text) : Except AetherError (Vector UInt8 n) :=
  match base64 value with
  | .error e =>
    .error (.other ("config field ".toList ++ field ++ " is not valid base64: ".toList ++ e))
  | .ok decoded =>
    if h : decoded.length = n then .ok ⟨decoded.toArray, h⟩
    else
      .error (.other ("config field ".toList ++ field ++ " must decode to ".toList ++
        Nat.toDigits 10 n ++ " bytes, found ".toList ++ Nat.toDigits 10 decoded.length))

/-- `Identity::try_from`. -/
def Account.Identity.tryFrom (p : PersistedIdentity) : Except AetherError Account.Identity := do
  let wgPrivateKey ← decodeFixed base64 32 "wg_private_key".toList p.wgPrivateKey
  let wgPeerPublicKey ← decodeFixed base64 32 "wg_peer_public_key".toList p.wgPeerPublicKey
  let zeros := Vector.replicate 3 0
  let clientId := if p.clientId = [] then zeros
    else (decodeFixed base64 3 "client_id".toList p.clientId).toOption.getD zeros
  return { p with
    certPem := Utf8.encode p.certPem, keyPem := Utf8.encode p.keyPem
    wgPrivateKey, wgPeerPublicKey, clientId, refused := false }

def quarantine (renames : Bool) (files : Files) (path : Text) : Option Text × Files :=
  if renames then
    (some (quarantinePath path), FileOp.apply files (.rename path (quarantinePath path)))
  else (none, files)

/-- The end of `load` for a file that cannot be used. -/
def setAside (renames : Bool) (files : Files) (path reason : Text) :
    Except AetherError (Option Account.Identity) × Files :=
  match quarantine renames files path with
  | (some target, files) =>
    (.error (.other (reason ++ "; the damaged file was moved to ".toList ++ target ++
      " so a fresh identity can be provisioned".toList)), files)
  | (none, files) =>
    (.error (.other (reason ++ "; delete ".toList ++ path ++
      " to provision a fresh identity".toList)), files)

def load (renames : Bool) (files : Files) (path : Text) :
    Except AetherError (Option Account.Identity) × Files :=
  match files path with
  | none => (.ok none, files)
  | some content =>
    -- `read_to_string` fails on what is not UTF-8, and its error is passed on
    match Utf8.decode content with
    | none => (.error (.io "stream did not contain valid UTF-8".toList), files)
    | some text =>
      match fromStr text with
      | .error e => setAside renames files path ("config parse: ".toList ++ e)
      | .ok persisted =>
        match Account.Identity.tryFrom base64 persisted with
        | .ok identity => (.ok (some identity), files)
        | .error e => setAside renames files path e.toText

end

end Aether.Vault
