/-
The commands of `AetherVpnService`: `onStartCommand`, and how the system delivers to it.

An instance of the service is started with intents.  If it dies and its last command returned
`START_STICKY`, the system makes a new one and gives it no intent.  The coroutines that the commands
launch show up here as changes of `lockdownTunActive`.
-/
import Aether.Profile.Codec

namespace Aether.Vpn

open Profile (encode decode Platform)

/-- What `onStartCommand` returns. -/
inductive StartMode
  | sticky | notSticky
deriving DecidableEq, Repr

structure Intent where
  /-- The action is `ACTION_DISCONNECT`. -/
  disconnect : Bool
  /-- `EXTRA_PROFILE`. -/
  profile : Option Text

/-- The secrets that do not travel in an intent. -/
structure SecretStore where
  accessSecret : Text
  accessToken : Text

/-- The fields of an instance that its commands read. -/
structure Instance where
  lastProfile : Option Profile.ConnectionProfile := none
  lockdownTunActive : Bool := false
deriving DecidableEq

/-- What a command does. -/
inductive Command
  | startTunnel (rawProfile : Profile.ConnectionProfile)
  | stopEverything
  | enterLockdown (profile : Profile.ConnectionProfile)

def hydrateSecrets (store : SecretStore) (profile : Profile.ConnectionProfile) :
    Profile.ConnectionProfile :=
  if profile.teamAuth = .off then profile
  else
    { profile with accessClientSecret := store.accessSecret, accessToken := store.accessToken }

variable (P : Platform) (store : SecretStore)

def onStartCommand (s : Instance) (intent : Option Intent) : Instance × Command × StartMode :=
  if intent.any (·.disconnect) then
    let command :=
      if s.lockdownTunActive then Command.stopEverything
      else
        match s.lastProfile with
        | some last => if last.strictKillSwitch then .enterLockdown last else .stopEverything
        | none => .stopEverything
    (s, command, .notSticky)
  else
    let profile := decode P (intent.bind (·.profile))
    ({ s with lastProfile := some (hydrateSecrets store profile) }, .startTunnel profile, .sticky)

/-! ### Deliveries -/

inductive Event
  /-- `AetherController.connect`. -/
  | connect (profile : Profile.ConnectionProfile)
  /-- `AetherController.disconnect`. -/
  | disconnect
  /-- The process has died, and a new instance gets no intent. -/
  | restart
  /-- A coroutine has set `lockdownTunActive`. -/
  | lockdown (active : Bool)
deriving DecidableEq

/-- A call of `startTunnel`, with the profiles of the connect intents up to it. -/
structure Start where
  profile : Profile.ConnectionProfile
  connects : List Profile.ConnectionProfile

structure History where
  service : Instance := {}
  returned : Option StartMode := none
  connects : List Profile.ConnectionProfile := []
  started : List Start := []

/-- An instance handles an intent. -/
def History.deliver (h : History) (service : Instance) (intent : Option Intent) : History :=
  let (service, command, mode) := onStartCommand P store service intent
  let started :=
    match command with
    | .startTunnel profile => h.started ++ [⟨profile, h.connects⟩]
    | _ => h.started
  { h with service := service, returned := some mode, started := started }

/-- A restart needs `START_STICKY`. -/
inductive NoRestart
  | mk

def History.step (h : History) : Event → Except NoRestart History
  | .connect profile =>
    .ok ({ h with connects := h.connects ++ [profile] }.deliver P store h.service
      (some ⟨false, some (encode profile)⟩))
  | .disconnect => .ok (h.deliver P store h.service (some ⟨true, none⟩))
  | .restart =>
    if h.returned = some .sticky then .ok (h.deliver P store {} none) else .error .mk
  | .lockdown active => .ok { h with service := { h.service with lockdownTunActive := active } }

end Aether.Vpn
