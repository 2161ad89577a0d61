/-
The enrolment token of a Zero Trust team: `TOKEN_CACHE` of `zerotrust.rs` and the calls that read
and write it, with those of `api.rs` on top of them.

The cache is one for the process, and its lock is held through a whole call, so a call is one
step.  What the sign-in pages answer and what the clock says are arguments of the step.  The parts
of a token are Base64, and its payload is JSON: the readers of both are the fields of `Libraries`.

The state keeps, beside the cache, what was signed in for and what was returned, and the team of the
call that filled the cache.
-/
import Aether.Lib.Machine
import Aether.Lib.Text
import Aether.Lib.Utf8
import Aether.Net.Addr

namespace Aether.Team

structure TeamSettings where
  team : Text
  clientId : Option Text
  clientSecret : Option Text
  token : Option Text
  email : Option Text
deriving DecidableEq, Repr

def TeamSettings.hasServiceToken (s : TeamSettings) : Bool :=
  s.clientId.isSome && s.clientSecret.isSome

def teamDomain (team : Text) : Text :=
  "https://".toList ++ team ++ ".cloudflareaccess.com".toList

def TeamSettings.loginUrl (s : TeamSettings) : Text := teamDomain s.team ++ "/warp".toList

/-! ### Tokens -/

/-- What a token is read with. -/
structure Libraries where
  /-- `URL_SAFE_NO_PAD.decode` of `base64`. -/
  decode : Text → Option Bytes
  /-- The expiry in a payload, as `serde_json` reads it. -/
  exp : Bytes → Option Nat

variable (L : Libraries)

def isTokenChar (c : Char) : Bool := c.isAlphanum || c == '.' || c == '-' || c == '_'

def looksLikeJwt (token : Text) : Bool :=
  let token := Text.trim token
  if (Utf8.encode token).length < 32 then false
  else
    match token.splitOn '.' with
    | [first, second, third] =>
      if first.isEmpty || second.isEmpty || third.isEmpty then false
      else if !token.all isTokenChar then false
      else (L.decode first).isSome
    | _ => false

def jwtExpiry (token : Text) : Option Nat :=
  match token.splitOn '.' with
  | [_, second, _] => (L.decode second).bind L.exp
  | _ => none

def jwtExpired (token : Text) (now : Nat) : Bool :=
  match jwtExpiry L token with
  | some expiry => expiry ≤ now
  | none => false

/-- The characters that end a token on the enrolment page. -/
def endsToken (c : Char) : Bool :=
  c == '"' || c == '\'' || c == '&' || c == '<' || Text.isWhitespace c

def extractJwtFromHtml (html : Text) : Option Text := do
  let (_, rest) ← Text.splitOnce "token=".toList html
  let candidate := Text.trim (rest.takeWhile fun c => !endsToken c)
  if looksLikeJwt L candidate then some candidate else none

/-! ### The cache -/

inductive Event
  /-- `sign_in` or `submit_code` obtained the token for the team. -/
  | signedIn (team token : Text)
  /-- `resolve_token` returned the token. -/
  | resolved (settings : TeamSettings) (token : Text)
deriving DecidableEq, Repr

structure Session where
  cache : Option Text
  log : List Event
  /-- The team of the call that filled the cache. -/
  holder : Option Text
deriving DecidableEq, Repr

def Session.initial : Session := ⟨none, [], none⟩

/-- `sign_in`, where `answer` is what the pages of the team answer. -/
def signIn (settings : TeamSettings) (now : Nat) (answer : Except Text Text) : Except Text Text :=
  match settings.token with
  | some token =>
    if !looksLikeJwt L token then
      .error ("the supplied access token is not a jwt; copy the value that follows token= " ++
        "on the enrolment page").toList
    else if jwtExpired L token now then
      .error "the supplied access token has expired; sign in again to get a fresh one".toList
    else .ok token
  | none =>
    if settings.hasServiceToken || settings.email.isSome then answer
    else
      .error ("team ".toList ++ settings.team ++
        (" needs a way to sign in. pick one: a service token via AETHER_ACCESS_CLIENT_ID and " ++
          "AETHER_ACCESS_CLIENT_SECRET, an email one-time code via AETHER_ACCESS_EMAIL, or a " ++
          "token you already hold via AETHER_ACCESS_TOKEN (sign in at ").toList ++
        settings.loginUrl ++ [')'])

/-- The part of `resolve_token` behind the cache. -/
def Session.enrol (s : Session) (settings : TeamSettings) (now : Nat) (answer : Except Text Text) :
    Except Text Text × Session :=
  match signIn L settings now answer with
  | .error e => (.error e, { s with cache := none, holder := none })
  | .ok token =>
    (.ok token,
      { cache := some token
        log := s.log ++ [.signedIn settings.team token, .resolved settings token]
        holder := some settings.team })

/-- `resolve_token`. -/
def Session.resolveToken (s : Session) (settings : TeamSettings) (now later : Nat)
    (answer : Except Text Text) : Except Text Text × Session :=
  match s.cache with
  | some cached =>
    if !jwtExpired L cached now then
      (.ok cached, { s with log := s.log ++ [.resolved settings cached] })
    else s.enrol L settings later answer
  | none => s.enrol L settings later answer

/-- `store_token`. -/
def Session.storeToken (s : Session) (holder : Option Text) (token : Text) (now : Nat) :
    Except Text Unit × Session :=
  let token := Text.trim token
  if !looksLikeJwt L token then
    (.error ("that value is not a jwt; copy the value that follows token= on the enrolment " ++
      "page").toList, s)
  else if jwtExpired L token now then
    (.error "that token has already expired; sign in again to get a fresh one".toList, s)
  else (.ok (), { s with cache := some token, holder })

/-- `cached_token`. -/
def Session.cachedToken (s : Session) (now : Nat) : Option Text :=
  s.cache.filter fun token => !jwtExpired L token now

/-- `clear_token`. -/
def Session.clearToken (s : Session) : Session := { s with cache := none, holder := none }

/-- `team_email_code_submit`, for an email sign-in to `team` whose callback page is `body`. -/
def Session.teamEmailCodeSubmit (s : Session) (team body : Text) (now : Nat) :
    Except Text (Option Text) × Session :=
  match extractJwtFromHtml L body with
  | none => (.ok none, s)
  | some token =>
    let s := { s with log := s.log ++ [Event.signedIn team token] }
    match s.storeToken L (some team) token now with
    | (.error e, s) => (.error e, s)
    | (.ok (), s) => (.ok (some token), s)

inductive Label
  | resolveToken (settings : TeamSettings) (now later : Nat) (answer : Except Text Text)
  | storeToken (token : Text) (now : Nat)
  | cachedToken (now : Nat)
  | clearToken
  | teamEmailCodeSubmit (team body : Text) (now : Nat)

def step (s : Session) : Label → Except Text Session
  | .resolveToken settings now later answer => .ok (s.resolveToken L settings now later answer).2
  | .storeToken token now => .ok (s.storeToken L none token now).2
  | .cachedToken _ => .ok s
  | .clearToken => .ok s.clearToken
  | .teamEmailCodeSubmit team body now => .ok (s.teamEmailCodeSubmit L team body now).2

/-- A call that finds a token in the cache which has not expired brings that token itself, or is
for the team of the call that filled the cache. -/
def Separate (s : Session) : Label → Prop
  | .resolveToken settings now _ _ =>
    ∀ cached, s.cache = some cached → jwtExpired L cached now = false →
      settings.token = some cached ∨ s.holder = some settings.team
  | _ => True

/-- The token was signed in for the team, or returned for it, as the log says. -/
def Belongs (log : List Event) (team token : Text) : Prop :=
  .signedIn team token ∈ log ∨ ∃ settings : TeamSettings, settings.team = team ∧
    .resolved settings token ∈ log

/-- Whatever was returned was supplied, or belonged to the team before it was returned. -/
def Confined (log : List Event) : Prop :=
  ∀ front settings token rest, log = front ++ .resolved settings token :: rest →
    settings.token = some token ∨ Belongs front settings.team token

end Aether.Team
