/-
The identity files as the engine writes them: `config.rs`, and the paths `lib.rs` gives it.

`write_private` fills a temporary file and renames it.  Each of its calls of the file system is one
operation.  An attempt to save may be completed, killed between two operations, or run into an
error, after which the temporary file is removed unless that fails too or the engine is killed
before it.
The engine runs in the directory of the vault, with the default configuration path, so a path is a
name in it.  `to_lowercase` is the parameter `lower`.
-/
import Aether.Vault.Identity

namespace Aether.Vault

/-! ### Paths -/

def defaultConfig : Text := "aether.toml".toList

/-- `trim_end_matches` of one character. -/
def trimEndMatches (c : Char) (t : Text) : Text := (t.reverse.dropWhile (· == c)).reverse

/-- `strip_prefix`, or the text as it is. -/
def stripped (pat t : Text) : Text := (Text.strip pat t).getD t

/-- A team that is given by its domain. -/
def withoutDomain (value : Text) : Text :=
  match stripEnd "cloudflareaccess.com".toList value with
  | some head => trimEndMatches '.' head
  | none => value

/-- `normalize_team`. -/
def normalizeTeam (lower : Text → Text) (raw : Text) : Option Text :=
  let value := lower (Text.trim raw)
  if value = [] then none
  else
    let value := stripped "http://".toList (stripped "https://".toList value)
    let value := withoutDomain ((trimEndMatches '/' value).takeWhile (· != '/'))
    if value = [] then none
    else if !value.all (fun c => c.isAlphanum || c == '-' || c == '_') then none
    else some value

/-- What stands behind the last slash or backslash. -/
def lastPart (path : Text) : Text :=
  (path.reverse.takeWhile fun c => c != '/' && c != '\\').reverse

/-- `derive_sibling_path`. -/
def deriveSiblingPath (base suffix : Text) : Text :=
  let dir := base.take (base.length - (lastPart base).length)
  match Text.rsplitOnce '.' (lastPart base) with
  | some (stem, ext) => dir ++ stem ++ '-' :: suffix ++ '.' :: ext
  | none => base ++ '-' :: suffix

/-- An identity of the engine: its protocol, the value of `AETHER_TEAM`, and whether it is the
second one of a nested tunnel. -/
structure Identity where
  masque : Bool
  team : Text
  secondary : Bool
deriving DecidableEq, Repr

section Paths

variable (lower : Text → Text)

def warpConfigPath (base team : Text) : Text :=
  match normalizeTeam lower team with
  | some team => deriveSiblingPath base ("team-".toList ++ team)
  | none => base

def masqueConfigPath (base team : Text) : Text :=
  match normalizeTeam lower team with
  | some team => deriveSiblingPath base ("team-".toList ++ team)
  | none => deriveSiblingPath base "masque".toList

def Identity.path (i : Identity) : Text :=
  let primary := if i.masque then masqueConfigPath lower defaultConfig i.team
    else warpConfigPath lower defaultConfig i.team
  if i.secondary then deriveSiblingPath primary "secondary".toList else primary

end Paths

/-! ### Files -/

/-- `quarantine_path`. -/
def quarantinePath (path : Text) : Text := path ++ ".corrupt".toList

/-- The temporary file of `write_private`, in the process `pid`. -/
def temporary (path : Text) (pid : Nat) : Text :=
  '.' :: path ++ '.' :: Nat.toDigits 10 pid ++ ".tmp".toList

inductive FileOp
  | create (name : Text)
  | write (name : Text) (data : Bytes)
  | sync (name : Text)
  | setPermissions (name : Text)
  | rename (source target : Text)
  | remove (name : Text)
deriving DecidableEq, Repr

def FileOp.apply (files : Files) : FileOp → Files
  | .create name => files.set name (some [])
  | .write name data => files.set name (some data)
  | .sync _ | .setPermissions _ => files
  | .rename source target =>
    match files source with
    | some content => (files.set target (some content)).set source none
    | none => files
  | .remove name => files.set name none

/-- `write_private`, where nothing goes wrong. -/
def writePrivate (path : Text) (pid : Nat) (contents : Bytes) : List FileOp :=
  [.create (temporary path pid), .write (temporary path pid) contents, .sync (temporary path pid),
    .setPermissions (temporary path pid), .rename (temporary path pid) path]

/-- What becomes of an attempt to save. -/
inductive Fate
  | completed
  /-- The engine is killed when so many operations are done. -/
  | killed (done : Fin 5)
  /-- So many operations are done and the next one fails; a write that fails has put `written`
  bytes.  Then the temporary file is removed or stays. -/
  | failed (done : Fin 5) (written : Nat) (removed : Bool)
deriving DecidableEq, Repr

/-- What an operation that fails has done. -/
def FileOp.failing (written : Nat) : FileOp → List FileOp
  | .write name data => [.write name (data.take written)]
  | _ => []

/-- The operations of an attempt that take effect. -/
def attempt (path : Text) (pid : Nat) (contents : Bytes) : Fate → List FileOp
  | .completed => writePrivate path pid contents
  | .killed done => (writePrivate path pid contents).take done
  | .failed done written removed =>
    (writePrivate path pid contents).take done ++
      ((writePrivate path pid contents)[done]?.toList.flatMap (FileOp.failing written)) ++
      (if removed then [.remove (temporary path pid)] else [])

inductive Event
  /-- `save`, of the encoded identity. -/
  | save (i : Identity) (pid : Nat) (contents : Bytes) (fate : Fate)
  /-- `load`; a file that cannot be read as an identity is moved away, if that succeeds. -/
  | load (i : Identity) (damaged moved : Bool)
deriving DecidableEq, Repr

def Event.ops (lower : Text → Text) : Event → List FileOp
  | .save i pid contents fate => attempt (i.path lower) pid contents fate
  | .load i damaged moved =>
    if damaged && moved then [.rename (i.path lower) (quarantinePath (i.path lower))] else []

/-- The files after a history of the engine. -/
def after (lower : Text → Text) (files : Files) (history : List Event) : Files :=
  (history.flatMap (Event.ops lower)).foldl FileOp.apply files

/-! ### The sweep -/

/-- A file that `sealAndShred` takes up, with what is drawn for it. -/
structure Visit where
  name : Text
  iv : Bytes
  noise : Nat → UInt8

def Files.perform (files : Files) (a : Action) : Files := files.set a.name a.data?

/-- `sealAndShred` from its beginning to its end. -/
def sealAndShred (cipher : Cipher) (files : Files) (visits : List Visit) : Files :=
  visits.foldl (fun files v =>
    (sealFile cipher files v.iv v.noise v.name).foldl Files.perform files) files

/-- The identity files that are there, in some order. -/
def Lists (files : Files) (visits : List Visit) : Prop :=
  (∀ v ∈ visits, v.iv.length = ivLen) ∧
    ∀ m, m ∈ visits.map Visit.name ↔ isIdentity m = true ∧ (files m).isSome = true

/-! ### Keys -/

section Keys

-- the private keys, as they are written into a file
variable (keys : Bytes → Prop)

/-- One of the keys can be read in the content. -/
def Exposes (content : Bytes) : Prop := ∃ key, keys key ∧ key <:+: content

/-- What is sealed shows no key. -/
def Cipher.Hides (cipher : Cipher) : Prop :=
  ∀ iv plain blob, iv.length = ivLen → cipher.sealBytes iv plain = some blob → ¬ Exposes keys blob

/-- A directory: a finite number of files, and only identity files show a key. -/
structure Tidy (files : Files) : Prop where
  finite : ∃ names : List Text, ∀ m, (files m).isSome = true → m ∈ names
  hidden : ∀ m content, files m = some content → Exposes keys content → isIdentity m = true

/-- The temporary file of the attempt stays behind and shows a key: the engine was killed when the
file was written and not renamed yet, or an error came then and the file was not removed. -/
def Fate.Strands (contents : Bytes) : Fate → Prop
  | .completed => False
  | .killed done => 2 ≤ done.val ∧ Exposes keys contents
  | .failed done written removed =>
    removed = false ∧
      (done.val = 1 ∧ Exposes keys (contents.take written) ∨ 2 ≤ done.val ∧ Exposes keys contents)

end Keys

/-- The attempt came to its temporary file. -/
def Fate.Touches : Fate → Prop
  | .completed => True
  | .killed done => 1 ≤ done.val
  | .failed done _ removed => 1 ≤ done.val ∨ removed = true

def Event.Strands (lower : Text → Text) (keys : Bytes → Prop) (name : Text) : Event → Prop
  | .save i pid contents fate => temporary (i.path lower) pid = name ∧ fate.Strands keys contents
  | .load _ _ _ => False

def Event.Touches (lower : Text → Text) (name : Text) : Event → Prop
  | .save i pid _ fate => temporary (i.path lower) pid = name ∧ fate.Touches
  | .load _ _ _ => False

/-- A temporary file was left behind with a key, and no later attempt came to it. -/
def Leftover (lower : Text → Text) (keys : Bytes → Prop) (history : List Event) (name : Text) :
    Prop :=
  ∃ front e rest, history = front ++ e :: rest ∧ e.Strands lower keys name ∧
    ∀ later ∈ rest, ¬ later.Touches lower name

example : deriveSiblingPath "aether.toml".toList "masque".toList = "aether-masque.toml".toList ∧
    deriveSiblingPath "/var/lib/aether/aether.toml".toList "team-acme".toList =
      "/var/lib/aether/aether-team-acme.toml".toList := by
  decide

end Aether.Vault
