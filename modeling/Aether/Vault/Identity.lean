/-
`IdentityVault`: the engine's identity files, sealed while the tunnel is down.

Every file operation is a step of its own, so a crash can come between any two of them; a
crash in the middle of a write leaves the file with a beginning of the data, as the write
truncates it first.  The names of the directory, the vector a seal draws, the noise of a shred
and the moment of a crash come from the environment and are part of the label of a step.
-/
import Aether.Net.Addr
import Aether.Lib.Machine
import Aether.Lib.Text

namespace Aether.Vault

/-! ### Names -/

def sealedSuffix : Text := ".sealed".toList

/-- The blob of a file. -/
def sealedName (name : Text) : Text := name ++ sealedSuffix

/-- The characters between `aether` and `.toml`. -/
def isNameChar (c : Char) : Bool := c.isAlphanum || c == '.' || c == '_' || c == '-'

/-- The text without this ending. -/
def stripEnd (ending t : Text) : Option Text :=
  (Text.strip ending.reverse t.reverse).map List.reverse

/-- `IDENTITY`: `^aether(?:[A-Za-z0-9._-]*)\.toml(?:\.corrupt)?$`. -/
def isIdentity (name : Text) : Bool :=
  match Text.strip "aether".toList name with
  | none => false
  | some rest =>
    (stripEnd ".toml".toList rest).any (fun mid => mid.all isNameChar) ||
      (stripEnd ".toml.corrupt".toList rest).any (fun mid => mid.all isNameChar)

/-! ### Files -/

/-- The directory: what each file holds. -/
abbrev Files := Text → Option Bytes

def Files.set (files : Files) (name : Text) (content : Option Bytes) : Files :=
  fun m => if m = name then content else files m

/-- What is done to a file: written, overwritten by a shred, deleted. -/
inductive Action
  | write (name : Text) (data : Bytes)
  | overwrite (name : Text) (noise : Bytes)
  | delete (name : Text)
deriving DecidableEq, Repr

def Action.name : Action → Text
  | .write name _ | .overwrite name _ | .delete name => name

/-- What a write puts into the file. -/
def Action.data? : Action → Option Bytes
  | .write _ data | .overwrite _ data => some data
  | .delete _ => none

def maxRecordBytes : Nat := 4 * 1024 * 1024

/-- `EncryptedLogFile.shred` of a file that holds `content`, with the bytes the generator gives. -/
def shred (name : Text) (content : Bytes) (noise : Nat → UInt8) : List Action :=
  if 1 ≤ content.length ∧ content.length ≤ maxRecordBytes then
    [.overwrite name ((List.range content.length).map noise), .delete name]
  else [.delete name]

/-! ### `KeyVault` -/

def ivLen : Nat := 12

/-- The cipher under the vault's key: whether there is a key, and what the two modes give. -/
structure Cipher where
  hasKey : Bool
  encrypt : (iv plain : Bytes) → Option Bytes
  decrypt : (iv body : Bytes) → Option Bytes

/-- `KeyVault.seal`, with the vector the cipher draws. -/
def Cipher.sealBytes (cipher : Cipher) (iv plain : Bytes) : Option Bytes :=
  if cipher.hasKey then (cipher.encrypt iv plain).map (iv ++ ·) else none

/-- `KeyVault.open`. -/
def Cipher.openBlob (cipher : Cipher) (blob : Bytes) : Option Bytes :=
  if blob.length ≤ ivLen then none
  else if cipher.hasKey then cipher.decrypt (blob.take ivLen) (blob.drop ivLen)
  else none

/-- The key is available, and what was sealed opens to what it was. -/
def Cipher.Available (cipher : Cipher) : Prop :=
  ∀ iv plain, iv.length = ivLen →
    ∃ blob, cipher.sealBytes iv plain = some blob ∧ cipher.openBlob blob = some plain

variable (cipher : Cipher)

/-- The body of the loop of `unsealInto`. -/
def unsealFile (files : Files) (noise : Nat → UInt8) (name : Text) : List Action :=
  -- a plaintext file that is there wins
  if (files name).isSome then []
  else
    match files (sealedName name) with
    | none => []
    | some blob =>
      match cipher.openBlob blob with
      | none => shred (sealedName name) blob noise
      | some plain => [.write name plain]

/-- The body of the loop of `sealAndShred`. -/
def sealFile (files : Files) (iv : Bytes) (noise : Nat → UInt8) (name : Text) : List Action :=
  match files name with
  | none => []
  | some plain =>
    match cipher.sealBytes iv plain with
    -- no key: the plaintext stays
    | none => []
    | some blob => .write (sealedName name) blob :: shred name plain noise

/-! ### The machine -/

/-- The call that is going on. -/
inductive Mode
  | idle | unsealing | sealing
deriving DecidableEq, Repr

/-- The files, whether the engine is running, the call that is going on with the names it still
has to look at, what is left to do for the present one, and the file a shred has overwritten
but not deleted yet. -/
structure State where
  files : Files
  running : Bool
  mode : Mode
  queue : List Text
  pending : List Action
  overwritten : Option Text

/-- The process has started and nothing is going on. -/
def State.restart (files : Files) : State :=
  { files, running := false, mode := .idle, queue := [], pending := [], overwritten := none }

def State.AtRest (s : State) : Prop := s.mode = .idle ∧ s.queue = [] ∧ s.pending = []

/-- An `unsealInto` has run to its end. -/
def State.Unsealed (s : State) : Prop := s.mode = .unsealing ∧ s.queue = [] ∧ s.pending = []

inductive Label
  /-- `unsealInto` and `sealAndShred` begin, with the names the directory gives. -/
  | unsealInto (listing : List Text)
  | sealAndShred (listing : List Text)
  /-- `sealIfIdle`, the sweep of a start. -/
  | sealIfIdle (listing : List Text)
  /-- The next name of the listing is taken up. -/
  | next (iv : Bytes) (noise : Nat → UInt8)
  /-- One file operation. -/
  | perform
  | finish
  /-- A crash between two operations, or in a write of which so many bytes were done. -/
  | crash (written : Option Nat)
  | markRunning (alive : Bool)
  /-- The engine writes or deletes a file. -/
  | engine (name : Text) (content : Option Bytes)

/-- A call begins. -/
def State.start (s : State) (mode : Mode) (listing : List Text) : Except String State :=
  if s.mode = .idle then .ok { s with mode, queue := listing } else .error "busy"

/-- One operation on the files. -/
def State.apply (s : State) (a : Action) (rest : List Action) : State :=
  { s with
    files := s.files.set a.name a.data?
    pending := rest
    overwritten := match a with | .overwrite name _ => some name | _ => none }

def step (s : State) : Label → Except String State
  | .unsealInto listing => s.start .unsealing listing
  | .sealAndShred listing => s.start .sealing listing
  | .sealIfIdle listing => if s.running then .ok s else s.start .sealing listing
  | .next iv noise =>
    match s.pending, s.queue, s.mode with
    | [], name :: queue, .unsealing =>
      .ok { s with queue, pending := unsealFile cipher s.files noise name }
    | [], name :: queue, .sealing =>
      .ok { s with queue, pending := sealFile cipher s.files iv noise name }
    | _, _, _ => .error "nothing to take up"
  | .perform =>
    match s.pending with
    | a :: rest => .ok (s.apply a rest)
    | [] => .error "nothing to do"
  | .finish =>
    if s.queue = [] ∧ s.pending = [] then .ok { s with mode := .idle } else .error "not done"
  | .crash none => .ok (State.restart s.files)
  | .crash (some written) =>
    -- the write has truncated the file before
    match s.pending with
    | a :: _ =>
      match a.data? with
      | some data => .ok (State.restart (s.files.set a.name (some (data.take written))))
      | none => .error "no write"
    | [] => .error "no write"
  | .markRunning alive => .ok { s with running := alive }
  | .engine name content =>
    if s.mode = .idle then .ok { s with files := s.files.set name content }
    else .error "busy"

/-- What comes from outside is true: a listing has the identity files that are there, a vector
has its length, and the engine does not write blobs. -/
def Valid (s : State) : Label → Prop
  | .unsealInto listing =>
    ∀ m, m ∈ listing ↔ isIdentity m = true ∧ (s.files (sealedName m)).isSome = true
  | .sealAndShred listing | .sealIfIdle listing =>
    ∀ m, m ∈ listing ↔ isIdentity m = true ∧ (s.files m).isSome = true
  | .next iv _ => iv.length = ivLen
  | .engine name _ => ∀ m, name ≠ sealedName m
  | _ => True

/-- The engine does not replace this file. -/
def Leaves (n : Text) : Label → Prop
  | .engine name _ => name ≠ n
  | _ => True

/-- A write that had put this many bytes had put them all. -/
def Action.Whole (written : Nat) : Action → Prop
  | .write _ data => data.length ≤ written
  | _ => False

/-- No crash tears this file: none comes between the overwriting and the deletion of a shred of
it, and none in a write to it of which not all was done. -/
def Spared (n : Text) (s : State) : Label → Prop
  | .crash written =>
    s.overwritten ≠ some n ∧
      ∀ k ∈ written, ∀ a ∈ s.pending.head?, a.name = n → a.Whole k
  | _ => True

example : isIdentity "aether-team-acme.toml".toList = true ∧
    isIdentity "aether.toml.corrupt".toList = true ∧
    isIdentity "aether.toml.sealed".toList = false ∧ isIdentity "hev.yaml".toList = false := by
  decide

end Aether.Vault
