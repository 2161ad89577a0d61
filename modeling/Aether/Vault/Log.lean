/-
The diagnostics log on disk: `EncryptedLogFile`, and how `DiagnosticsLog` uses it over the
sessions of the app.

A session begins with `init`, appends sealed records, and ends when the process dies.  A crash
in an append leaves a beginning of the bytes it was writing.  The panel in memory is left out:
what a session gets of the earlier ones is what `readLines` gives at its start.
-/
import Aether.Lib.Framing
import Aether.Lib.Utf8
import Aether.Vault.Identity

namespace Aether.DiagnosticsLog

open Vault (Cipher ivLen maxRecordBytes)

/-! ### `EncryptedLogFile` -/

/-- `AELOG1` and a line feed. -/
def magic : Bytes := [0x41, 0x45, 0x4c, 0x4f, 0x47, 0x31, 0x0a]

def looksSealed : Option Bytes → Bool
  | none => false
  | some file => magic.length ≤ file.length && file.take magic.length == magic

def lengthPrefix (value : Nat) : Bytes := beBytes 4 value

/-- The file is missing or empty. -/
def isFresh (file : Option Bytes) : Bool := (file.getD []).isEmpty

/-- The bytes of one record. -/
def record (blob : Bytes) : Bytes := lengthPrefix blob.length ++ blob

/-- What `appendChunk` writes behind the file, in this order; `none` is a missing key. -/
def appended (cipher : Cipher) (iv : Bytes) (file : Option Bytes) (text : Text) : Option Bytes :=
  (cipher.sealBytes iv (Utf8.encode text)).map fun blob =>
    (if isFresh file then magic else []) ++ record blob

/-- The body of the loop of `readLines`: a record, and the input after it.  The length is read
as a signed number. -/
def readRecord (cipher : Cipher) (input : Bytes) : Option (Text × Bytes) :=
  if input.length < 4 then none
  else
    let length := Int.bmod (beNat (input.take 4)) (2 ^ 32)
    if length ≤ 0 ∨ (maxRecordBytes : Int) < length then none
    else
      let rest := input.drop 4
      if rest.length < length.toNat then none
      else
        (cipher.openBlob (rest.take length.toNat)).map fun plain =>
          (Utf8.decodeLossy plain, rest.drop length.toNat)

/-- The texts of the records; each record is longer than its length field, so no more rounds
than bytes are needed. -/
def readRecords (cipher : Cipher) (input : Bytes) : List Text :=
  Framing.readAll (readRecord cipher) input.length input

def nonEmptyLines (text : Text) : List Text := (text.splitOn '\n').filter (· ≠ [])

def readLines (cipher : Cipher) (file : Option Bytes) : List Text :=
  if looksSealed file then
    (readRecords cipher ((file.getD []).drop magic.length)).flatMap nonEmptyLines
  else []

/-! ### Sessions -/

/-- The log and its rotation, and whether a session is going on.  The rest is kept for the
statements: the texts whose appends were completed, and whether the last crash left a part of
a record at the end of the file. -/
structure State where
  file : Option Bytes
  prev : Option Bytes
  live : Bool
  completed : List Text
  torn : Bool

/-- Nothing was ever logged. -/
def State.empty : State :=
  { file := none, prev := none, live := false, completed := [], torn := false }

/-- `init`: a sealed log is rotated, anything else is a log of an older version, which is
erased with its rotation. -/
def init (s : State) : State :=
  if isFresh s.file then { s with live := true }
  else if looksSealed s.file then { s with live := true, prev := s.file }
  else { s with live := true, file := none, prev := none }

inductive Label
  | init
  /-- `appendChunk`, with the vector the seal draws. -/
  | append (iv : Bytes) (text : Text)
  /-- The process dies between two appends. -/
  | crash
  /-- It dies in an append, of which so many bytes were written. -/
  | crashIn (iv : Bytes) (text : Text) (written : Nat)

def step (cipher : Cipher) (s : State) : Label → Except String State
  | .init => if s.live then .error "running" else .ok (DiagnosticsLog.init s)
  | .append iv text =>
    match s.live, appended cipher iv s.file text with
    | true, some bytes =>
      .ok { s with file := some (s.file.getD [] ++ bytes), completed := s.completed ++ [text] }
    | _, _ => .error "not written"
  | .crash => if s.live then .ok { s with live := false } else .error "not running"
  | .crashIn iv text written =>
    match s.live, appended cipher iv s.file text with
    | true, some bytes =>
      if written < bytes.length then
        .ok { s with
          file := some (s.file.getD [] ++ bytes.take written)
          live := false
          torn := s.torn || (if isFresh s.file then magic.length else 0) < written }
      else .error "complete"
    | _, _ => .error "not written"

/-! ### What is taken for granted -/

/-- The cipher puts a tag of 128 bits behind the text. -/
def Tagged (cipher : Cipher) : Prop :=
  ∀ iv plain body, cipher.encrypt iv plain = some body → body.length = plain.length + 16

/-- Only what was sealed opens. -/
def OnlySealed (cipher : Cipher) : Prop :=
  ∀ blob plain, cipher.openBlob blob = some plain →
    ∃ iv, iv.length = ivLen ∧ cipher.sealBytes iv plain = some blob

/-- The vector has its length, and the text is at most one MiB long. -/
def Valid : Label → Prop
  | .append iv text | .crashIn iv text _ =>
    iv.length = ivLen ∧ (Utf8.encode text).length ≤ 1024 * 1024
  | _ => True

/-- Nothing is written behind a part of a record. -/
def Mended (s : State) : Label → Prop
  | .append _ _ | .crashIn _ _ _ => s.torn = false
  | _ => True

end Aether.DiagnosticsLog
