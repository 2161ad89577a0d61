/-
Which bridges the engine takes, from `tor.rs`.

One variable holds a choice or a list of lines, and a file may hold more lines.  `to_lowercase` is
the parameter `lower`, and `read` is the file system.
-/
import Aether.Engine.Cli

namespace Aether.Engine

inductive Bridges
  | disabled
  | manual (lines : List Text)
  | auto (forced : Bool)
deriving DecidableEq, Repr

/-- `lines()`, but for the carriage returns: every line is trimmed. -/
def linesOf (t : Text) : List Text := t.splitOn '\n'

/-- `strip_prefix("Bridge ")` or `strip_prefix("bridge ")`. -/
def withoutKeyword (line : Text) : Text :=
  ((Text.strip "Bridge ".toList line).orElse fun _ => Text.strip "bridge ".toList line).getD line

def readBridgeLines (t : Text) : List Text :=
  ((((linesOf t).map Text.trim).filter fun line => line ≠ [] && line.head? ≠ some '#').map
    fun line => Text.trim (withoutKeyword line)).filter (· ≠ [])

section

variable (read : Text → Option Text) (lower : Text → Text) (env : Environment)

def bridgesFromFile : List Text :=
  match env "AETHER_TOR_BRIDGE_FILE" with
  | none => []
  | some value =>
    if Text.trim value = [] then []
    else
      match read (Text.trim value) with
      | none => []
      | some t => readBridgeLines t

/-- The words for no bridges. -/
def offWords : List Text :=
  ["off".toList, "no".toList, ['0'], "false".toList, "none".toList]

/-- The words for bridges of the engine's own. -/
def autoWords : List Text :=
  ["auto".toList, "on".toList, ['1'], "yes".toList, "true".toList, "force".toList]

/-- `replace(';', "\n")`. -/
def semicolonsToLines (t : Text) : Text := t.map fun c => if c = ';' then '\n' else c

def bridges : Bridges :=
  let fromFile := bridgesFromFile read env
  let trimmed := Text.trim ((env "AETHER_TOR_BRIDGES").getD [])
  let word := lower trimmed
  if fromFile ≠ [] then
    if word = [] || offWords.contains word || autoWords.contains word then .manual fromFile
    else .manual (fromFile ++ readBridgeLines (semicolonsToLines trimmed))
  else if word = [] then .auto false
  else if offWords.contains word then .disabled
  else if autoWords.contains word then .auto true
  else
    let lines := ((trimmed.splitOnP fun c => c == '\n' || c == ';').map Text.trim).filter (· ≠ [])
    if lines = [] then .auto false else .manual lines

end

end Aether.Engine
