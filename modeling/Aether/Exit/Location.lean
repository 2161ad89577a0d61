/-
`exitloc.rs`: where the exit of a tunnel is, and whether the policy allows it.

The trace server answers with lines such as `loc=DE`.  `read_trace` looks at what has arrived after
every chunk and stops at a location, so what it looks at may end in the middle of a line.  The
chunks the connection gives before it ends are an argument.
-/
import Aether.Lib.Text
import Aether.Lib.Utf8
import Aether.Net.Addr

namespace Aether.ExitLoc

/-- `to_ascii_uppercase`. -/
def upper (t : Text) : Text := t.map Char.toUpper

/-- `str::len`. -/
def byteLength (t : Text) : Nat := (Utf8.encode t).length

/-! ### Policies -/

structure Policy where
  allow : List Text
  deny : List Text
deriving DecidableEq, Repr

def isCode (c : Text) : Bool := byteLength c == 2 && c.all Char.isAlpha

def Policy.parse (raw : Text) : Option Policy :=
  let spec := Text.trim raw
  if spec.isEmpty || Text.eqIgnoreAsciiCase spec "any".toList ||
      Text.eqIgnoreAsciiCase spec "off".toList then none
  else
    let negated := spec.head? == some '!'
    let body := ((spec.dropWhile (· == '!')).dropWhile (· == '=')).dropWhile (· == '!')
    let codes := ((body.splitOn ',').map fun c => upper (Text.trim c)).filter isCode
    if codes.isEmpty then none
    else if negated then some ⟨[], codes⟩
    else some ⟨codes, []⟩

def Policy.accepts (p : Policy) (loc : Text) : Bool :=
  let code := upper (Text.trim loc)
  if p.deny.contains code then false
  else p.allow.isEmpty || p.allow.contains code

/-! ### The answer -/

def stripCr (line : Text) : Text := if line.getLast? = some '\r' then line.dropLast else line

def linesFrom (line : Text) : Text → List Text
  | [] => if line = [] then [] else [line]
  | c :: t => if c = '\n' then stripCr line :: linesFrom [] t else linesFrom (line ++ [c]) t

/-- `str::lines`. -/
def lines (body : Text) : List Text := linesFrom [] body

def field (body name : Text) : Option Text :=
  (((lines body).findSome? (Text.strip (name ++ ['=']))).map Text.trim).filter (!·.isEmpty)

def parseTrace (body : Text) : Option Text :=
  ((field body "loc".toList).map upper).filter fun code => byteLength code == 2

/-- `Exit`, without the time it took. -/
structure Exit where
  address : Option Text
  country : Option Text
  colo : Option Text
  warp : Bool
deriving DecidableEq, Repr

def parseExit (body : Text) : Exit where
  address := field body "ip".toList
  country := parseTrace body
  colo := field body "colo".toList
  warp := field body "warp".toList == some "on".toList

/-- The loop of `read_trace`: what it has received when it stops, and the chunks it leaves. -/
def receive (buf : Bytes) : List Bytes → Bytes × List Bytes
  | [] => (buf, [])
  | chunk :: rest =>
    if (buf ++ chunk).length > 8192 || (parseTrace (Utf8.decodeLossy (buf ++ chunk))).isSome then
      (buf ++ chunk, rest)
    else receive (buf ++ chunk) rest

def received (chunks : List Bytes) : Text := Utf8.decodeLossy (receive [] chunks).1

/-- `report`; an error is one of the connection, or that time is up. -/
def report (trace : Except Text (List Bytes)) : Option Exit :=
  match trace with
  | .ok chunks => some (parseExit (received chunks))
  | .error _ => none

def settle (policy : Option Policy) (trace : Except Text (List Bytes)) : Except Text Unit :=
  match policy with
  | none => .ok ()
  | some policy =>
    match report trace with
    | none =>
      .error "the exit location could not be read, so the policy cannot be honoured".toList
    | some exit =>
      let loc := exit.country.getD []
      if policy.accepts loc then .ok ()
      else
        .error ("exit location ".toList ++ loc ++
          " does not satisfy the requested policy".toList)

/-! ### What is asked of it -/

/-- The whole answer. -/
def complete (chunks : List Bytes) : Text := Utf8.decodeLossy chunks.flatten

/-- The part of it that is not read any more. -/
def unread (chunks : List Bytes) : Text := Utf8.decodeLossy (receive [] chunks).2.flatten

/-- The value of the first line that starts with `loc=`. -/
def locValue (text : Text) : Option Text := (lines text).findSome? (Text.strip "loc=".toList)

/-- The first line that starts with `loc=` goes on with these two letters. -/
def Located (text code : Text) : Prop :=
  (∃ value, locValue text = some value ∧ upper (Text.trim value) = code) ∧
    code.length = 2 ∧ code.all Char.isAlpha = true

/-- The answer, as far as it was received and as a whole, names an exit that the policy accepts. -/
def Honoured (p : Policy) (chunks : List Bytes) : Prop :=
  ∃ code, Located (received chunks) code ∧ p.accepts code = true ∧ Located (complete chunks) code

/-- The line of the location has ended in the text. -/
def LineEnded (text : Text) : Prop :=
  ∃ front last, Text.rsplitOnce '\n' text = some (front, last) ∧ (locValue front).isSome = true

/-- What goes on with a line is white space up to the end of the line. -/
def EndsBlank (rest : Text) : Prop := (rest.takeWhile (· != '\n')).all Text.isWhitespace = true

/-- Where nothing of two bytes was read the policy is a list of what is allowed.  What was read and
is accepted is two letters, and its line goes on with white space only. -/
def Uncut (p : Policy) (chunks : List Bytes) : Prop :=
  (parseTrace (received chunks) = none → p.deny = []) ∧
    ∀ code, parseTrace (received chunks) = some code → p.accepts code = true →
      code.all Char.isAlpha = true ∧ (LineEnded (received chunks) ∨ EndsBlank (unread chunks))

example :
    parseTrace "HTTP/1.1 200 OK\r\n\r\nfl=1\nloc=de\ntls=off\n".toList = some "DE".toList := by
  decide +kernel

end Aether.ExitLoc
