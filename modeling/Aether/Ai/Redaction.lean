/-
`AiRedaction`: what is taken out of a log line before it leaves the device.

A line goes through six rules, each a regular expression and what is written in place of its
matches.  The platforms read `\d`, `\s`, `\b` and `(?i)` alike on ASCII and differ beyond it, so
their classes are a parameter, `Flavour`.
-/
import Aether.Lib.RegexPass
import Aether.Share.Proxy

namespace Aether.AiRedaction

open Regex

/-! ### The platform -/

/-- How a platform reads the classes of the patterns, and the digits of a number. -/
structure Flavour where
  /-- `\d`. -/
  digit : Char → Bool
  /-- `\s`. -/
  space : Char → Bool
  /-- The characters of the words that `\b` delimits. -/
  word : Char → Bool
  /-- `(?i)`: the letter of the pattern stands for the character of the text. -/
  same : Char → Char → Bool
  /-- The value of a digit for `toIntOrNull`. -/
  digitOf : Char → Option Nat
  digit_ascii : ∀ c, c.toNat < 128 → digit c = c.isDigit
  space_blank : space ' ' = true
  space_visible : ∀ c, 32 < c.toNat → c.toNat < 127 → space c = false
  word_ascii : ∀ c, c.toNat < 128 → word c = (c.isAlphanum || c == '_')
  word_of_digit : ∀ c, digit c = true → word c = true
  same_ascii : ∀ p c, p.toNat < 128 → c.toNat < 128 → same p c = (p.toLower == c.toLower)
  digit_of_same : ∀ p c, same p c = true → digit c = digit p
  digitOf_ascii : ∀ c, c.toNat < 128 →
    digitOf c = if c.isDigit then some (c.toNat - '0'.toNat) else none

theorem isDigit_toLower (c : Char) : c.toLower.isDigit = c.isDigit := by
  unfold Char.toLower
  split
  · next h =>
      -- a capital letter is behind the digits, and so is its small form
      have hA : 65 ≤ c.val.toNat := h.1
      have hZ : c.val.toNat ≤ 90 := h.2
      have hlower : (c.val + 32).toNat = c.val.toNat + 32 := by
        rw [UInt32.toNat_add]
        exact Nat.mod_eq_of_lt (Nat.lt_of_le_of_lt (Nat.add_le_add_right hZ 32) (by decide))
      have hbehind : ∀ n : UInt32, 57 < n.toNat → ¬ n ≤ 57 := fun n hn hle =>
        Nat.not_lt.mpr (UInt32.le_iff_toNat_le.mp hle) hn
      have hc := hbehind c.val (by omega)
      have hl := hbehind (c.val + 32) (by omega)
      simp [Char.isDigit, hc]
      intro _
      simpa using hl
  · rfl

/-- A platform whose classes hold ASCII only, as the defaults of `java.util.regex` do. -/
def Flavour.ascii : Flavour where
  digit := Char.isDigit
  space c := [' ', '\t', '\n', '\x0b', '\x0c', '\r'].contains c
  word c := c.isAlphanum || c == '_'
  same p c := p.toLower == c.toLower
  digitOf c := if c.isDigit then some (c.toNat - '0'.toNat) else none
  digit_ascii _ _ := rfl
  space_blank := by decide
  space_visible c h _ := by
    have hc : ∀ d : Char, d.toNat ≤ 32 → c ≠ d := fun d hd hcd => by
      rw [hcd] at h
      omega
    simp [hc ' ' (by decide), hc '\t' (by decide), hc '\n' (by decide), hc '\x0b' (by decide),
      hc '\x0c' (by decide), hc '\r' (by decide)]
  word_ascii _ _ := rfl
  word_of_digit c h := by simp [Char.isAlphanum, h]
  same_ascii _ _ _ _ := rfl
  digit_of_same p c h := by
    rw [← isDigit_toLower c, ← isDigit_toLower p, eq_of_beq h]
  digitOf_ascii _ _ := rfl

variable (F : Flavour)

/-! ### The patterns -/

def literal (t : Text) : Regex Char := Regex.all (t.map fun p => .one (· == p))

/-- A literal under `(?i)`. -/
def anyCase (t : Text) : Regex Char := Regex.all (t.map fun p => .one (F.same p))

/-- `[…]`. -/
def oneOf (t : Text) : Regex Char := .one t.contains

def isHex (c : Char) : Bool := c.isDigit || ('a' ≤ c && c ≤ 'f') || ('A' ≤ c && c ≤ 'F')

/-- `[0-9A-Za-z_\-]`. -/
def isKeyChar (c : Char) : Bool := c.isAlphanum || c == '_' || c == '-'

/-- `[a-z]` under `(?i)`. -/
def isLetter (c : Char) : Bool := "abcdefghijklmnopqrstuvwxyz".toList.any (F.same · c)

/-- `[A-Za-z0-9_]` under `(?i)`. -/
def isNameChar (c : Char) : Bool := c.isDigit || c == '_' || isLetter F c

/-- `"?\s*[:=]\s*"?\S+`, the value behind a label. -/
def valueBehind : List (Regex Char) :=
  [opt (literal ['"']), many (.one F.space), oneOf [':', '='], many (.one F.space),
    opt (literal ['"']), plus (.one fun c => !F.space c)]

/-- `[_-]?id`. -/
def idSuffix : Regex Char := .seq (opt (oneOf ['_', '-'])) (anyCase F "id".toList)

/-- `\d{1,3}`. -/
def octetPattern : Regex Char := between 1 2 (.one F.digit)

/-- `(?:\d{1,3}\.){3}\d{1,3}`. -/
def quadPattern : Regex Char :=
  .seq (times 3 (.seq (octetPattern F) (literal ['.']))) (octetPattern F)

/-- `[0-9A-Fa-f]{1,4}`. -/
def hextet : Regex Char := between 1 3 (.one isHex)

/-- `[0-9A-Fa-f]{1,4}:`. -/
def hextetColon : Regex Char := .seq hextet (literal [':'])

/-- `(?:[0-9A-Fa-f]{1,4}(?::[0-9A-Fa-f]{1,4})*)?`. -/
def hextets : Regex Char := opt (.seq hextet (many (.seq (literal [':']) hextet)))

/-- `[Ff]{4}:`. -/
def mappedMark : Regex Char := .seq (times 4 (oneOf ['F', 'f'])) (literal [':'])

/-! ### Numbers and masks -/

/-- `toIntOrNull`: a sign, digits, and 32 bits. -/
def toIntOrNull (t : Text) : Option Int := do
  let (negative, digits) := Share.splitSign t
  if digits = [] then none
  let values ← digits.mapM F.digitOf
  let n := values.foldl (fun n v => n * 10 + v) (0 : Nat)
  let v : Int := if negative then -(n : Int) else n
  if -2147483648 ≤ v ∧ v ≤ 2147483647 then some v else none

def intText : Int → Text
  | .ofNat n => Nat.toDigits 10 n
  | .negSucc n => '-' :: Nat.toDigits 10 (n + 1)

/-- The ranges that `maskIpv4` keeps, by the first two octets. -/
def isPrivate (a b : Int) : Bool :=
  a == 127 || a == 10 || (a == 192 && b == 168) || (a == 172 && 16 ≤ b && b ≤ 31) ||
    (a == 169 && b == 254) || a == 0

def maskIpv4 (ip : Text) : Text :=
  match (ip.splitOn '.').mapM (toIntOrNull F) with
  | some [a, b, c, d] =>
    if [a, b, c, d].any (255 < ·) then ip
    else if isPrivate a b then ip
    else intText a ++ '.' :: intText b ++ ".x.x".toList
  | _ => ip

/-- `maskIpv6`; what the pattern takes has no letters but those of ASCII to lower. -/
def maskIpv6 (ip : Text) : Text :=
  let lower := ip.map Char.toLower
  if lower = "::".toList ∨ lower = "::1".toList ∨ "fe80:".toList.isPrefixOf lower then ip
  else
    match if lower.contains '.' then Text.rsplitOnce ':' lower else none with
    | some (before, quad) => before ++ ':' :: maskIpv4 F quad
    | none =>
      if "fc".toList.isPrefixOf lower || "fd".toList.isPrefixOf lower then ip
      else
        match lower.splitOn ':' with
        | first :: second :: _ =>
          if first = [] ∨ second = [] then "[REDACTED-IPV6]".toList
          else first ++ ':' :: second ++ ":x:x".toList
        | _ => "[REDACTED-IPV6]".toList

/-- The label that a rule captured. -/
def label (group : Text) : Text := if Text.isBlank group then "field".toList else group

/-! ### The rules -/

/-- A pattern, and what is written for a match and its group. -/
structure Rule where
  pattern : Regex Char
  write : Text → Text → Text

def Rule.replace (r : Rule) (t : Text) : Text := Regex.replace r.pattern r.write t

def googleKey : Rule where
  pattern := .seq (literal "AIza".toList) (atLeast 10 (.one isKeyChar))
  write _ _ := "[REDACTED]".toList

def writeLabel (_ group : Text) : Text := label group ++ "=[REDACTED]".toList

def credentialLine : Rule where
  pattern := Regex.all (
    .group (Regex.any [anyCase F "key".toList, anyCase F "token".toList,
      anyCase F "secret".toList, anyCase F "password".toList, anyCase F "passwd".toList,
      anyCase F "authorization".toList, anyCase F "bearer".toList,
      .seq (anyCase F "client".toList) (idSuffix F)]) :: valueBehind F)
  write := writeLabel

def deviceField : Rule where
  pattern := Regex.all (
    .notBehind (isNameChar F) :: opt (literal ['"']) ::
    .group (Regex.any [.seq (anyCase F "device".toList) (opt (idSuffix F)),
      .seq (anyCase F "installation".toList) (opt (idSuffix F)),
      anyCase F "identity".toList,
      .seq (anyCase F "session".toList) (idSuffix F)]) :: valueBehind F)
  write := writeLabel

def uuid : Rule where
  pattern := Regex.all [.boundary F.word, times 8 (.one isHex), literal ['-'],
    times 4 (.one isHex), literal ['-'], times 4 (.one isHex), literal ['-'],
    times 4 (.one isHex), literal ['-'], times 12 (.one isHex), .boundary F.word]
  write _ _ := "[REDACTED-ID]".toList

def ipv6 : Rule where
  pattern := Regex.any [
    Regex.all [literal "::".toList, opt mappedMark, quadPattern F],
    Regex.all [between 4 1 (.seq (between 1 3 (literal ['0'])) (literal [':'])), mappedMark,
      quadPattern F],
    .seq (times 7 hextetColon) hextet,
    Regex.all [between 1 6 hextetColon, literal [':'], hextets],
    .seq (literal "::".toList) hextets]
  write m _ := maskIpv6 F m

def ipv4 : Rule where
  pattern := Regex.all [.boundary F.word, .group (quadPattern F), .boundary F.word]
  write m _ := maskIpv4 F m

def redactLine (line : Text) : Text :=
  let out := googleKey.replace line
  let out := (credentialLine F).replace out
  let out := (deviceField F).replace out
  let out := (uuid F).replace out
  let out := (ipv6 F).replace out
  (ipv4 F).replace out

example : redactLine .ascii "ipv6=2606:4700:110:8cf5:d172:c495:8919:3df5".toList =
    "ipv6=2606:4700:x:x".toList := by decide +kernel

/-! ### The digest -/

/-- The UTF-16 code units of a character. -/
def units (c : Char) : List (BitVec 16) :=
  if c.toNat < 0x10000 then [BitVec.ofNat 16 c.toNat]
  else
    [BitVec.ofNat 16 (0xD800 + (c.toNat - 0x10000) / 0x400),
      BitVec.ofNat 16 (0xDC00 + (c.toNat - 0x10000) % 0x400)]

/-- A string as the JVM keeps it. -/
def utf16 (t : Text) : List (BitVec 16) := t.flatMap units

def maxDigestChars : Nat := 12000

/-- `lineSequence`, with the line it is in: `\r\n`, `\n` and `\r` end one. -/
def lineSequence (line : Text) : Text → List Text
  | [] => [line]
  | '\r' :: '\n' :: t => line :: lineSequence [] t
  | '\r' :: t => line :: lineSequence [] t
  | '\n' :: t => line :: lineSequence [] t
  | c :: t => lineSequence (line ++ [c]) t

/-- `throws` is the lines on which the regular expressions give up. -/
def safeRedactLine (throws : Text → Bool) (line : Text) : Text :=
  if throws line then "[REDACTION-FAILED-LINE-DROPPED]".toList else redactLine F line

/-- The lines, redacted, and without the key. -/
def redactLines (throws : Text → Bool) (lines : List Text) (ownApiKey : Text) :
    List (BitVec 16) :=
  let cleaned := utf16 (['\n'].intercalate (lines.map (safeRedactLine F throws)))
  if Text.isBlank ownApiKey then cleaned
  else Text.replace (utf16 ownApiKey) (utf16 "[REDACTED]".toList) cleaned

/-- `takeLast` throws on a negative number. -/
def digest (throws : Text → Bool) (fullLog ownApiKey : Text) (maxLines : Int) :
    Option (List (BitVec 16)) :=
  if maxLines < 0 then none
  else
    let lines := lineSequence [] fullLog
    let tail := lines.drop (lines.length - maxLines.toNat)
    let withoutOwnKey := redactLines F throws tail ownApiKey
    some (if withoutOwnKey.length ≤ maxDigestChars then withoutOwnKey
      else withoutOwnKey.drop (withoutOwnKey.length - maxDigestChars))

def redactAll (throws : Text → Bool) (text ownApiKey : Text) : List (BitVec 16) :=
  redactLines F throws (lineSequence [] text) ownApiKey

/-! ### The credential of an authorization header -/

/-- `authorization` or `proxy-authorization`, in any letter case. -/
structure HeaderName where
  text : Text
  named : text.map Char.toLower = "authorization".toList ∨
    text.map Char.toLower = "proxy-authorization".toList

/-- The scheme in front of a credential: a word, and none of what separates a label from its
value, as every word of letters is. -/
structure Scheme where
  text : Text
  ne_nil : text ≠ []
  plain : ∀ c ∈ text, F.space c = false ∧ c ≠ ':' ∧ c ≠ '='

/-- Not blank, and without white space. -/
structure Credential where
  text : Text
  ne_nil : text ≠ []
  solid : ∀ c ∈ text, F.space c = false ∧ Text.isJvmWhitespace c = false

def headerLine {F : Flavour} (pre : Text) (name : HeaderName) (scheme : Scheme F)
    (k : Credential F) : Text :=
  pre ++ name.text ++ [':', ' '] ++ scheme.text ++ ' ' :: k.text

/-- What leaves the device does not depend on the credential. -/
def HidesCredential (pre : Text) (name : HeaderName) (scheme : Scheme F) : Prop :=
  ∀ k k₂ : Credential F,
    redactLine F (headerLine pre name scheme k) = redactLine F (headerLine pre name scheme k₂)

end Aether.AiRedaction
