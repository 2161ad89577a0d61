/-
How the engine reads routing rules: `Matcher::parse`, `parse_list` and `RuleSet::parse` of
`routing.rs`.

Three libraries have a say in what a rule is: the lower case of Unicode, the address blocks of
`ipnet` and the regular expressions of `regex`.  They are the fields of `Libraries`.
-/
import Aether.Routing.Rules

namespace Aether

namespace Routing

/-- What a rule is read with. -/
structure Libraries where
  /-- `to_lowercase`. -/
  lower : Text → Text
  /-- `IpNet::from_str`, and the `contains` of the block it reads. -/
  parseIpNet : Text → Option (IpAddr → Bool)
  /-- `IpNet::from`, and the `contains` of the block it makes of one address. -/
  netOf : IpAddr → IpAddr → Bool
  /-- `Regex::new`, and the `is_match` of what it compiles. -/
  compile : Text → Option (Text → Bool)

/-- What stands before the colon of a rule. -/
inductive Kind
  | suffix | full | keyword | regexp | net | port | geo | bare
deriving DecidableEq, Repr

/-- The words for them; a rule without any word is bare. -/
def kindWords : List (String × Kind) :=
  [("", .bare), ("domain", .suffix), ("suffix", .suffix), ("full", .full), ("exact", .full),
    ("keyword", .keyword), ("regexp", .regexp), ("regex", .regexp), ("ip", .net), ("cidr", .net),
    ("port", .port), ("geoip", .geo), ("geosite", .geo)]

def kindOf (word : Text) : Option Kind := kindWords.lookup (String.ofList word)

variable (L : Libraries)

def normalizeDomain (value : Text) : Option Text :=
  let front := ((Text.trim value).dropWhile (· == '*')).dropWhile (· == '.')
  let cleaned := L.lower (front.reverse.dropWhile (· == '.')).reverse
  if cleaned = [] then none else some cleaned

def parseNet (value : Text) : Option (IpAddr → Bool) :=
  let value := Text.trim value
  (L.parseIpNet value).orElse fun _ => (parseIpAddr value).map L.netOf

def parsePorts (value : Text) : Option (Nat × Nat) :=
  let value := Text.trim value
  match Text.splitOnce ['-'] value with
  | some (lo, hi) => do
    let lo ← Text.parseUnsigned 65536 (Text.trim lo)
    let hi ← Text.parseUnsigned 65536 (Text.trim hi)
    some (if hi < lo then (hi, lo) else (lo, hi))
  | none => (Text.parseUnsigned 65536 value).map fun single => (single, single)

/-- A word before a colon is a kind unless it has a dot or a slash in it, as an address has. -/
def splitKind (entry : Text) : Text × Text :=
  match Text.splitOnce [':'] entry with
  | some (kind, value) =>
    if kind.contains '.' || kind.contains '/' then ([], entry)
    else (L.lower (Text.trim kind), Text.trim value)
  | none => ([], entry)

/-- `Matcher::parse`. -/
def Matcher.parse (entry : Text) : Option Matcher :=
  let entry := Text.trim entry
  if entry = [] ∨ entry.head? = some '#' then none
  else
    let (kind, value) := splitKind L entry
    match kindOf kind with
    | some .suffix => (normalizeDomain L value).map .domainSuffix
    | some .full => (normalizeDomain L value).map .domainFull
    | some .keyword =>
      let needle := L.lower (Text.trim value)
      if needle = [] then none else some (.domainKeyword needle)
    | some .regexp => (L.compile value).map .domainRegex
    | some .net => (parseNet L value).map .net
    | some .port => (parsePorts value).map fun (lo, hi) => .ports lo hi
    | some .geo =>
      if Text.eqIgnoreAsciiCase value "private".toList then some .privateNets else none
    | some .bare =>
      if Text.eqIgnoreAsciiCase value "private".toList then some .privateNets
      else
        match parseNet L value with
        | some block => some (.net block)
        | none => (normalizeDomain L value).map .domainSuffix
    | none => none

/-- `parse_list`. -/
def parseList (raw : Text) : List Matcher :=
  (raw.splitOnP fun c => c == '\n' || c == ',' || c == ';').filterMap (Matcher.parse L)

/-- `RuleSet::parse`. -/
def RuleSet.parse (block direct : Text) : RuleSet where
  block := parseList L block
  direct := parseList L direct

end Routing

end Aether
