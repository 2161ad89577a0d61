/-
The routing rules of `routing.rs`, and how a connection is routed by them.

`to_lowercase` follows Unicode tables that are not part of the repository: it is the
parameter `lower`.  A regular expression is the set of names it matches, and a block of `ipnet`
the set of addresses it contains.
-/
import Aether.Lib.Text
import Aether.Net.Addr
import Mathlib.Data.List.Infix

namespace Aether

namespace Routing

inductive Action
  | proxy | direct | block
deriving DecidableEq, Repr

inductive Host
  | domain (name : Text)
  | ip (addr : IpAddr)
deriving DecidableEq, Repr

inductive Matcher
  | domainSuffix (suffix : Text)
  | domainFull (full : Text)
  | domainKeyword (needle : Text)
  | domainRegex (isMatch : Text → Bool)
  | net (contains : IpAddr → Bool)
  | ports (lo hi : Nat)
  | privateNets

variable (lower : Text → Text)

/-- `Matcher::matches`. -/
def Matcher.matches (rule : Matcher) (host : Host) (port : Nat) : Bool :=
  match rule, host with
  | .ports lo hi, _ => lo ≤ port && port ≤ hi
  | .privateNets, .ip addr => isPrivate addr
  | .privateNets, .domain name => Text.eqIgnoreAsciiCase name "localhost".toList
  | .net contains, .ip addr => contains addr
  | .net _, .domain _ => false
  | .domainSuffix suffix, .domain name =>
    lower name == suffix || ('.' :: suffix).isSuffixOf (lower name)
  | .domainSuffix _, .ip _ => false
  | .domainFull full, .domain name => Text.eqIgnoreAsciiCase name full
  | .domainFull _, .ip _ => false
  | .domainKeyword needle, .domain name => decide (needle <:+: lower name)
  | .domainKeyword _, .ip _ => false
  | .domainRegex isMatch, .domain name => isMatch name
  | .domainRegex _, .ip _ => false

structure RuleSet where
  block : List Matcher
  direct : List Matcher

/-- Some rule of the list matches. -/
def matchesAny (rules : List Matcher) (host : Host) (port : Nat) : Bool :=
  rules.any fun rule => rule.matches lower host port

/-- `RuleSet::decide`. -/
def RuleSet.decide (set : RuleSet) (host : Host) (port : Nat) : Action :=
  if matchesAny lower set.block host port then .block
  else if matchesAny lower set.direct host port then .direct
  else .proxy

/-- A rule that needs a name. -/
def Matcher.isDomainRule : Matcher → Bool
  | .domainSuffix _ | .domainFull _ | .domainKeyword _ | .domainRegex _ => true
  | _ => false

def RuleSet.hasDomainRules (set : RuleSet) : Bool :=
  (set.block ++ set.direct).any Matcher.isDomainRule

end Routing

namespace Socks

open Routing

/-- What a client asks for. -/
inductive Target
  | ip (addr : IpAddr)
  | domain (name : Text)
deriving DecidableEq, Repr

/-- Its `Display`. -/
def Target.toText : Target → Text
  | .ip addr => addr.toText
  | .domain name => name

def hostOf : Target → Host
  | .domain name => .domain name
  | .ip addr => .ip addr

/-- `decide_route`: the name a connection announced comes first. -/
def decideRoute (lower : Text → Text) (set : RuleSet) (target : Target) (sniffed : Option Text)
    (port : Nat) : Action :=
  match sniffed with
  | some name =>
    match set.decide lower (.domain name) port with
    | .proxy => set.decide lower (hostOf target) port
    | decided => decided
  | none => set.decide lower (hostOf target) port

end Socks

end Aether
