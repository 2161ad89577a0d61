/-
`lastconn.rs`: the gateways that worked last, kept in a file for the next connection.

A file is what `read_to_string` gives for its path.  TOML is a parameter, and so is what the path
reads as after a write.
-/
import Aether.Net.Addr

namespace Aether.Lastconn

def recentCap : Nat := 8

structure LastConnection where
  peer : Text
  profile : Text
  carrier : Text
  recent : List Text

structure Storage where
  /-- `toml::from_str` -/
  fromStr : Text → Option LastConnection
  /-- `toml::to_string_pretty` -/
  toStringPretty : LastConnection → Option Text
  /-- What the path reads as after `fs::write`. -/
  write : Option Text → Text → Option Text

def load (st : Storage) (file : Option Text) : Option LastConnection := file.bind st.fromStr

/-- The ring of the last connection, if it was made by the same carrier. -/
def carriedOver (previous : Option LastConnection) (carrier : Text) : List Text :=
  ((previous.filter fun c => c.carrier = [] ∨ c.carrier = carrier).map (·.recent)).getD []

def pushRecent (peer : Text) (recent : List Text) (entry : Text) : List Text :=
  if entry ≠ peer ∧ recent.length < recentCap then recent ++ [entry] else recent

/-- The arguments of a call of `save`. -/
structure Save where
  peer : Text
  profile : Text
  carrier : Text

def save (st : Storage) (file : Option Text) (s : Save) : Option Text :=
  let recent := (carriedOver (load st file) s.carrier).foldl (pushRecent s.peer) [s.peer]
  let conn := { peer := s.peer, profile := s.profile, carrier := s.carrier, recent }
  match st.toStringPretty conn with
  | some text => st.write file text
  | none => file

/-- `seen` holds what `out` does. -/
def pushPeer (out : List StdSocketAddr) (raw : Text) : List StdSocketAddr :=
  match parseSocketAddr raw with
  | some addr => if out.contains addr then out else out ++ [addr]
  | none => out

def usablePeers (cached : LastConnection) (carrier : Text) : List StdSocketAddr :=
  if cached.carrier ≠ [] ∧ cached.carrier ≠ carrier then []
  else (cached.peer :: cached.recent).foldl pushPeer []

end Aether.Lastconn
