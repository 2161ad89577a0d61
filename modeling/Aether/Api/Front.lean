/-
Bodies in chunks, as `apifront.rs` reads them.

The loop has its place in the body; here it has what is left from there on.  A size that does
not fit a `usize` ends it, and so does one that is more than what is left, so that the width of
a `usize` makes no difference for bodies that fit the memory.
-/
import Aether.Net.Addr
import Aether.Socks.Http

namespace Aether.Api

open Socks (cr lf)

/-- `usize::from_str_radix` with the radix 16: an optional plus, then digits. -/
def usizeFromHex (t : Text) : Option Nat :=
  let digits := if t.head? = some '+' then t.tail else t
  if digits = [] then none
  else do
    let values ← digits.mapM (toDigit 16)
    let value := values.foldl (fun n d => n * 16 + d) 0
    if value < 2 ^ 64 then some value else none

/-- The size in a line: what stands before the first semicolon. -/
def chunkSize (line : Bytes) : Option Nat :=
  usizeFromHex (Text.trim ((Utf8.decodeLossy line).takeWhile (· ≠ ';')))

/-- The loop of `dechunk`. -/
def dechunk (body : Bytes) : Bytes :=
  match _hline : Text.splitOnce [cr, lf] body with
  | none => []
  | some (line, rest) =>
    match chunkSize line with
    | none | some 0 => []
    | some size =>
      if size ≤ rest.length then rest.take size ++ dechunk (rest.drop (size + 2)) else []
termination_by body.length
decreasing_by
  have hbody := congrArg List.length (Text.eq_of_splitOnce _hline)
  simp only [List.length_append, List.length_cons, List.length_drop] at hbody ⊢
  omega

end Aether.Api
