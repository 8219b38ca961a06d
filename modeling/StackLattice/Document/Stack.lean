import StackLattice.Decimal.Read
import StackLattice.Document.Basic
import StackLattice.Text.Split

/-!
Stacks: the named entries that a document has under `Stacks`.
-/

namespace StackLattice

open Text (isAsciiDigit)

structure Stack where
  name : String
  value : Document

namespace Stack

/-- The index that a segment of a path addresses in a list: digits, which a plus sign may stand before. -/
def index? (segment : List Char) : Option Nat :=
  let digits := match segment with
    | '+' :: rest => rest
    | _ => segment
  if digits.all isAsciiDigit then Decimal.naturalBelow 10 (1 <<< 64) digits else none

/-- Follows one segment: the key of an object or the index in a list. -/
def follow? (d : Document) (segment : List Char) : Option Document :=
  match d with
  | .object _ => d.get? (String.ofList segment)
  | .list items => do items[← index? segment]?
  | _ => none

/-- Follows the segments between dots; empty ones are passed over. -/
def lookup? (s : Stack) (path : String) : Option Document :=
  ((Text.pieces '.' path.toList).filter (!·.isEmpty)).foldlM follow? s.value

end Stack

def Document.stacks (d : Document) : List Stack :=
  match d.get? "Stacks" with
  | some (.object entries) => entries.map fun (name, value) => ⟨name, value⟩
  | _ => []

end StackLattice
