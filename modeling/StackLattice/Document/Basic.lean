import StackLattice.Decimal.Layout
import StackLattice.Text.Quoted

/-!
Documents: the trees of concrete data that values are exported to, and their text on one line.
-/

namespace StackLattice

open Decimal (Binary64)

inductive Document
  | null
  | bool (b : Bool)
  | int (n : Int)
  | float (x : Binary64)
  | string (s : String)
  | list (items : List Document)
  /-- Entries in order, no two with one key. -/
  | object (entries : List (String × Document))

instance : Inhabited Document := ⟨.null⟩

namespace Document

mutual

/-- The text without any blanks. -/
def compact : Document → String
  | null => "null"
  | bool b => if b then "true" else "false"
  | int n => toString n
  | float x => Decimal.Layout.document.render x
  | string s => Text.literal s
  | list items => "[" ++ ",".intercalate (compactItems items) ++ "]"
  | object entries => "\x7b" ++ ",".intercalate (compactEntries entries) ++ "\x7d"

def compactItems : List Document → List String
  | [] => []
  | d :: ds => d.compact :: compactItems ds

def compactEntries : List (String × Document) → List String
  | [] => []
  | (key, d) :: ds => (Text.literal key ++ ":" ++ d.compact) :: compactEntries ds

end

def get? (key : String) : Document → Option Document
  | object entries => entries.lookup key
  | _ => none

end Document

end StackLattice
