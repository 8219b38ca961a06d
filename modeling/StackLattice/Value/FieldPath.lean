import StackLattice.Text.Quoted

/-!
Dotted paths of labels, as messages show them. A label that is neither a name nor an index is
quoted.
-/

namespace StackLattice

open Text (isAsciiDigit isAlphanumeric)

/-- A list index: ASCII digits only. -/
def isIndexLabel (label : List Char) : Bool := label.all isAsciiDigit

/-- A name: letters, digits, underscores and dollar signs, possibly behind a hash mark; no ASCII
    digit comes first. -/
def isNameLabel (label : List Char) : Bool :=
  let named (c : Char) : Bool := isAlphanumeric c || c == '_' || c == '$'
  match label with
  | [] => true
  | c :: rest => (named c || c == '#') && rest.all named && !isAsciiDigit c

def pathSegment (label : String) : String :=
  let cs := label.toList
  if !cs.isEmpty && (isNameLabel cs || isIndexLabel cs) then label else Text.shown label

/-- A path extended by a label. The empty path is that of the package. -/
def joinPath (path label : String) : String :=
  if path.isEmpty then pathSegment label else path ++ "." ++ pathSegment label

/-- A path in front of a message; the package itself is not named. -/
def pathPrefix (path : String) : String := if path.isEmpty then "" else path ++ ": "

end StackLattice
