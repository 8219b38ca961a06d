import StackLattice.Document.Basic
import StackLattice.Document.Scalar
import StackLattice.Text.Split

/-!
The text of a document in blocks: one item or entry a line, each inside another two columns further. Items
that belong to a key stand below it in its own column.
-/

namespace StackLattice.Document

/-- Ends the line, unless the text has ended it already. -/
def endLine (cs : List Char) : List Char :=
  if cs.getLast?.any isBreak then cs else cs ++ ['\n']

/-- A key that is put on the line of its value: one line, and not too long. -/
def isSimpleKey (key : String) : Bool := !key.toList.any isBreak && key.utf8ByteSize ≤ 128

/-- Values that take one piece of text, given the column of their further lines. -/
def flat? (indent : Nat) : Document → Option (List Char)
  | null => some "null".toList
  | bool b => some (if b then "true" else "false").toList
  | int n => some (toString n).toList
  | float x => some (Decimal.Layout.block.render x).toList
  | string s => some (scalarText false indent s)
  | list items => if items.isEmpty then some "[]".toList else none
  | object entries => if entries.isEmpty then some "\x7b\x7d".toList else none

/-- Where the text of items or entries starts. -/
inductive Start
  /-- In the column that they stand in. -/
  | here
  /-- At the beginning of a line. -/
  | line
deriving DecidableEq, Repr

def Start.padding (column : Nat) : Start → List Char
  | here => []
  | line => spaces column

mutual

/-- The text of a value behind a mark such as `-`. -/
def behindMark (column : Nat) (d : Document) : List Char :=
  ' ' :: match d.flat? (column + 2), d with
    | some text, _ => endLine text
    | none, list items => itemsText (column + 2) .here items
    | none, object entries => entriesText (column + 2) .here entries
    | none, _ => ['\n']

def behindKey (column : Nat) (d : Document) : List Char :=
  match d.flat? (column + 2), d with
  | some text, _ => ' ' :: endLine text
  | none, list items => '\n' :: itemsText column .line items
  | none, object entries => '\n' :: entriesText (column + 2) .line entries
  | none, _ => ['\n']

def itemsText (column : Nat) (start : Start) : List Document → List Char
  | [] => []
  | item :: items =>
    start.padding column ++ '-' :: behindMark column item ++ itemsText column .line items

/-- Entries with a simple key have their value behind it; of others, key and value are marked. -/
def entriesText (column : Nat) (start : Start) : List (String × Document) → List Char
  | [] => []
  | (key, value) :: entries =>
    let entry :=
      if isSimpleKey key then scalarText true (column + 2) key ++ ':' :: behindKey column value
      else
        '?' :: ' ' :: endLine (scalarText false (column + 2) key) ++
          spaces column ++ ':' :: behindMark column value
    start.padding column ++ entry ++ entriesText column .line entries

end

def blockText (d : Document) : List Char :=
  match d.flat? 2, d with
  | some text, _ => endLine text
  | none, list items => itemsText 0 .here items
  | none, object entries => entriesText 0 .here entries
  | none, _ => []

/-- Lines with two spaces before each that is not empty. -/
def indentAll (cs : List Char) : List Char :=
  let lines := Text.pieces '\n' cs
  let lines := if lines.getLast? = some [] then lines.dropLast else lines
  lines.flatMap fun line => if line.isEmpty then ['\n'] else ' ' :: ' ' :: line ++ ['\n']

def block (d : Document) : String := String.ofList (indentAll (endLine d.blockText))

end StackLattice.Document
