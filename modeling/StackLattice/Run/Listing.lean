import StackLattice.Document.Block
import StackLattice.Document.Stack
import StackLattice.Text.Style

/-!
What is printed for an instance: its display path, and below it the block text of each stack or of what
a path leads to in it.
-/

namespace StackLattice

open Text (Style)

structure Listing where
  /-- What is shown of each stack; stacks that do not have it are passed over. -/
  path : Option String := none
  /-- Whether headers are shown alone. -/
  headersOnly : Bool := false
  colored : Bool := false

namespace Listing

variable (l : Listing)

/-- The header of a stack and what is shown of it. -/
def entry (s : Stack) : Option (String × Document) :=
  match l.path with
  | none => some (":", s.value)
  | some path => (s.lookup? path).map fun d => ("." ++ path ++ ":", d)

def stackText (s : Stack) : String :=
  match l.entry s with
  | none => ""
  | some (label, d) =>
    Style.magenta.applyIf l.colored s.name ++ Style.brightBlue.applyIf l.colored label ++ "\n" ++
      if l.headersOnly then "" else d.block

def text (displayPath : String) (d : Document) : String :=
  Style.cyan.applyIf l.colored displayPath ++ "\n" ++ String.join (d.stacks.map l.stackText)

end Listing

end StackLattice
