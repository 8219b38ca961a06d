import StackLattice.Pattern.Parser
import StackLattice.Pattern.Search
import StackLattice.Run.Diagnostic

/-!
Leaving out instances by their display path.
-/

namespace StackLattice

/-- The pattern of instances to leave out, and its text. -/
structure Exclusion where
  pattern : Option (String × Pattern) := none

namespace Exclusion

/-- An empty text is no pattern. One that cannot be read leaves nothing out and is told of. -/
def ofText (text : Option String) : Exclusion × List Diagnostic :=
  match text with
  | none => ({}, [])
  | some text =>
    if text.isEmpty then ({}, [])
    else
      match Pattern.read text with
      | .ok p => (⟨some (text, p)⟩, [])
      | .error e => ({}, [.rejectedPattern text e.message])

def isActive (e : Exclusion) : Bool := e.pattern.isSome

def text? (e : Exclusion) : Option String := e.pattern.map (·.1)

def excludes (e : Exclusion) (displayPath : String) : Bool :=
  e.pattern.any fun (_, p) => p.isIn displayPath

end Exclusion

end StackLattice
