import StackLattice.Evaluation.Error
import StackLattice.Text.Style

/-!
Lines that tell what went wrong in a run.
-/

namespace StackLattice

inductive Diagnostic
  /-- An instance did not evaluate. -/
  | failed (displayPath : String) (failure : Failure)
  /-- The pattern of instances to leave out is none, so that nothing is left out. -/
  | rejectedPattern (pattern reason : String)
deriving DecidableEq, Repr

namespace Diagnostic

/-- Whether no instance failed for it. -/
def isWarning : Diagnostic → Bool
  | failed _ _ => false
  | rejectedPattern _ _ => true

def displayPath? : Diagnostic → Option String
  | failed displayPath _ => some displayPath
  | rejectedPattern _ _ => none

/-- The message and its position, `-` standing for none. -/
def line : Diagnostic → String
  | failed _ failure => failure.message ++ " " ++ (failure.position.map Position.render).getD "-"
  | rejectedPattern pattern reason =>
    "invalid exclude pattern " ++ Text.shown pattern ++ ": " ++ reason

def written (colored : Bool) (d : Diagnostic) : String := Text.Style.red.applyIf colored d.line ++ "\n"

end Diagnostic

end StackLattice
