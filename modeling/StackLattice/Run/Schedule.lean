import StackLattice.Instance.Basic
import StackLattice.Run.Exclusion
import StackLattice.Run.Stage

/-!
A run: every instance that is not left out is evaluated, and its document is handed on. What becomes of
one instance does not depend on the others.
-/

namespace StackLattice

/-- How the evaluation of an instance ends. -/
inductive Outcome
  | document (d : Document)
  | failure (f : Failure)
  /-- It breaks off. -/
  | crash

/-- How instances are evaluated, and whether handing on a document comes to an end. -/
structure Schedule where
  evaluate : Instance → Outcome
  handles : Instance → Document → Bool

namespace Outcome

def ofExcept : Except Failure Document → Outcome
  | .ok d => document d
  | .error f => failure f

end Outcome

structure Report where
  entries : List ReportEntry
deriving DecidableEq, Repr

namespace Report

/-- The stage of the first instance with a display path. -/
def stageOf? (r : Report) (displayPath : String) : Option Stage :=
  (r.entries.find? (·.displayPath == displayPath)).map (·.stage)

def count (r : Report) (stage : Stage) : Nat := (r.entries.filter (·.stage == stage)).length

def total (r : Report) : Nat := r.entries.length

def isSuccess (r : Report) : Bool := !r.entries.any (·.stage.isFailure)

def document (r : Report) : Document :=
  .object [("entries", .list <| r.entries.map fun e =>
    .object [("display_path", .string e.displayPath), ("state", .string e.stage.name)])]

end Report

structure Run where
  report : Report
  /-- Documents that were handed on. -/
  handled : List (String × Document)
  diagnostics : List Diagnostic

namespace Schedule

/-- The last stage of an instance, with what is handed on and told for it. -/
structure Ending where
  stage : Stage
  handled : Option Document := none
  diagnostic : Option Diagnostic := none

variable (s : Schedule)

def ending (i : Instance) : Ending :=
  match s.evaluate i with
  | .document d =>
    if s.handles i d then { stage := .succeeded, handled := some d } else { stage := .aborted }
  | .failure f => { stage := .failed, diagnostic := some (.failed i.displayPath f) }
  | .crash => { stage := .aborted }

def add (exclusion : Exclusion) (r : Run) (i : Instance) : Run :=
  let entry : ReportEntry := ⟨i.displayPath, .loaded⟩
  if exclusion.excludes i.displayPath then
    { r with report := ⟨r.report.entries ++ [entry.advance .excluded]⟩ }
  else
    let e := s.ending i
    let handled := e.handled.map fun d => (i.displayPath, d)
    { report := ⟨r.report.entries ++ [(entry.advance .evaluating).advance e.stage]⟩
      handled := r.handled ++ handled.toList
      diagnostics := r.diagnostics ++ e.diagnostic.toList }

/-- Runs the instances that the pattern does not leave out. -/
def run (exclude : Option String) (instances : List Instance) : Run :=
  let (exclusion, diagnostics) := Exclusion.ofText exclude
  instances.foldl (s.add exclusion) ⟨⟨[]⟩, [], diagnostics⟩

end Schedule

end StackLattice
