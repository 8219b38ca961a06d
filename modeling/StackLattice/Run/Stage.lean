/-!
The stages an instance goes through: it is left out, or it is evaluated and that ends in one of three
ways.
-/

namespace StackLattice

inductive Stage
  | loaded
  /-- Matched by the pattern of instances to leave out. -/
  | excluded
  | evaluating
  /-- Evaluated and handed on. -/
  | succeeded
  | failed
  /-- Evaluation or what its result was handed to broke off. -/
  | aborted
deriving DecidableEq, Repr

namespace Stage

def name : Stage → String
  | loaded => "loaded"
  | excluded => "excluded"
  | evaluating => "evaluating"
  | succeeded => "succeeded"
  | failed => "failed"
  | aborted => "aborted"

def all : List Stage := [loaded, excluded, evaluating, succeeded, failed, aborted]

def ofName? (name : String) : Option Stage := all.find? (·.name == name)

/-- Whether no other stage follows. -/
def isTerminal : Stage → Bool
  | excluded | succeeded | failed | aborted => true
  | loaded | evaluating => false

def isFailure : Stage → Bool
  | failed | aborted => true
  | _ => false

/-- Whether one stage may follow another. -/
def leadsTo : Stage → Stage → Bool
  | loaded, excluded | loaded, evaluating => true
  | evaluating, succeeded | evaluating, failed | evaluating, aborted => true
  | _, _ => false

end Stage

/-- An instance was to enter a stage that may not follow the one it is in. -/
structure StageError where
  displayPath : String
  before : Stage
  after : Stage
deriving DecidableEq, Repr

def StageError.message (e : StageError) : String :=
  "invalid transition for " ++ e.displayPath ++ ": " ++ e.before.name ++ " -> " ++ e.after.name

/-- What has become of an instance. -/
structure ReportEntry where
  displayPath : String
  stage : Stage
deriving DecidableEq, Repr

namespace ReportEntry

def enter (e : ReportEntry) (stage : Stage) : Except StageError ReportEntry :=
  if e.stage.leadsTo stage then .ok { e with stage } else .error ⟨e.displayPath, e.stage, stage⟩

/-- Enters a stage if it may follow, and stays otherwise. -/
def advance (e : ReportEntry) (stage : Stage) : ReportEntry :=
  match e.enter stage with
  | .ok e => e
  | .error _ => e

end ReportEntry

end StackLattice
