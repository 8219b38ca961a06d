import StackLattice.Evaluation.Rules

/-!
Evaluation that remembers fields. A field is evaluated when it is first referred to; one that is
referred to while it is being evaluated depends on itself, which is an error. Each task uses up one
level of nesting.
-/

namespace StackLattice.Evaluation

/-- The result of an evaluation, which then does not fail. -/
def outcome {α : Type} (e : Eval α) : Eval (Except EvalError α) := fun s =>
  let (result, t) := e s
  (.ok result, t)

/-- The value of a field as remembered, or else as computed and then remembered. -/
def remember (key : FieldKey) (compute : Eval Value) : Eval Value := do
  let s ← get
  match s.cache.lookup key with
  | some result => liftExcept result
  | none =>
    if s.active.contains key then
      let (id, label) := key
      let position := (s.scopes.entryOf? id label).map (·.position)
      throw ⟨joinPath (s.scopes.node id).path label, .cycle, position⟩
    set { s with active := key :: s.active }
    let result ← outcome compute
    modify fun s => { s with active := s.active.erase key, cache := (key, result) :: s.cache }
    liftExcept result

def remembering (task : Task → Eval Value) : Parts :=
  ⟨task, fun id label => remember (id, label) (fieldValue task id label)⟩

/-- A task that is one too many for the levels. -/
def outOfLevels (task : Task) : Eval Value := do throw (task.tooDeep (← get).scopes)

/-- Takes a task one level down, where there is a level left. The level is left again however the task ends. -/
def nest (task : Task) (compute : Eval Value) : Eval Value := do
  let s ← get
  if evaluationLimit ≤ s.depth then outOfLevels task
  else
    set { s with depth := s.depth + 1 }
    let result ← outcome compute
    modify fun s => { s with depth := s.depth - 1 }
    liftExcept result

/-- Evaluates a task. The number is there for the recursion to end, and is not used up before the levels are. -/
def evaluate : Nat → Task → Eval Value
  | 0, task => nest task (outOfLevels task)
  | n + 1, task => nest task (perform (remembering (evaluate n)) task)

end Evaluation

open Evaluation in
def Package.value (files : List Syntax.ParsedFile) : Except EvalError Value :=
  (evaluate evaluationLimit (.body Scopes.root) { scopes := .ofFiles files }).1

def Package.document (files : List Syntax.ParsedFile) : Except EvalError Document := do
  (← Package.value files).document

end StackLattice
