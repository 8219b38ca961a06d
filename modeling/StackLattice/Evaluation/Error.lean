import StackLattice.Syntax.Fault
import StackLattice.Value.FieldPath
import StackLattice.Value.Unify

/-!
Why an evaluation fails.
-/

namespace StackLattice

/-- Levels of bodies, expressions and references that an evaluation may nest. -/
def evaluationLimit : Nat := 256

inductive ErrorKind
  /-- The files could not be read. -/
  | load
  | conflict
  /-- A value is not concrete. -/
  | incomplete
  | reference
  | cycle
  | unsupported
  | tooDeep
deriving DecidableEq, Repr

def ErrorKind.code : ErrorKind → String
  | load => "EVAL_LOAD"
  | conflict => "EVAL_CONFLICT"
  | incomplete => "EVAL_INCOMPLETE"
  | reference => "EVAL_REFERENCE"
  | cycle => "EVAL_CYCLE"
  | unsupported => "EVAL_UNSUPPORTED"
  | tooDeep => "EVAL_TOO_DEEP"

structure Failure where
  kind : ErrorKind
  message : String
  position : Option Position
deriving DecidableEq, Repr

def SyntaxError.failure (e : Syntax.SyntaxError) : Failure := ⟨.load, e.message, some e.position⟩

inductive Problem
  | clash (c : Clash)
  | operand (v : Value)
  | notConcrete (v : Value)
  | selectFromAmbiguous (v : Value) (label : String)
  | selectFromIncomplete (v : Value) (label : String)
  | selectFromScalar (v : Value) (label : String)
  | selectMissing (label : String)
  | undeclared
  | unknownName (name : String)
  | imported (path : String)
  | cycle
  | tooDeep
  | valueTooDeep

namespace Problem

def kind : Problem → ErrorKind
  | clash _ | operand _ => .conflict
  | notConcrete _ | selectFromAmbiguous _ _ | selectFromIncomplete _ _ => .incomplete
  | selectFromScalar _ _ | selectMissing _ | undeclared | unknownName _ => .reference
  | imported _ => .unsupported
  | cycle => .cycle
  | tooDeep | valueTooDeep => .tooDeep

/-- The message for a problem of the field at a path. -/
def message (path : String) : Problem → String
  | clash c => pathPrefix path ++ c.message
  | operand v => pathPrefix path ++ "invalid operand " ++ v.render ++ " for '-'"
  | notConcrete v => pathPrefix path ++ "incomplete value " ++ v.render
  | selectFromAmbiguous v label =>
    pathPrefix path ++ "unresolved disjunction " ++ v.render ++ " (selecting " ++ label ++ ")"
  | selectFromIncomplete v label =>
    pathPrefix path ++ "incomplete value " ++ v.render ++ " (selecting " ++ label ++ ")"
  | selectFromScalar v label =>
    pathPrefix path ++ "invalid selector " ++ label ++ ": " ++ v.render ++ " is not a struct"
  | selectMissing label => pathPrefix path ++ "undefined field: " ++ label
  | undeclared => "undefined field: " ++ path
  | unknownName name => pathPrefix path ++ "reference " ++ Text.shown name ++ " not found"
  | imported package => "imported package " ++ Text.shown package ++ " is not supported"
  | cycle => path ++ ": reference cycle"
  | tooDeep =>
    pathPrefix path ++ "nesting too deep (more than " ++ toString evaluationLimit ++ " levels)"
  | valueTooDeep =>
    path ++ ": value nested too deep (more than " ++ toString evaluationLimit ++ " levels)"

end Problem

/-- A problem, the path of the field it belongs to and the place it was found at. -/
structure EvalError where
  path : String
  problem : Problem
  position : Option Position

namespace EvalError

def kind (e : EvalError) : ErrorKind := e.problem.kind

def message (e : EvalError) : String := e.problem.message e.path

def failure (e : EvalError) : Failure := ⟨e.kind, e.message, e.position⟩

def ofConflict (path : String) (fallback : Option Position) (c : Conflict) : EvalError :=
  ⟨c.labels.foldl joinPath path, .clash c.clash, c.position.or fallback⟩

end EvalError

end StackLattice
