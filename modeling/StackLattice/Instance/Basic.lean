import StackLattice.Evaluation.Memo
import StackLattice.Workspace.Tree

/-!
Instances: the files of a package that are evaluated together, and what went wrong when they were
looked for. Nothing that goes wrong ends the search; it is kept with the instance it concerns.
-/

namespace StackLattice

open Syntax (ParsedFile SyntaxError)
open Workspace (ReadError)

inductive LoadError
  | unreadable (path : String) (e : ReadError)
  | faulty (message : String) (position : Position)
  /-- A directory has no file of the package. -/
  | noFiles (directory package : String)
  | notFound (argument : String)
  /-- A file that was asked for declares another package or none. -/
  | otherPackage (path expected : String) (found : Option String)
  /-- No directory of a pattern has a file of the package. -/
  | noMatch (pattern package : String)
deriving DecidableEq, Repr

namespace LoadError

def ofSyntax (e : SyntaxError) : LoadError := .faulty e.message e.position

def code : LoadError → String
  | unreadable _ _ => "LOAD_IO"
  | faulty _ _ => "LOAD_PARSE"
  | noFiles _ _ => "LOAD_NO_FILES"
  | notFound _ => "LOAD_NOT_FOUND"
  | otherPackage _ _ _ => "LOAD_PACKAGE_MISMATCH"
  | noMatch _ _ => "LOAD_NO_MATCH"

def message : LoadError → String
  | unreadable path e => path ++ ": " ++ e.message
  | faulty message _ => message
  | noFiles directory package =>
    "no CUE files for package " ++ Text.shown package ++ " in " ++ directory
  | notFound argument => "cannot find package " ++ Text.shown argument
  | otherPackage path expected found =>
    path ++ " declares package " ++ (found.map Text.shown).getD "none" ++ ", expected " ++
      Text.shown expected
  | noMatch pattern package =>
    "pattern " ++ Text.shown pattern ++ " matched no packages named " ++ Text.shown package

def position : LoadError → Option Position
  | faulty _ position => some position
  | _ => none

end LoadError

structure Instance where
  /-- What the instance is called in reports and matched by when some are left out. -/
  displayPath : String
  package : String
  directory : Option String := none
  /-- Those of outer directories first. -/
  files : List ParsedFile := []
  errors : List LoadError := []

namespace Instance

def isValid (i : Instance) : Bool := i.errors.isEmpty

def moreErrors : Nat → String
  | 0 => ""
  | 1 => " (and 1 more error)"
  | n => " (and " ++ toString n ++ " more errors)"

/-- The document of an instance; the first error of loading it comes before any of evaluation. -/
def document (i : Instance) : Except Failure Document :=
  match i.errors with
  | e :: es => .error ⟨.load, e.message ++ moreErrors es.length, e.position⟩
  | [] => (Package.document i.files).mapError EvalError.failure

end Instance

end StackLattice
