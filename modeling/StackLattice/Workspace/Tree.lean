import StackLattice.Workspace.Path

/-!
Directories and files as a value, and what reading a path in them gives.
-/

namespace StackLattice.Workspace

inductive ReadError
  | notFound
  /-- A name is looked up in a file. -/
  | notDirectory
  | isDirectory
  /-- The bytes are not text. -/
  | notText
  | other (reason : String)
deriving DecidableEq, Repr

def ReadError.message : ReadError → String
  | notFound => "No such file or directory (os error 2)"
  | notDirectory => "Not a directory (os error 20)"
  | isDirectory => "Is a directory (os error 21)"
  | notText => "stream did not contain valid UTF-8"
  | other reason => reason

inductive Tree
  | file (content : Except ReadError String)
  /-- No two entries have one name; their order means nothing. -/
  | directory (entries : List (String × Tree))

namespace Tree

def empty : Tree := .directory []

def entries : Tree → List (String × Tree)
  | file _ => []
  | directory entries => entries

def isDirectory : Tree → Bool
  | file _ => false
  | directory _ => true

def at? : List String → Tree → Except ReadError Tree
  | [], t => .ok t
  | _ :: _, file _ => .error .notDirectory
  | name :: names, directory entries =>
    match entries.lookup name with
    | some t => t.at? names
    | none => .error .notFound

def text : Tree → Except ReadError String
  | file content => content
  | directory _ => .error .isDirectory

/-- Names in the order of their characters. -/
def byName {α : Type} (xs : List (String × α)) : List (String × α) :=
  xs.mergeSort fun a b => a.1 ≤ b.1

def files (t : Tree) : List (String × Except ReadError String) :=
  byName <| t.entries.filterMap fun (name, t) =>
    match t with
    | file content => some (name, content)
    | directory _ => none

mutual

/-- The directories at a path and below it that are entered under the names that `enter` allows, each
    before those inside it, and otherwise by name. -/
def directoriesFrom (enter : String → Bool) (p : Path) : Tree → List Path
  | file _ => []
  | directory entries => p :: (byName (directoriesOf enter p entries)).flatMap (·.2)

def directoriesOf (enter : String → Bool) (p : Path) :
    List (String × Tree) → List (String × List Path)
  | [] => []
  | (name, t) :: entries =>
    let others := directoriesOf enter p entries
    if enter name then (name, t.directoriesFrom enter (p.child name)) :: others else others

end

def setEntry (name : String) (t : Tree) : List (String × Tree) → List (String × Tree)
  | [] => [(name, t)]
  | (other, u) :: entries =>
    if other = name then (name, t) :: entries else (other, u) :: setEntry name t entries

/-- Puts a tree at the end of a list of names, with directories on the way to it. A directory that is
    there already stays when an empty one is put. -/
def put : Tree → List String → Tree → Tree
  | old, [], new =>
    match old, new with
    | directory _, directory [] => old
    | _, _ => new
  | old, name :: names, new =>
    let inner := (old.entries.lookup name).getD empty
    .directory (setEntry name (inner.put names new) old.entries)

end Tree

end Workspace

open Workspace in
/-- All directories, and the names that lead from the root to the current one. -/
structure Workspace where
  tree : Tree
  current : List String

namespace Workspace

/-- The names that lead from the root to a path. -/
def locate (w : Workspace) (p : Path) : List String :=
  ((Path.mk true (w.current.map .into)).join p).clean.steps.filterMap Step.name?

def find (w : Workspace) (p : Path) : Except ReadError Tree := w.tree.at? (w.locate p)

def isDirectory (w : Workspace) (p : Path) : Bool :=
  match w.find p with
  | .ok t => t.isDirectory
  | .error _ => false

def read (w : Workspace) (p : Path) : Except ReadError String := do (← w.find p).text

end Workspace

end StackLattice
