import StackLattice.Text.Split

/-!
Paths. Two spellings that differ only in `.` steps, repeated separators and `..` steps that undo a name
have one clean form.
-/

namespace StackLattice.Workspace

inductive Step
  /-- `.` -/
  | stay
  /-- `..` -/
  | up
  | into (name : String)
deriving DecidableEq, Repr

def Step.name? : Step → Option String
  | into name => some name
  | _ => none

def Step.render : Step → String
  | stay => "."
  | up => ".."
  | into name => name

structure Path where
  /-- Whether the path starts at the root of all directories. -/
  absolute : Bool
  steps : List Step
deriving DecidableEq, Repr

namespace Path

def here : Path := ⟨false, []⟩

def stepOf (piece : List Char) : Option Step :=
  match piece with
  | [] => none
  | ['.'] => some .stay
  | ['.', '.'] => some .up
  | _ => some (.into (String.ofList piece))

def ofString (s : String) : Path :=
  ⟨s.toList.head? == some '/', (Text.pieces '/' s.toList).filterMap stepOf⟩

/-- The steps as they stand; none are written for the current directory. -/
def spelled (p : Path) : String :=
  (if p.absolute then "/" else "") ++ "/".intercalate (p.steps.map Step.render)

/-- What the path is called where an empty name would be lost: the current directory is `.`. -/
def render (p : Path) : String := if p.spelled.isEmpty then "." else p.spelled

/-- The path of `q` as seen from `p`. -/
def join (p q : Path) : Path := if q.absolute then q else { p with steps := p.steps ++ q.steps }

def child (p : Path) (name : String) : Path := { p with steps := p.steps ++ [.into name] }

/-- One more step on a way given by its last step first: `..` undoes a name, leads nowhere from the
    root, and is kept otherwise. -/
def walk (absolute : Bool) (way : List Step) : Step → List Step
  | .stay => way
  | .into name => .into name :: way
  | .up =>
    match way with
    | .into _ :: rest => rest
    | .up :: _ | .stay :: _ => .up :: way
    | [] => if absolute then [] else [.up]

/-- The clean form. It is found without looking at directories. -/
def clean (p : Path) : Path := { p with steps := (p.steps.foldl (walk p.absolute) []).reverse }

/-- The last name, unless the path ends in `..` or names nothing. -/
def fileName? (p : Path) : Option String :=
  (p.steps.filter (· ≠ .stay)).getLast?.bind Step.name?

def parent? (p : Path) : Option Path :=
  if p.steps.isEmpty then none else some { p with steps := p.steps.dropLast }

/-- The names from a directory down to a path below it, for clean paths. -/
def below? (root p : Path) : Option (List String) := do
  guard (root.absolute = p.absolute)
  let rest ← root.steps.isPrefixOf? p.steps
  rest.mapM Step.name?

end Path

/-- What stands behind the last dot of a name, if the name does not start with that dot. -/
def extension? (name : String) : Option String :=
  match name.toList.reverse.span (· ≠ '.') with
  | (suffix, _ :: _ :: _) => some (String.ofList suffix.reverse)
  | _ => none

end StackLattice.Workspace
