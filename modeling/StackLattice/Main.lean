import StackLattice.CommandLine.Program

/-!
The program. It gathers the directories that it may need, the variables and the arguments, and does what is
decided about them.
-/

namespace StackLattice.CommandLine

open Workspace (Tree ReadError)

/-- Whether the content of a file may be asked for. -/
def isWanted (name : String) : Bool :=
  Workspace.extension? name == some sourceExtension || name == Layer.fileName

def contentOf (entry : IO.FS.DirEntry) : IO (Except ReadError String) := do
  if isWanted entry.fileName then
    try
      let bytes ← IO.FS.readBinFile entry.path
      return (String.fromUTF8? bytes).elim (.error .notText) .ok
    catch e => return .error (.other (toString e))
  else return .ok ""

/-- What stands at a place, if anything does. -/
partial def treeOf (entry : IO.FS.DirEntry) : IO (Option Tree) := do
  if ← entry.path.isDir then
    let inner ← try entry.path.readDir catch _ => pure #[]
    let trees ← inner.toList.filterMapM fun e => do return (← treeOf e).map fun t => (e.fileName, t)
    return some (.directory trees)
  else if ← entry.path.pathExists then return some (.file (← contentOf entry))
  else return none

/-- The place that names lead to from the root. -/
def place (names : List String) : IO.FS.DirEntry :=
  ⟨"/" ++ "/".intercalate names.dropLast, names.getLast?.getD ""⟩

def gather (w : Workspace) (names : List String) : IO Workspace := do
  match ← treeOf (place names) with
  | some t => return { w with tree := w.tree.put names t }
  | none => return w

/-- The places that a list of arguments leads to, other than those in the current directory. -/
def outside (w : Workspace) (arguments : List String) : List (List String) :=
  let places := arguments.map fun a =>
    match Argument.ofString a with
    | .below base => w.locate (.ofString base)
    | .file | .directory => w.locate (.ofString a)
  places.filter fun names => !w.current.isPrefixOf names

def filesAbove (current : List String) : List (List String) :=
  (List.range current.length).map fun n => current.take n ++ [Layer.fileName]

def variableNames : List String :=
  Configuration.keys.map (fun key => "STX_" ++ key.map Char.toUpper) ++
    [Logging.Settings.levelVariable, Logging.Settings.commonLevelVariable, "CLICOLOR_FORCE", "NO_COLOR",
      "CLICOLOR"]

def surroundings (arguments : List String) : IO Surroundings := do
  let current := ((← IO.currentDir).toString.splitOn "/").filter (· ≠ "")
  let empty : Workspace := { tree := .empty, current }
  let named := ((read arguments).toOption.map (·.printing.arguments)).getD []
  let workspace ← (filesAbove current ++ outside empty named ++ [current]).foldlM gather empty
  let environment ← variableNames.filterMapM fun name => do
    return (← IO.getEnv name).map fun value => (name, value)
  return { workspace, environment, terminal := ← (← IO.getStdout).isTty }

end StackLattice.CommandLine

open StackLattice.CommandLine in
def main (arguments : List String) : IO UInt32 := do
  let ending := run (← surroundings arguments) arguments
  IO.print ending.output
  match ending.complaint with
  | some text => IO.eprintln text
  | none => pure ()
  return UInt32.ofNat ending.code
