import StackLattice.CommandLine.Invocation
import StackLattice.Configuration.Setting
import StackLattice.Logging.Settings
import StackLattice.Workspace.Tree

/-!
The configuration, made of layers: what holds by default, the file nearest to the current directory, the
variables, and the flags. A later layer wins, key by key; only what wins has to be of the right kind.
-/

namespace StackLattice

structure Configuration where
  package : String := "cfn"
  exclude : Option String := none
  concurrency : Option Nat := none
  logLevel : Option String := none
  logFormat : Option Logging.Format := none
  color : Bool := true
deriving DecidableEq, Repr

/-- Settings by key. A later entry for a key wins. -/
abbrev Layer := List (String × Setting)

inductive ConfigurationError
  | unreadableFile (e : Workspace.ReadError)
  | malformedFile (e : Toml.Fault)
  /-- The value of a key is of a kind that the setting does not have. -/
  | wrongKind (key : String)
deriving DecidableEq, Repr

namespace ConfigurationError

def reason : ConfigurationError → String
  | unreadableFile e => e.message
  | malformedFile e => e.message
  | wrongKind key => "invalid value for " ++ Text.shown key

def message (e : ConfigurationError) : String := "failed to load configuration: " ++ e.reason

end ConfigurationError

namespace Setting

def text? : Setting → Option String
  | text s => some s
  | _ => none

def bool? : Setting → Option Bool
  | bool b => some b
  | _ => none

def limit? : Setting → Option Nat
  | integer n => if 0 ≤ n then some n.toNat else none
  | _ => none

def format? (s : Setting) : Option Logging.Format := s.text?.map Logging.Format.ofName

end Setting

namespace Layer

def fileName : String := "stx.toml"

/-- What variables of settings start with, in any case. -/
def variablePrefix : String := "stx_"

def ofFile (text : String) : Except ConfigurationError Layer :=
  match Toml.read text with
  | .ok entries => .ok (entries.map fun (key, item) => (key, .ofItem item))
  | .error e => .error (.malformedFile e)

/-- The setting of a variable. A key with dots stands for tables. -/
def ofVariable? (name value : String) : Option (String × Setting) := do
  let name := (Text.trim name.toList).map Char.toLower
  let key ← variablePrefix.toList.isPrefixOf? name
  match Text.pieces '.' (Text.trim key) with
  | [] => none
  | part :: parts =>
    if part.isEmpty || parts.any (·.isEmpty) then none
    else if parts.isEmpty then return (String.ofList part, .ofText value)
    else return (String.ofList part, .table)

def ofVariables (environment : List (String × String)) : Layer :=
  environment.filterMap fun (name, value) => ofVariable? name value

/-- Flags that are not given leave the layers below alone. -/
def ofFlags (flags : CommandLine.GlobalFlags) : Layer :=
  let entry (key : String) (value : Option Setting) : Layer := (value.map fun s => (key, s)).toList
  entry "package" (flags.package.map .text) ++ entry "exclude" (flags.exclude.map .text) ++
    entry "concurrency" (flags.concurrency.map fun n => .integer n) ++
    entry "log_level" (flags.logLevel.map .text) ++
    entry "color" (if flags.noColor then some (.bool false) else none)

def get? (layer : Layer) (key : String) : Option Setting := layer.reverse.lookup key

end Layer

/-- The file of a name in the current directory, or else in the nearest one above that has it. -/
def Workspace.nearest? (w : Workspace) (name : String) : Option (Except Workspace.ReadError String) :=
  let directories := (List.range (w.current.length + 1)).reverse.map fun n => w.current.take n
  directories.findSome? fun names =>
    match w.tree.at? (names ++ [name]) with
    | .ok (.file content) => some content
    | _ => none

namespace Configuration

def keys : List String := ["package", "exclude", "concurrency", "log_level", "log_format", "color"]

def setting {α : Type} (layer : Layer) (key : String) (read : Setting → Option α) :
    Except ConfigurationError (Option α) :=
  match layer.get? key with
  | none => .ok none
  | some s =>
    match read s with
    | some a => .ok (some a)
    | none => .error (.wrongKind key)

/-- The configuration that a layer makes of the default one. -/
def ofLayer (layer : Layer) : Except ConfigurationError Configuration := do
  let unset : Configuration := {}
  return {
    package := (← setting layer "package" Setting.text?).getD unset.package
    exclude := ← setting layer "exclude" Setting.text?
    concurrency := ← setting layer "concurrency" Setting.limit?
    logLevel := ← setting layer "log_level" Setting.text?
    logFormat := ← setting layer "log_format" Setting.format?
    color := (← setting layer "color" Setting.bool?).getD unset.color }

def fileLayer (w : Workspace) : Except ConfigurationError Layer :=
  match w.nearest? Layer.fileName with
  | none => .ok []
  | some (.error e) => .error (.unreadableFile e)
  | some (.ok text) => Layer.ofFile text

def load (w : Workspace) (environment : List (String × String)) (flags : CommandLine.GlobalFlags) :
    Except ConfigurationError Configuration := do
  ofLayer ((← fileLayer w) ++ Layer.ofVariables environment ++ Layer.ofFlags flags)

/-- Log settings: those of the configuration, where it has them, and else those of the variables. -/
def logging (c : Configuration) (lookup : String → Option String) : Logging.Settings :=
  let s := Logging.Settings.ofVariables lookup
  { level := c.logLevel.getD s.level
    format := c.logFormat.getD s.format
    colors := c.color }

end Configuration

end StackLattice
