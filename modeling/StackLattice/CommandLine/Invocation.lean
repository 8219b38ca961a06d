/-!
What a command line asks for, and why it may ask for nothing that can be done.
-/

namespace StackLattice.CommandLine

/-- Settings from flags that every command has. -/
structure GlobalFlags where
  exclude : Option String := none
  package : Option String := none
  concurrency : Option Nat := none
  logLevel : Option String := none
  noColor : Bool := false
deriving DecidableEq, Repr

/-- Flags that stand behind a command win over those before it. -/
def GlobalFlags.over (inner outer : GlobalFlags) : GlobalFlags :=
  { exclude := inner.exclude.orElse fun _ => outer.exclude
    package := inner.package.orElse fun _ => outer.package
    concurrency := inner.concurrency.orElse fun _ => outer.concurrency
    logLevel := inner.logLevel.orElse fun _ => outer.logLevel
    noColor := inner.noColor || outer.noColor }

/-- How instances are printed, and which. -/
structure Printing where
  onlyErrors : Bool := false
  hideErrors : Bool := false
  path : Option String := none
  arguments : List String := []
deriving DecidableEq, Repr

/-- An empty path is none. -/
def Printing.path? (p : Printing) : Option String := p.path.filter (!·.isEmpty)

structure Invocation where
  globals : GlobalFlags
  printing : Printing
deriving DecidableEq, Repr

inductive UsageError
  /-- Help is asked for. -/
  | help
  /-- The version is asked for. -/
  | version
  /-- There are no arguments at all. -/
  | nothing
  | missingCommand
  | unknownCommand (name : String)
  | unknownFlag (text : String)
  /-- Behind `--`, a command is no command. -/
  | escapedCommand (name : String)
  | repeated (flag : String)
  | conflict (flag other : String)
  | missingValue (flag : String)
  | badValue (flag value : String)
  /-- A flag that is on or off is given a value. -/
  | needlessValue (flag value : String)
deriving DecidableEq, Repr

namespace UsageError

def message : UsageError → String
  | help | nothing =>
    "Usage: stx [OPTIONS] print [--only-errors | --hide-errors] [--path <DOT.PATH>] [ARGS]...\n" ++
    "\nOptions: --exclude <REGEX>, --package <NAME>, --concurrency <N>, --log-level <FILTER>, --no-color"
  | version => "stx 0.1.0"
  | missingCommand => "a command is required"
  | unknownCommand name => "unrecognized command '" ++ name ++ "'"
  | unknownFlag text => "unexpected argument '" ++ text ++ "' found"
  | escapedCommand name => "command '" ++ name ++ "' cannot stand behind '--'"
  | repeated flag => "'" ++ flag ++ "' cannot be used multiple times"
  | conflict flag other => "'" ++ flag ++ "' cannot be used with '" ++ other ++ "'"
  | missingValue flag => "a value is required for '" ++ flag ++ "'"
  | badValue flag value => "invalid value '" ++ value ++ "' for '" ++ flag ++ "'"
  | needlessValue flag value => "unexpected value '" ++ value ++ "' for '" ++ flag ++ "'"

/-- Whether it is an answer to what was asked. -/
def isAnswer : UsageError → Bool
  | help | version => true
  | _ => false

def exitCode (e : UsageError) : Nat := if e.isAnswer then 0 else 2

end UsageError

end StackLattice.CommandLine
