import StackLattice.CommandLine.Invocation
import StackLattice.Decimal.Read
import StackLattice.Text.Split

/-!
Reading a command line. Arguments are read from left to right. The value of a flag may stand in the argument
behind it; whether it will do is seen when the next flag or plain argument comes, or at the end.
-/

namespace StackLattice.CommandLine

inductive Flag
  | exclude
  | package
  | concurrency
  | logLevel
  | noColor
  | onlyErrors
  | hideErrors
  | path
  | help
  | version
deriving DecidableEq, Repr

namespace Flag

def name : Flag → String
  | exclude => "exclude"
  | package => "package"
  | concurrency => "concurrency"
  | logLevel => "log-level"
  | noColor => "no-color"
  | onlyErrors => "only-errors"
  | hideErrors => "hide-errors"
  | path => "path"
  | help => "help"
  | version => "version"

def letter? : Flag → Option Char
  | path => some 'p'
  | help => some 'h'
  | version => some 'V'
  | _ => none

def text (f : Flag) : String := "--" ++ f.name

def takesValue : Flag → Bool
  | exclude | package | concurrency | logLevel | path => true
  | noColor | onlyErrors | hideErrors | help | version => false

def globals : List Flag := [exclude, package, concurrency, logLevel, noColor, help]

end Flag

/-- Where an argument stands. -/
inductive Level
  /-- Before the command. -/
  | outer
  /-- Behind `print`. -/
  | print
deriving DecidableEq, Repr

def Level.flags : Level → List Flag
  | outer => .version :: Flag.globals
  | print => [.onlyErrors, .hideErrors, .path] ++ Flag.globals

/-- What an argument looks like. -/
inductive Shape
  /-- `--` -/
  | escape
  /-- `--name` or `--name=value` -/
  | long (name : List Char) (value : Option (List Char))
  /-- `-letters` -/
  | short (letters : List Char)
  | plain

def Shape.of (argument : String) : Shape :=
  match argument.toList with
  | ['-', '-'] => escape
  | '-' :: '-' :: rest =>
    let (name, value) := Text.cut '=' rest
    long name value
  | '-' :: c :: rest => short (c :: rest)
  | _ => plain

structure Reading where
  /-- Flags with their values; those that take none have an empty one. -/
  given : List (Flag × String) := []
  /-- The last flag that takes a value from the argument behind it, and that value once it is there. -/
  pending : Option (Flag × Option String) := none
  arguments : List String := []
  /-- Whether all that follows are plain arguments. -/
  escaped : Bool := false

namespace Reading

variable (r : Reading)

def value? (f : Flag) : Option String := r.given.lookup f

def has (f : Flag) : Bool := (r.value? f).isSome

/-- The limit that a text gives. -/
def limit? (text : String) : Option Nat := Decimal.naturalBelow 10 (1 <<< 64) text.toList

def record (f : Flag) (value : String) : Except UsageError Reading :=
  if r.has f then .error (.repeated f.text)
  else if f = .concurrency ∧ limit? value = none then .error (.badValue f.text value)
  else .ok { r with given := (f, value) :: r.given }

/-- Takes the pending flag with its value. -/
def settle : Except UsageError Reading :=
  match r.pending with
  | none => .ok r
  | some (f, none) => .error (.missingValue f.text)
  | some (f, some value) => { r with pending := none }.record f value

def switch (f : Flag) : Except UsageError Reading := do
  let r ← r.settle
  match f with
  | .help => throw .help
  | .version => throw .version
  | f => r.record f ""

/-- A flag that takes a value: the one it has, or one that is still to come. -/
def option (f : Flag) (value : Option String) : Except UsageError Reading := do
  let r ← r.settle
  match value with
  | some value => r.record f value
  | none => return { r with pending := some (f, none) }

def long (level : Level) (name : List Char) (value : Option (List Char)) :
    Except UsageError Reading :=
  let name := String.ofList name
  match level.flags.find? (·.name = name), value.map String.ofList with
  | none, _ => .error (.unknownFlag ("--" ++ name))
  | some f, value =>
    if f.takesValue then r.option f value
    else
      match value with
      | some value => .error (.needlessValue f.text value)
      | none => r.switch f

/-- Letters of flags; what stands behind the letter of a flag that takes a value is its value. -/
def short (level : Level) : Reading → List Char → Except UsageError Reading
  | r, [] => .ok r
  | r, c :: rest =>
    match level.flags.find? (·.letter? = some c) with
    | none => .error (.unknownFlag (String.ofList ['-', c]))
    | some f =>
      if f.takesValue then
        match rest with
        | [] => r.option f none
        | '=' :: value => r.option f (some (String.ofList value))
        | value => r.option f (some (String.ofList value))
      else do short level (← r.switch f) rest

def awaitsValue : Bool :=
  match r.pending with
  | some (_, none) => true
  | _ => false

def plain (argument : String) : Except UsageError Reading :=
  match r.pending, r.escaped with
  | some (f, none), false => .ok { r with pending := some (f, some argument) }
  | _, _ => do
    let r ← r.settle
    return { r with arguments := r.arguments ++ [argument] }

/-- An argument that is no command. -/
def next (level : Level) (argument : String) : Except UsageError Reading :=
  if r.escaped then r.plain argument
  else
    match Shape.of argument with
    | .escape => .ok { r with escaped := true }
    | .long name value => r.long level name value
    | .short letters => short level r letters
    | .plain => r.plain argument

def globals : GlobalFlags :=
  { exclude := r.value? .exclude
    package := r.value? .package
    concurrency := (r.value? .concurrency).bind limit?
    logLevel := r.value? .logLevel
    noColor := r.has .noColor }

end Reading

/-- Reads what stands behind `print`. -/
def readPrint (arguments : List String) : Except UsageError (GlobalFlags × Printing) := do
  let r ← arguments.foldlM (fun r a => Reading.next r .print a) {}
  let r ← r.settle
  if r.has .onlyErrors && r.has .hideErrors then
    throw (.conflict Flag.onlyErrors.text Flag.hideErrors.text)
  return (r.globals, ⟨r.has .onlyErrors, r.has .hideErrors, r.value? .path, r.arguments⟩)

def printCommand : String := "print"

def helpCommand : String := "help"

def isCommand (name : String) : Bool := name == printCommand || name == helpCommand

/-- What `help` finds for the names behind it: commands have no commands of their own. -/
def readHelp : List String → UsageError
  | [] => .help
  | name :: others =>
    if isCommand name then
      match others with
      | [] => .help
      | other :: _ => .unknownCommand other
    else .unknownCommand name

/-- Reads what stands before the command, and the command. -/
def readOuter : Reading → List String → Except UsageError Invocation
  | r, [] => do
    let r ← r.settle
    throw (if r.given.isEmpty then .nothing else .missingCommand)
  | r, argument :: rest =>
    if r.escaped then
      .error (if isCommand argument then .escapedCommand argument else .unknownCommand argument)
    else if !r.awaitsValue && argument == printCommand then do
      let (inner, printing) ← readPrint rest
      let r ← r.settle
      return ⟨inner.over r.globals, printing⟩
    else if !r.awaitsValue && argument == helpCommand then .error (readHelp rest)
    else
      match Shape.of argument, r.awaitsValue with
      | .plain, false => .error (.unknownCommand argument)
      | _, _ => do readOuter (← r.next .outer argument) rest

def read (arguments : List String) : Except UsageError Invocation := readOuter {} arguments

end StackLattice.CommandLine
