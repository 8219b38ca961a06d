import StackLattice.Logging.Settings
import StackLattice.Pattern.Parser
import StackLattice.Text.Input
import StackLattice.Text.Split

/-!
Filters of log lines: directives between commas, each `target[span{field=value}]=level`, where all parts but
one may be missing. A part alone is a level when it names one, and a target otherwise.
-/

namespace StackLattice.Logging

open Text (Input)

inductive Level
  | off
  | error
  | warn
  | info
  | debug
  | trace
deriving DecidableEq, Repr

namespace Level

def all : List Level := [off, error, warn, info, debug, trace]

def name : Level → String
  | off => "off"
  | error => "error"
  | warn => "warn"
  | info => "info"
  | debug => "debug"
  | trace => "trace"

/-- The level of a number or of a name in any case. No text at all stands for errors. -/
def ofText? (cs : List Char) : Option Level :=
  match (Decimal.naturalBelow 10 (1 <<< 64) cs).bind (all[·]?) with
  | some level => some level
  | none =>
    if cs.isEmpty then some error
    else
      let lower := String.ofList (cs.map Char.toLower)
      all.find? (·.name = lower)

end Level

/-- A field that has to be there, and what is asked of its value. -/
structure FieldTest where
  name : String
  value : Option String := none
deriving DecidableEq, Repr

namespace FieldTest

def asksForWords : Pattern.Assertion → Bool
  | .word _ ascii => !ascii
  | _ => false

/-- A value is a truth value, a number, or a pattern that does not ask where words of all scripts end. -/
def isValue (cs : List Char) : Bool :=
  cs == "true".toList || cs == "false".toList || (Decimal.readFloat cs).isSome ||
    match Pattern.read (String.ofList cs) with
    | .ok p => !p.hasAssertion asksForWords
    | .error _ => false

/-- Reads a name with a value behind `=`; what stands behind another `=` does not count. -/
def read (cs : List Char) : Option FieldTest :=
  match Text.pieces '=' cs with
  | [] => none
  | [name] => some { name := String.ofList name }
  | name :: value :: _ =>
    if isValue value then some ⟨String.ofList name, some (String.ofList value)⟩ else none

end FieldTest

/-- Which lines are written: those of a target, in a span, with fields, up to a level. -/
structure Directive where
  target : Option String := none
  span : Option String := none
  fields : List FieldTest := []
  level : Level := .trace
deriving DecidableEq, Repr

namespace Directive

/-- Characters that a target or a level starts with. -/
def isStart (c : Char) : Bool := c == '-' || c == ':' || c == '_' || Text.isAlphanumeric c

section Reading

-- `text` is the whole text of the directive.
variable (text : List Char)

def part (start stop : Nat) : Option String := (Text.sliceBytes start stop text).map String.ofList

/-- The level from an offset on; no text at all leaves everything in. -/
def levelFrom (start : Nat) : Option Level := do
  let (_, cs) ← Text.splitBytes start text
  if cs.isEmpty then some .trace else Level.ofText? cs

/-- From behind a span. -/
def afterSpan (d : Directive) (i : Input) : Option Directive :=
  match i.rest with
  | [] => some d
  | '=' :: _ => (levelFrom text (i.offset + 1)).map fun level => { d with level }
  | _ => none

/-- From behind an opening brace. -/
def fromField (d : Directive) (i : Input) : Option Directive := do
  let stop := i.skipWhile (· ≠ '}')
  let field ← Text.sliceBytes i.offset stop.offset text
  if field.isEmpty then none
  let test ← FieldTest.read field
  match stop.rest with
  | '}' :: ']' :: _ => afterSpan text { d with fields := [test] } (stop.skipMany 2)
  | _ => none

/-- From behind an opening bracket. -/
def fromSpan (d : Directive) (i : Input) : Option Directive := do
  let stop := i.skipWhile fun c => c ≠ ']' && c ≠ '{'
  let span ← part text i.offset stop.offset
  match stop.rest with
  | ']' :: _ => afterSpan text { d with span := some span } stop.skip
  | '{' :: _ =>
    fromField text { d with span := if span.isEmpty then none else some span } stop.skip
  | _ => none

/-- A level or a target, with what follows a target. -/
def fromTarget (i : Input) : Option Directive :=
  let stop := i.skipWhile fun c => c ≠ '=' && c ≠ '['
  match stop.rest with
  | [] =>
    match Level.ofText? text with
    | some level => some { level }
    | none => some { target := some (String.ofList text) }
  | '=' :: _ => do
    let target ← part text i.offset stop.offset
    return { target := some target, level := ← levelFrom text (stop.offset + 1) }
  | _ => do
    let target ← part text i.offset stop.offset
    fromSpan text { target := some target } stop.skip

end Reading

/-- Reads a directive. Blanks at either end do not end a part, but they count: what is found at an offset
    without them is cut out of the text at that offset with them. -/
def read (text : List Char) : Option Directive :=
  let i : Input := ⟨Text.trim text, 0⟩
  match i.rest with
  | [] => none
  | '[' :: _ => fromSpan text {} i.skip
  | c :: _ => if isStart c then fromTarget text i else none

end Directive

structure Unfit where
  text : String
  reason : String := "invalid filter directive"
deriving DecidableEq, Repr

def Unfit.message (e : Unfit) : String := "invalid log filter " ++ Text.shown e.text ++ ": " ++ e.reason

/-- The directives of a filter. Nothing may stand between two commas. -/
def directives (text : String) : Except Unfit (List Directive) :=
  match ((Text.pieces ',' text.toList).filter (!·.isEmpty)).mapM Directive.read with
  | some ds => .ok ds
  | none => .error { text }

end StackLattice.Logging
