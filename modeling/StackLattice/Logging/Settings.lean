import StackLattice.Document.Basic

/-!
Which log lines are written, and how.
-/

namespace StackLattice.Logging

/-- How a log line is written. -/
inductive Format
  /-- On one line. -/
  | compact
  /-- On several lines. -/
  | pretty
  /-- As a document on one line. -/
  | json
deriving DecidableEq, Repr

namespace Format

def name : Format → String
  | compact => "compact"
  | pretty => "pretty"
  | json => "json"

structure Unknown where
  name : String
deriving DecidableEq, Repr

def Unknown.message (e : Unknown) : String := "unknown log format " ++ Text.shown e.name

/-- The format of a name, in which the case of ASCII letters does not count. -/
def read (name : String) : Except Unknown Format :=
  let lower := String.ofList (name.toList.map Char.toLower)
  match [compact, pretty, json].find? (·.name = lower) with
  | some format => .ok format
  | none => .error ⟨lower⟩

/-- Where nothing can be reported, names that no format has stand for `compact`. -/
def ofName (name : String) : Format := (read name).toOption.getD compact

theorem read_name (format : Format) : read format.name = .ok format := by
  cases format <;> rfl

end Format

structure Settings where
  /-- Directives that choose lines. -/
  level : String := "warn"
  format : Format := .compact
  colors : Bool := true
deriving DecidableEq, Repr

namespace Settings

/-- Settings for those who work on the program itself. -/
def development : Settings := { level := "debug", format := .pretty }

def levelVariable : String := "STX_LOG"

/-- Gives the level when the other variable is not set. -/
def commonLevelVariable : String := "RUST_LOG"

def formatVariable : String := "STX_LOG_FORMAT"

/-- Settings from variables. -/
def ofVariables (lookup : String → Option String) : Settings :=
  { level := ((lookup levelVariable).orElse fun _ => lookup commonLevelVariable).getD "warn"
    format := ((lookup formatVariable).map Format.ofName).getD .compact }

def document (s : Settings) : Document :=
  .object [("level", .string s.level), ("format", .string s.format.name), ("colors", .bool s.colors)]

end Settings

end StackLattice.Logging
