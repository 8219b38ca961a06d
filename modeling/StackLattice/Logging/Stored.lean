import StackLattice.Document.Reader
import StackLattice.Logging.Settings

/-!
Log settings in the text of a document: an object, or a list of values in the order of the settings. What
is not given is as by default.
-/

namespace StackLattice.Logging

open Document.Reader

structure Given where
  level : Option String := none
  format : Option Format := none
  colors : Option Bool := none

namespace Given

variable (g : Given)

def settings : Settings :=
  let unset : Settings := {}
  { level := g.level.getD unset.level
    format := g.format.getD unset.format
    colors := g.colors.getD unset.colors }

def giveLevel (cs : List Char) : Option (Given × List Char) :=
  if g.level.isSome then none
  else (string cs).map fun (level, rest) => ({ g with level := some level }, rest)

def giveFormat (cs : List Char) : Option (Given × List Char) :=
  if g.format.isSome then none
  else (string cs).map fun (name, rest) => ({ g with format := some (.ofName name) }, rest)

def giveColors (cs : List Char) : Option (Given × List Char) :=
  if g.colors.isSome then none
  else (bool cs).map fun (colors, rest) => ({ g with colors := some colors }, rest)

/-- The value of a key. Nothing is given twice, and keys of no setting are passed over. -/
def giveKey (key : String) (cs : List Char) : Option (Given × List Char) :=
  match key with
  | "level" => g.giveLevel cs
  | "format" => g.giveFormat cs
  | "colors" => g.giveColors cs
  | _ => (pass cs).map fun rest => (g, rest)

def giveNext (cs : List Char) : Option (Given × List Char) :=
  if g.level.isNone then g.giveLevel cs
  else if g.format.isNone then g.giveFormat cs
  else g.giveColors cs

end Given

def Settings.ofText? (text : String) : Option Settings := do
  let (given, rest) ← match skipBlank text.toList with
    | '{' :: rest => entries (entry string Given.giveKey) {} rest
    | '[' :: rest => items Given.giveNext {} rest
    | _ => none
  if (skipBlank rest).isEmpty then return given.settings else none

end StackLattice.Logging
