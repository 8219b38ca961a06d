import StackLattice.Text.Quoted
import StackLattice.Toml.Scalar

/-!
Tables of TOML, and how statements add to them. No key is given a value twice, and a table that a statement
has closed is not added to.
-/

namespace StackLattice.Toml

/-- How a table came to be. -/
inductive Origin
  /-- Its own header opened it. -/
  | header
  /-- The header of a table inside it is there. -/
  | implied
  /-- A key with dots leads into it. -/
  | dotted
  /-- It stands on the line of its key. -/
  | inline
deriving DecidableEq, Repr

inductive Item
  | bool (b : Bool)
  | integer (n : Int)
  | float (x : Decimal.Binary64)
  | string (s : String)
  /-- A date or a time. -/
  | moment
  | list (items : List Item)
  | table (origin : Origin) (entries : List (String × Item))
  /-- Tables with one header, last first. -/
  | tables (all : List (List (String × Item)))

instance : Inhabited Item := ⟨.moment⟩

abbrev Entries := List (String × Item)

inductive Fault
  | unreadable (line : Nat)
  | repeatedKey (key : String)
  /-- What is added to is no table, or one that is closed. -/
  | notOpen (key : String)
deriving DecidableEq, Repr

def Fault.message : Fault → String
  | unreadable line => "line " ++ toString line ++ " cannot be read"
  | repeatedKey key => "key " ++ Text.shown key ++ " is given twice"
  | notOpen key => "nothing can be added to " ++ Text.shown key

namespace Entries

def put (key : String) (item : Item) : Entries → Entries
  | [] => [(key, item)]
  | (other, old) :: entries =>
    if other = key then (key, item) :: entries else (other, old) :: put key item entries

/-- Adds an item at the end of a key with dots, of which `path` is all but the last part. Tables on the way
    must not have been opened by a header, and the last of them must have come from such keys. -/
def add (key : String) (item : Item) :
    List String → Entries → Except Fault Entries
  | [], entries =>
    if (entries.lookup key).isSome then .error (.repeatedKey key) else .ok (put key item entries)
  | part :: path, entries => do
    let within (origin : Origin) (inner : Entries) : Except Fault Entries := do
      if path.isEmpty && origin ≠ .dotted then throw (.repeatedKey key)
      add key item path inner
    match entries.lookup part with
    | none => return put part (.table .dotted (← within .dotted [])) entries
    | some (.table .implied inner) => return put part (.table .implied (← within .implied inner)) entries
    | some (.table .dotted inner) => return put part (.table .dotted (← within .dotted inner)) entries
    | some (.tables (inner :: before)) =>
      return put part (.tables ((← within .header inner) :: before)) entries
    | some _ => throw (.notOpen part)

/-- Changes the table at the end of the path of a header. -/
def change (f : Entries → Except Fault Entries) : List String → Entries → Except Fault Entries
  | [], entries => f entries
  | part :: path, entries => do
    match entries.lookup part with
    | none => return put part (.table .implied (← change f path [])) entries
    | some (.table .inline _) => throw (.notOpen part)
    | some (.table origin inner) => return put part (.table origin (← change f path inner)) entries
    | some (.tables (inner :: before)) =>
      return put part (.tables ((← change f path inner) :: before)) entries
    | some _ => throw (.notOpen part)

/-- Opens the table of a header. -/
def openTable (key : String) (entries : Entries) : Except Fault Entries :=
  match entries.lookup key with
  | none => .ok (put key (.table .header []) entries)
  | some (.table .implied inner) => .ok (put key (.table .header inner) entries)
  | some _ => .error (.repeatedKey key)

/-- Opens one more of the tables with a header. -/
def openNext (key : String) (entries : Entries) : Except Fault Entries :=
  match entries.lookup key with
  | none => .ok (put key (.tables [[]]) entries)
  | some (.tables all) => .ok (put key (.tables ([] :: all)) entries)
  | some _ => .error (.repeatedKey key)

end Entries

end StackLattice.Toml
