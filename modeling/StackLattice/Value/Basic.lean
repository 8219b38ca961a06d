import StackLattice.Syntax.Tree

/-!
Values of the configuration language. They form a lattice: `top` admits everything, a kind admits
the scalars of one type, a disjunction admits what any of its alternatives does. Only concrete
values have a document.
-/

namespace StackLattice

open Decimal (Binary64)
open Syntax (LabelKind)

inductive Kind
  | bool
  | int
  | float
  /-- Either kind of number. -/
  | number
  | string
deriving DecidableEq, Repr

namespace Kind

def name : Kind → String
  | bool => "bool"
  | int => "int"
  | float => "float"
  | number => "number"
  | string => "string"

def ofName? : String → Option Kind
  | "bool" => some bool
  | "int" => some int
  | "float" => some float
  | "number" => some number
  | "string" => some string
  | _ => none

/-- What both kinds admit. -/
def meet : Kind → Kind → Option Kind
  | number, int | int, number => some int
  | number, float | float, number => some float
  | a, b => if a = b then some a else none

end Kind

/-- A field of a struct. It is optional when every declaration of it is; the position is that of the
    first declaration, when there is one. -/
structure Field (V : Type) where
  label : String
  kind : LabelKind := .regular
  optional : Bool := false
  position : Option Position := none
  value : V

/-- An alternative of a disjunction, marked when it is a default. -/
structure Alternative (V : Type) where
  value : V
  marked : Bool

inductive Value
  | top
  | kind (k : Kind)
  | null
  | bool (b : Bool)
  | int (n : Int)
  | float (x : Binary64)
  | string (s : String)
  /-- Fields in the order of their first declaration, no two with one label. -/
  | struct (fields : List (Field Value))
  | list (items : List Value)
  | disjunction (alternatives : List (Alternative Value))

instance : Inhabited Value := ⟨.top⟩

def Field.find? {V : Type} (fields : List (Field V)) (label : String) : Option (Field V) :=
  fields.find? (·.label == label)

def Field.isExported {V : Type} (f : Field V) : Bool := f.kind == .regular && !f.optional

def Alternative.anyMarked {V : Type} (alternatives : List (Alternative V)) : Bool :=
  alternatives.any (·.marked)

/-- Whether a value is a scalar of the kind. -/
def Kind.admits : Kind → Value → Bool
  | .bool, .bool _ => true
  | .int, .int _ | .number, .int _ => true
  | .float, .float _ | .number, .float _ => true
  | .string, .string _ => true
  | _, _ => false

namespace Value

def typeName : Value → String
  | top => "_"
  | kind k => k.name
  | null => "null"
  | bool _ => "bool"
  | int _ => "int"
  | float _ => "float"
  | string _ => "string"
  | struct _ => "struct"
  | list _ => "list"
  | disjunction _ => "disjunction"

/-- What a value stands for in the output: the only default of a disjunction, or the value itself. -/
def resolved : Value → Option Value
  | disjunction alternatives =>
    match alternatives.filter (·.marked) with
    | [only] => some only.value
    | _ => none
  | v => some v

mutual

/-- The value as messages show it; structs and lists are not opened. -/
def render : Value → String
  | top => "_"
  | kind k => k.name
  | null => "null"
  | bool b => if b then "true" else "false"
  | int n => toString n
  | float x => Decimal.Layout.value.render x
  | string s => Text.shown s
  | struct _ => "\x7b...\x7d"
  | list _ => "[...]"
  | disjunction alternatives => " | ".intercalate (renderAll alternatives)

def renderAll : List (Alternative Value) → List String
  | [] => []
  | ⟨value, marked⟩ :: rest => ((if marked then "*" else "") ++ value.render) :: renderAll rest

end

mutual

/-- Equality of values. The order and the positions of fields do not count, and floats are compared
    as numbers. -/
def same : Value → Value → Bool
  | top, top | null, null => true
  | kind a, kind b => a == b
  | bool a, bool b => a == b
  | int a, int b => a == b
  | float a, float b => a.same b
  | string a, string b => a == b
  | struct xs, struct ys => xs.length == ys.length && sameFields xs ys
  | list xs, list ys => sameItems xs ys
  | disjunction xs, disjunction ys => sameAlternatives xs ys
  | _, _ => false

/-- Whether each field on the left has an equal one on the right. -/
def sameFields : List (Field Value) → List (Field Value) → Bool
  | [], _ => true
  | ⟨label, visibility, optional, _, value⟩ :: rest, ys =>
    (match Field.find? ys label with
      | some y => value.same y.value && visibility == y.kind && optional == y.optional
      | none => false) && sameFields rest ys

def sameItems : List Value → List Value → Bool
  | [], [] => true
  | x :: xs, y :: ys => x.same y && sameItems xs ys
  | _, _ => false

def sameAlternatives : List (Alternative Value) → List (Alternative Value) → Bool
  | [], [] => true
  | ⟨value, marked⟩ :: xs, y :: ys =>
    value.same y.value && marked == y.marked && sameAlternatives xs ys
  | _, _ => false

end

end Value

end StackLattice
