import StackLattice.Value.Basic

/-!
Unification: the value that admits what both operands admit. Disjunctions distribute over it;
alternatives that clash drop out, and it is an error when none is left.
-/

namespace StackLattice

/-- Why two values have no common instance. -/
inductive Clash
  | values (left right : Value)
  | lengths (left right : Nat)
  | noAlternative
  /-- Every pair of alternatives clashes; the first clash is given. -/
  | everyAlternative (first : Clash)

def Clash.message : Clash → String
  | values left right =>
    let types :=
      if left.typeName = right.typeName then ""
      else " (mismatched types " ++ left.typeName ++ " and " ++ right.typeName ++ ")"
    "conflicting values " ++ left.render ++ " and " ++ right.render ++ types
  | lengths left right =>
    "incompatible list lengths (" ++ toString left ++ " and " ++ toString right ++ ")"
  | noAlternative => "empty disjunction"
  | everyAlternative first => "empty disjunction: " ++ first.message

/-- A clash, the labels that lead to it, outermost first, and the position of the innermost field on
    the way that has one. -/
structure Conflict where
  labels : List String := []
  clash : Clash
  position : Option Position := none

/-- The conflict seen from the field or element that contains it. -/
def Conflict.within (c : Conflict) (label : String) (position : Option Position) : Conflict :=
  { c with labels := label :: c.labels, position := c.position.or position }

namespace Alternative

/-- Adds an alternative; an equal one that is already there takes over its mark. -/
def add (a : Alternative Value) : List (Alternative Value) → List (Alternative Value)
  | [] => [a]
  | u :: us =>
    if u.value.same a.value then ⟨u.value, u.marked || a.marked⟩ :: us else u :: add a us

/-- Alternatives without repetitions, in the order of their first occurrence. -/
def dedup (alternatives : List (Alternative Value)) : List (Alternative Value) :=
  alternatives.foldl (fun seen a => add a seen) []

/-- The alternatives of an alternative. A marked disjunction keeps its own marks, or marks all of
    its alternatives when it has none. -/
def flatten (a : Alternative Value) : List (Alternative Value) :=
  match a.value with
  | .disjunction inner =>
    inner.map fun i => ⟨i.value, i.marked || (a.marked && !anyMarked inner)⟩
  | _ => [a]

end Alternative

namespace Value

/-- The disjunction of distinct alternatives: a single one is its value, and marks on all of them say
    nothing. -/
def ofDistinct : List (Alternative Value) → Value
  | [only] => only.value
  | alternatives =>
    disjunction <|
      if alternatives.all (·.marked) then alternatives.map fun a => { a with marked := false }
      else alternatives

def disjoin (alternatives : List (Alternative Value)) : Value :=
  ofDistinct (Alternative.dedup (alternatives.flatMap Alternative.flatten))

/-- The result of unifying one pair of alternatives, and the mark it has if it succeeds. -/
structure Outcome where
  result : Except Conflict Value
  marked : Bool

def Outcome.alternative? (o : Outcome) : Option (Alternative Value) :=
  match o.result with
  | .ok value => some ⟨value, o.marked⟩
  | .error _ => none

def Outcome.conflict? (o : Outcome) : Option Conflict :=
  match o.result with
  | .ok _ => none
  | .error c => some c

/-- The disjunction of the pairs that unify, or the first conflict when none does. -/
def settle (outcomes : List Outcome) : Except Conflict Value :=
  match outcomes.filterMap Outcome.alternative? with
  | [] =>
    let first := (outcomes.findSome? Outcome.conflict?).getD { clash := .noAlternative }
    if 1 < outcomes.length then .error { first with clash := .everyAlternative first.clash }
    else .error first
  | alternatives => .ok (disjoin alternatives)

/-- What a field becomes when a later field of its label has been unified with it. -/
def joinField (f g : Field Value) (value : Value) : Field Value :=
  { f with optional := f.optional && g.optional, position := f.position.or g.position, value }

/-- The fields on the left, each replaced by what it became, then the new ones on the right. -/
def mergeFields (left met : List (Field Value)) : List (Field Value) :=
  left.map (fun f => (Field.find? met f.label).getD f) ++
    met.filter fun g => (Field.find? left g.label).isNone

theorem sizeOf_value_lt (f : Field Value) : sizeOf f.value < sizeOf f := by
  cases f
  simp only [Field.mk.sizeOf_spec]
  omega

theorem sizeOf_value_lt_of_mem {fields : List (Field Value)} {f : Field Value} (h : f ∈ fields) :
    sizeOf f.value < sizeOf fields :=
  Nat.lt_trans (sizeOf_value_lt f) (List.sizeOf_lt_of_mem h)

mutual

def unify (a b : Value) : Except Conflict Value :=
  match a, b with
  | top, b => .ok b
  | a, top => .ok a
  | disjunction xs, disjunction ys =>
    settle (unifyPairs (Alternative.anyMarked xs) (Alternative.anyMarked ys) xs ys)
  | disjunction xs, b => settle (unifyLeft (Alternative.anyMarked xs) xs b)
  | a, disjunction ys => settle (unifyRight (Alternative.anyMarked ys) a ys)
  | kind x, kind y =>
    match x.meet y with
    | some k => .ok (kind k)
    | none => .error { clash := .values a b }
  | kind k, b => if k.admits b then .ok b else .error { clash := .values a b }
  | a, kind k => if k.admits a then .ok a else .error { clash := .values a b }
  | struct xs, struct ys => do return struct (mergeFields xs (← unifyFields xs ys))
  | list xs, list ys =>
    if xs.length = ys.length then do return list (← unifyItems 0 xs ys)
    else .error { clash := .lengths xs.length ys.length }
  | a, b => if a.same b then .ok a else .error { clash := .values a b }
termination_by sizeOf a + sizeOf b

/-- The fields on the right, each unified with the field of its label on the left. -/
def unifyFields (xs ys : List (Field Value)) : Except Conflict (List (Field Value)) :=
  match ys with
  | [] => .ok []
  | g :: ys =>
    match _h : Field.find? xs g.label with
    | none => do return g :: (← unifyFields xs ys)
    | some f =>
      match unify f.value g.value with
      | .error c => .error (c.within g.label (f.position.or g.position))
      | .ok value => do return joinField f g value :: (← unifyFields xs ys)
termination_by sizeOf xs + sizeOf ys
decreasing_by
  · simp only [List.cons.sizeOf_spec]
    omega
  · have left := sizeOf_value_lt_of_mem (List.mem_of_find?_eq_some _h)
    have right := sizeOf_value_lt g
    simp only [List.cons.sizeOf_spec]
    omega
  · simp only [List.cons.sizeOf_spec]
    omega

/-- Elements pair by pair, counted from `index`. -/
def unifyItems (index : Nat) (xs ys : List Value) : Except Conflict (List Value) :=
  match xs, ys with
  | x :: xs, y :: ys =>
    match unify x y with
    | .error c => .error (c.within (toString index) none)
    | .ok value => do return value :: (← unifyItems (index + 1) xs ys)
  | _, _ => .ok []
termination_by sizeOf xs + sizeOf ys

/-- All pairs of alternatives. A side without marks counts as marked throughout. -/
def unifyPairs (leftMarked rightMarked : Bool) (xs ys : List (Alternative Value)) : List Outcome :=
  match xs with
  | [] => []
  | ⟨x, marked⟩ :: xs =>
    unifyRow (marked || !leftMarked) rightMarked x ys ++ unifyPairs leftMarked rightMarked xs ys
termination_by sizeOf xs + sizeOf ys

def unifyRow (marked rightMarked : Bool) (x : Value) (ys : List (Alternative Value)) : List Outcome :=
  match ys with
  | [] => []
  | ⟨y, own⟩ :: ys =>
    ⟨unify x y, marked && (own || !rightMarked)⟩ :: unifyRow marked rightMarked x ys
termination_by sizeOf x + sizeOf ys

def unifyLeft (leftMarked : Bool) (xs : List (Alternative Value)) (b : Value) : List Outcome :=
  match xs with
  | [] => []
  | ⟨x, marked⟩ :: xs => ⟨unify x b, marked || !leftMarked⟩ :: unifyLeft leftMarked xs b
termination_by sizeOf xs + sizeOf b

def unifyRight (rightMarked : Bool) (a : Value) (ys : List (Alternative Value)) : List Outcome :=
  match ys with
  | [] => []
  | ⟨y, marked⟩ :: ys => ⟨unify a y, marked || !rightMarked⟩ :: unifyRight rightMarked a ys
termination_by sizeOf a + sizeOf ys

end

end Value

end StackLattice
