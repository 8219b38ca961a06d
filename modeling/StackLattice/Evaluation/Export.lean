import StackLattice.Document.Basic
import StackLattice.Evaluation.Error

/-!
The document of a value. Definitions, hidden and optional fields are left out, and a disjunction
stands for its only default.
-/

namespace StackLattice.Value

theorem sizeOf_resolved_lt {alternatives : List (Alternative Value)} {v : Value}
    (h : (disjunction alternatives).resolved = some v) :
    sizeOf v < sizeOf (disjunction alternatives) := by
  unfold resolved at h
  simp only [] at h
  split at h
  · rename_i only filtered
    cases h
    have member : only ∈ alternatives := by
      have : only ∈ alternatives.filter (·.marked) := by simp [filtered]
      exact (List.mem_filter.mp this).1
    have := List.sizeOf_lt_of_mem member
    cases only
    simp only [Alternative.mk.sizeOf_spec, disjunction.sizeOf_spec] at this ⊢
    omega
  · cases h

mutual

/-- The document of a value at a path. The position is that of the innermost field around it. -/
def documentAt (value : Value) (path : String) (position : Option Position) (depth : Nat) :
    Except EvalError Document :=
  if evaluationLimit < depth then .error ⟨path, .valueTooDeep, position⟩
  else
    match value with
    | null => .ok .null
    | bool b => .ok (.bool b)
    | int n => .ok (.int n)
    | float x => if x.isFinite then .ok (.float x) else .error ⟨path, .notConcrete value, position⟩
    | string s => .ok (.string s)
    | list items => do return .list (← documentItems items 0 path position depth)
    | struct fields => do return .object (← documentFields fields path position depth)
    | disjunction alternatives =>
      match _h : (disjunction alternatives).resolved with
      | some v => v.documentAt path position (depth + 1)
      | none => .error ⟨path, .notConcrete value, position⟩
    | top | kind _ => .error ⟨path, .notConcrete value, position⟩
termination_by sizeOf value
decreasing_by
  · simp only [list.sizeOf_spec]; omega
  · simp only [struct.sizeOf_spec]; omega
  · exact sizeOf_resolved_lt _h

def documentItems (items : List Value) (index : Nat) (path : String) (position : Option Position)
    (depth : Nat) : Except EvalError (List Document) :=
  match items with
  | [] => .ok []
  | item :: items => do
    let first ← item.documentAt (joinPath path (toString index)) position (depth + 1)
    return first :: (← documentItems items (index + 1) path position depth)
termination_by sizeOf items

def documentFields (fields : List (Field Value)) (path : String) (position : Option Position)
    (depth : Nat) : Except EvalError (List (String × Document)) :=
  match fields with
  | [] => .ok []
  | f :: fields =>
    if f.isExported then do
      let d ← f.value.documentAt (joinPath path f.label) (f.position.or position) (depth + 1)
      return (f.label, d) :: (← documentFields fields path position depth)
    else documentFields fields path position depth
termination_by sizeOf fields
decreasing_by
  all_goals have := sizeOf_value_lt f
  all_goals simp only [List.cons.sizeOf_spec]; omega

end

theorem documentAt_disjunction {alternatives : List (Alternative Value)} {depth : Nat}
    (shallow : ¬evaluationLimit < depth) (path : String) (position : Option Position) :
    (disjunction alternatives).documentAt path position depth =
      match (disjunction alternatives).resolved with
      | some v => v.documentAt path position (depth + 1)
      | none => .error ⟨path, .notConcrete (disjunction alternatives), position⟩ := by
  rw [documentAt, if_neg shallow]
  split <;> simp [*]

def document (value : Value) : Except EvalError Document := value.documentAt "" none 0

end StackLattice.Value
