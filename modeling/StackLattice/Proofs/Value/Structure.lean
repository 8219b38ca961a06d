import StackLattice.Value.Unify

/-!
The parts of a value, predicates that hold of a value and of everything inside it, and looking up
fields by their labels. No two fields of a struct share a label in a well-formed value.
-/

namespace StackLattice

namespace Field

variable {V : Type} {fields : List (Field V)} {label : String} {f : Field V}

theorem find?_cons (f : Field V) (fields : List (Field V)) (label : String) :
    find? (f :: fields) label = if f.label = label then some f else find? fields label := by
  by_cases h : f.label = label <;> simp [find?, h]

theorem mem_of_find? (h : find? fields label = some f) : f ∈ fields := List.mem_of_find?_eq_some h

theorem label_of_find? (h : find? fields label = some f) : f.label = label := by
  simpa using List.find?_some h

theorem find?_eq_none : find? fields label = none ↔ ∀ f ∈ fields, f.label ≠ label := by
  simp [find?]

theorem find?_append (left right : List (Field V)) (label : String) :
    find? (left ++ right) label = (find? left label).or (find? right label) := by
  simp [find?]

theorem mem_labels : label ∈ fields.map (·.label) ↔ (find? fields label).isSome = true := by
  simp [find?, List.find?_isSome]

def Distinct (fields : List (Field V)) : Prop := (fields.map (·.label)).Nodup

theorem Distinct.tail (h : Distinct (f :: fields)) : Distinct fields := (List.nodup_cons.mp h).2

theorem Distinct.head (h : Distinct (f :: fields)) : ∀ g ∈ fields, f.label ≠ g.label := by
  intro g member same
  exact (List.nodup_cons.mp h).1 (List.mem_map.mpr ⟨g, member, same.symm⟩)

theorem Distinct.find?_of_mem (h : Distinct fields) (member : f ∈ fields) :
    find? fields f.label = some f := by
  induction fields with
  | nil => cases member
  | cons g fields ih =>
    rw [find?_cons]
    rcases List.mem_cons.mp member with rfl | member
    · rw [if_pos rfl]
    · rw [if_neg (h.head _ member), ih h.tail member]

end Field

namespace Value

def parts : Value → List Value
  | struct fields => fields.map (·.value)
  | list items => items
  | disjunction alternatives => alternatives.map (·.value)
  | _ => []

/-- Top, a kind or a scalar. -/
def isLeaf : Value → Bool
  | struct _ | list _ | disjunction _ => false
  | _ => true

theorem sizeOf_lt_of_mem_parts {v part : Value} (h : part ∈ v.parts) : sizeOf part < sizeOf v := by
  cases v with
  | struct fields =>
    obtain ⟨f, member, rfl⟩ := List.mem_map.mp h
    have := sizeOf_value_lt_of_mem member
    simp only [struct.sizeOf_spec]
    omega
  | list items =>
    have := List.sizeOf_lt_of_mem (show part ∈ items from h)
    simp only [list.sizeOf_spec]
    omega
  | disjunction alternatives =>
    obtain ⟨⟨value, marked⟩, member, rfl⟩ := List.mem_map.mp h
    have := List.sizeOf_lt_of_mem member
    simp only [Alternative.mk.sizeOf_spec, disjunction.sizeOf_spec] at this ⊢
    omega
  | _ => cases h

/-- What holds of a value if it holds of its parts holds of every value. -/
theorem parts_induction {P : Value → Prop} (step : ∀ v, (∀ part ∈ v.parts, P part) → P v) (v : Value) :
    P v :=
  step v fun part _ => parts_induction step part
termination_by sizeOf v
decreasing_by exact sizeOf_lt_of_mem_parts ‹_›

/-- What holds of two values if it holds of all smaller pairs holds of any two. -/
theorem pair_induction {P : Value → Value → Prop}
    (step : ∀ a b, (∀ x y, sizeOf x + sizeOf y < sizeOf a + sizeOf b → P x y) → P a b) (a b : Value) :
    P a b :=
  step a b fun x y _ => pair_induction step x y
termination_by sizeOf a + sizeOf b

/-- A predicate holds of a value and of every value inside it. -/
inductive Everywhere (p : Value → Prop) : Value → Prop
  | intro {v : Value} (here : p v) (inside : ∀ part ∈ v.parts, Everywhere p part) : Everywhere p v

namespace Everywhere

variable {p q : Value → Prop} {v : Value}

theorem here (h : v.Everywhere p) : p v := by
  cases h with
  | intro here _ => exact here

theorem inside (h : v.Everywhere p) : ∀ part ∈ v.parts, part.Everywhere p := by
  cases h with
  | intro _ inside => exact inside

theorem field {fields : List (Field Value)} {f : Field Value} (h : (struct fields).Everywhere p)
    (member : f ∈ fields) : f.value.Everywhere p := h.inside _ (List.mem_map_of_mem member)

theorem item {items : List Value} {item : Value} (h : (list items).Everywhere p)
    (member : item ∈ items) : item.Everywhere p := h.inside _ member

theorem alternative {alternatives : List (Alternative Value)} {a : Alternative Value}
    (h : (disjunction alternatives).Everywhere p) (member : a ∈ alternatives) :
    a.value.Everywhere p := h.inside _ (List.mem_map_of_mem member)

theorem resolved {w : Value} (h : v.Everywhere p) (resolved : v.resolved = some w) : w.Everywhere p := by
  cases v with
  | disjunction alternatives =>
    simp only [Value.resolved] at resolved
    split at resolved
    · rename_i only filtered
      cases resolved
      have member : only ∈ alternatives.filter (·.marked) := by simp [filtered]
      exact h.alternative (List.mem_filter.mp member).1
    · cases resolved
  | _ =>
    cases resolved
    exact h

theorem iff_parts : v.Everywhere p ↔ p v ∧ ∀ part ∈ v.parts, part.Everywhere p :=
  ⟨fun h => ⟨h.here, h.inside⟩, fun ⟨here, inside⟩ => ⟨here, inside⟩⟩

theorem imp (h : v.Everywhere p) (each : ∀ v, p v → q v) : v.Everywhere q := by
  induction h with
  | intro here _ ih => exact .intro (each _ here) ih

end Everywhere

/-- Whether the labels of a struct are distinct; any other value has none. -/
def DistinctLabels : Value → Prop
  | struct fields => Field.Distinct fields
  | _ => True

/-- No struct in the value has two fields with one label. -/
def WellFormed (v : Value) : Prop := v.Everywhere DistinctLabels

theorem WellFormed.distinct {fields : List (Field Value)} (h : (struct fields).WellFormed) :
    Field.Distinct fields := h.here

@[simp] theorem wellFormed_struct (fields : List (Field Value)) :
    (struct fields).WellFormed ↔ Field.Distinct fields ∧ ∀ f ∈ fields, f.value.WellFormed := by
  rw [WellFormed, Everywhere.iff_parts]
  simp only [parts, List.forall_mem_map]
  rfl

@[simp] theorem wellFormed_list (items : List Value) :
    (list items).WellFormed ↔ ∀ item ∈ items, item.WellFormed := by
  rw [WellFormed, Everywhere.iff_parts]
  exact and_iff_right trivial

@[simp] theorem wellFormed_disjunction (alternatives : List (Alternative Value)) :
    (disjunction alternatives).WellFormed ↔ ∀ a ∈ alternatives, a.value.WellFormed := by
  rw [WellFormed, Everywhere.iff_parts]
  simp only [parts, List.forall_mem_map]
  exact and_iff_right trivial

theorem wellFormed_of_parts_eq_nil {v : Value} (h : v.parts = []) : v.WellFormed := by
  refine ⟨?_, by simp [h]⟩
  cases v with
  | struct fields =>
    rw [List.map_eq_nil_iff.mp h]
    exact List.nodup_nil
  | _ => trivial

end Value

end StackLattice
