import StackLattice.Proofs.Value.Instance

/-!
Values that have an instance: no disjunction in them is empty, and no float is equal to nothing. Such values
unify just if they have an instance in common, so the grouping of operands does not decide whether
they unify.
-/

namespace StackLattice

namespace Value

/-- Distinct labels, no float that is no number, and some alternative. -/
def ProperHere : Value → Prop
  | struct fields => Field.Distinct fields
  | float x => x.isNaN = false
  | disjunction alternatives => alternatives ≠ []
  | _ => True

def Proper (v : Value) : Prop := v.Everywhere ProperHere

theorem Proper.wellFormed {v : Value} (h : v.Proper) : v.WellFormed := by
  refine Everywhere.imp h fun v here => ?_
  cases v with
  | struct fields => exact here
  | _ => trivial

theorem Proper.field {fields : List (Field Value)} {f : Field Value} (h : (struct fields).Proper)
    (member : f ∈ fields) : f.value.Proper := Everywhere.field h member

theorem Proper.item {items : List Value} {item : Value} (h : (list items).Proper) (member : item ∈ items) :
    item.Proper := Everywhere.item h member

theorem Proper.alternative {alternatives : List (Alternative Value)} {a : Alternative Value}
    (h : (disjunction alternatives).Proper) (member : a ∈ alternatives) : a.value.Proper :=
  Everywhere.alternative h member

/-- The fields of a struct with other values. -/
def refill (choose : Field Value → Value) (fields : List (Field Value)) : List (Field Value) :=
  fields.map fun f => { f with value := choose f }

theorem find?_refill (choose : Field Value → Value) (fields : List (Field Value)) (label : String) :
    Field.find? (refill choose fields) label =
      (Field.find? fields label).map fun f => { f with value := choose f } := by
  rw [refill, Field.find?, Field.find?, List.find?_map]
  rfl

theorem admits_refill {fields : List (Field Value)} (distinct : Field.Distinct fields)
    {choose : Field Value → Value} (chosen : ∀ f ∈ fields, f.value.Admits (choose f)) :
    (struct fields).Admits (struct (refill choose fields)) := by
  rw [admits_struct]
  intro f member
  refine ⟨{ f with value := choose f }, ?_, id, chosen f member⟩
  rw [find?_refill, distinct.find?_of_mem member, Option.map_some]

theorem exists_choice {fields : List (Field Value)} {p : Field Value → Value → Prop}
    (each : ∀ f ∈ fields, ∃ c, p f c) : ∃ choice : Field Value → Value, ∀ f ∈ fields, p f (choice f) := by
  have total : ∀ f : Field Value, ∃ c, f ∈ fields → p f c := by
    intro f
    by_cases member : f ∈ fields
    · obtain ⟨c, holds⟩ := each f member
      exact ⟨c, fun _ => holds⟩
    · exact ⟨null, fun inside => absurd inside member⟩
  choose choice chosen using total
  exact ⟨choice, chosen⟩

theorem exists_forall₂_of_forall {α β : Type} {R : α → β → Prop} {xs : List α}
    (h : ∀ x ∈ xs, ∃ y, R x y) : ∃ ys, List.Forall₂ R xs ys := by
  induction xs with
  | nil => exact ⟨[], .nil⟩
  | cons x xs ih =>
    obtain ⟨y, first⟩ := h x List.mem_cons_self
    obtain ⟨ys, rest⟩ := ih fun x member => h x (List.mem_cons_of_mem _ member)
    exact ⟨y :: ys, .cons first rest⟩

/-- A proper value has an instance. -/
theorem Proper.exists_instance {v : Value} (h : v.Proper) : ∃ c, v.Admits c := by
  induction v using parts_induction with
  | step v ih =>
    cases v with
    | top => exact ⟨null, admits_top _⟩
    | kind k =>
      cases k with
      | bool => exact ⟨bool true, (admits_kind _ _).mpr rfl⟩
      | int | number => exact ⟨int 0, (admits_kind _ _).mpr rfl⟩
      | float => exact ⟨float .nan, (admits_kind _ _).mpr rfl⟩
      | string => exact ⟨string "", (admits_kind _ _).mpr rfl⟩
    | struct fields =>
      obtain ⟨choice, chosen⟩ := exists_choice fun f member => ih f.value (List.mem_map_of_mem member) (h.field member)
      exact ⟨_, admits_refill h.wellFormed.distinct chosen⟩
    | list items =>
      obtain ⟨given, admitted⟩ := exists_forall₂_of_forall fun item member => ih item member (h.item member)
      exact ⟨list given, (admits_list items given).mpr admitted⟩
    | disjunction alternatives =>
      obtain ⟨a, member⟩ := List.exists_mem_of_ne_nil _ (show alternatives ≠ [] from h.here)
      obtain ⟨c, admitted⟩ := ih a.value (List.mem_map_of_mem member) (h.alternative member)
      exact ⟨c, (admits_disjunction _ _).mpr ⟨a, member, admitted⟩⟩
    | float x =>
      have number : x.isNaN = false := h.here
      exact ⟨float x, (admits_scalar rfl _).mpr (by simp [same, Decimal.Binary64.same_self number])⟩
    | null => exact ⟨null, (admits_scalar rfl _).mpr (by simp [same])⟩
    | bool b => exact ⟨bool b, (admits_scalar rfl _).mpr (by simp [same])⟩
    | int n => exact ⟨int n, (admits_scalar rfl _).mpr (by simp [same])⟩
    | string s => exact ⟨string s, (admits_scalar rfl _).mpr (by simp [same])⟩

end Value

namespace Alternative

theorem flatten_ne_nil {a : Alternative Value} (h : a.value ≠ .disjunction []) : a.flatten ≠ [] := by
  obtain ⟨value, marked⟩ := a
  cases value with
  | disjunction inner =>
    cases inner with
    | nil => exact absurd rfl h
    | cons => exact List.cons_ne_nil _ _
  | _ => exact List.cons_ne_nil _ _

/-- A disjunction of some alternatives has some. -/
theorem dedup_flatMap_ne_nil {alternatives : List (Alternative Value)} (some : alternatives ≠ [])
    (each : ∀ a ∈ alternatives, a.value ≠ .disjunction []) : dedup (alternatives.flatMap flatten) ≠ [] := by
  obtain ⟨a, inside⟩ := List.exists_mem_of_ne_nil _ some
  obtain ⟨i, member⟩ := List.exists_mem_of_ne_nil _ (flatten_ne_nil (each a inside))
  obtain ⟨u, distinct, _⟩ := exists_mem_dedup (List.mem_flatMap.mpr ⟨a, inside, member⟩)
  exact List.ne_nil_of_mem distinct

end Alternative

namespace Value

theorem Proper.ne_empty {v : Value} (h : v.Proper) : v ≠ disjunction [] := by
  rintro rfl
  exact h.here rfl

theorem proper_disjoin {alternatives : List (Alternative Value)} (some : alternatives ≠ [])
    (each : ∀ a ∈ alternatives, a.value.Proper) : (disjoin alternatives).Proper := by
  have inside : ∀ u ∈ Alternative.dedup (alternatives.flatMap Alternative.flatten), u.value.Proper := by
    intro u distinct
    obtain ⟨i, member, same⟩ := Alternative.value_of_mem_dedup distinct
    rw [same]
    exact everywhere_of_mem_flatMap each member
  have left := Alternative.dedup_flatMap_ne_nil some fun a member => (each a member).ne_empty
  rw [disjoin]
  generalize Alternative.dedup (alternatives.flatMap Alternative.flatten) = distinct at inside left
  unfold ofDistinct
  split
  · exact inside _ List.mem_cons_self
  · split
    · refine .intro (by simpa [ProperHere] using left) fun part member => ?_
      obtain ⟨_, unmarked, rfl⟩ := List.mem_map.mp member
      obtain ⟨a, here, rfl⟩ := List.mem_map.mp unmarked
      exact inside a here
    · refine .intro left fun part member => ?_
      obtain ⟨a, here, rfl⟩ := List.mem_map.mp member
      exact inside a here

theorem proper_unify {a b v : Value} (left : a.Proper) (right : b.Proper) (h : a.unify b = .ok v) : v.Proper :=
  everywhere_unify (fun _ => trivial) (fun _ => trivial)
    (fun _ _ _ left right fields => distinct_mergeFields left (distinct_unifyFields fields right))
    (fun _ _ _ _ _ _ some each => proper_disjoin some fun c member => (each c member).1) left right h

section Grouping

variable {a b c v : Value}

/-- Values unify if they have an instance in common. -/
theorem exists_unify_iff (left : a.Proper) (right : b.Proper) :
    (∃ v, a.unify b = .ok v) ↔ ∃ c, a.Admits c ∧ b.Admits c := by
  have meet := meets left.wellFormed right.wellFormed
  constructor
  · rintro ⟨v, unified⟩
    obtain ⟨c, admitted⟩ := (proper_unify left right unified).exists_instance
    exact ⟨c, (meet c).mp ⟨v, unified, admitted⟩⟩
  · rintro ⟨c, both⟩
    obtain ⟨v, unified, _⟩ := (meet c).mpr both
    exact ⟨v, unified⟩

theorem admits_unify (left : a.WellFormed) (right : b.WellFormed) (h : a.unify b = .ok v) (c : Value) :
    v.Admits c ↔ a.Admits c ∧ b.Admits c := by
  rw [← meets left right c, h]
  simp

theorem exists_regrouped (properA : a.Proper) (properB : b.Proper) (properC : c.Proper) {ab : Value}
    (first : a.unify b = .ok ab) (last : ab.unify c = .ok v) :
    ∃ bc w, b.unify c = .ok bc ∧ a.unify bc = .ok w := by
  obtain ⟨i, ofAB, ofC⟩ := (exists_unify_iff (proper_unify properA properB first) properC).mp ⟨v, last⟩
  obtain ⟨ofA, ofB⟩ := (admits_unify properA.wellFormed properB.wellFormed first i).mp ofAB
  obtain ⟨bc, inner⟩ := (exists_unify_iff properB properC).mpr ⟨i, ofB, ofC⟩
  have ofBC := (admits_unify properB.wellFormed properC.wellFormed inner i).mpr ⟨ofB, ofC⟩
  obtain ⟨w, outer⟩ := (exists_unify_iff properA (proper_unify properB properC inner)).mpr ⟨i, ofA, ofBC⟩
  exact ⟨bc, w, inner, outer⟩

theorem exists_ungrouped (properA : a.Proper) (properB : b.Proper) (properC : c.Proper) {bc : Value}
    (inner : b.unify c = .ok bc) (outer : a.unify bc = .ok v) :
    ∃ ab w, a.unify b = .ok ab ∧ ab.unify c = .ok w := by
  obtain ⟨i, ofA, ofBC⟩ := (exists_unify_iff properA (proper_unify properB properC inner)).mp ⟨v, outer⟩
  obtain ⟨ofB, ofC⟩ := (admits_unify properB.wellFormed properC.wellFormed inner i).mp ofBC
  obtain ⟨ab, first⟩ := (exists_unify_iff properA properB).mpr ⟨i, ofA, ofB⟩
  have ofAB := (admits_unify properA.wellFormed properB.wellFormed first i).mpr ⟨ofA, ofB⟩
  obtain ⟨w, last⟩ := (exists_unify_iff (proper_unify properA properB first) properC).mpr ⟨i, ofAB, ofC⟩
  exact ⟨ab, w, first, last⟩

end Grouping

end Value

end StackLattice
