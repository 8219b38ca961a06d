import StackLattice.Proofs.Value.Proper

/-!
Values without marks, in which a label has one kind wherever it occurs. Such a value has an instance, and
unification and disjunction lead to no others.
-/

namespace StackLattice

open Syntax (LabelKind)

variable {kinds : String → LabelKind}

namespace Value

/-- At least two alternatives, none of them marked, a disjunction, or equal to a later one. -/
structure Separate (alternatives : List (Alternative Value)) : Prop where
  several : 2 ≤ alternatives.length
  unmarked : ∀ a ∈ alternatives, a.marked = false
  single : ∀ a ∈ alternatives, a.value.isDisjunction = false
  distinct : alternatives.Pairwise fun a b => a.value.same b.value = false

theorem Separate.ne_nil {alternatives : List (Alternative Value)} (h : Separate alternatives) :
    alternatives ≠ [] := by
  rintro rfl
  exact absurd h.several (by decide)

/-- Fields as the kinds say, alternatives without marks, and no float that is no number. -/
def TameHere (kinds : String → LabelKind) : Value → Prop
  | struct fields => Field.Distinct fields ∧ ∀ f ∈ fields, f.kind = kinds f.label
  | float x => x.isNaN = false
  | disjunction alternatives => Separate alternatives
  | _ => True

def Tame (kinds : String → LabelKind) (v : Value) : Prop := v.Everywhere (TameHere kinds)

theorem Tame.proper {v : Value} (h : v.Tame kinds) : v.Proper := by
  refine Everywhere.imp h fun v here => ?_
  cases v with
  | struct fields => exact here.1
  | float x => exact here
  | disjunction alternatives => exact Separate.ne_nil here
  | _ => trivial

theorem Tame.wellFormed {v : Value} (h : v.Tame kinds) : v.WellFormed := h.proper.wellFormed

theorem Tame.field {fields : List (Field Value)} {f : Field Value} (h : (struct fields).Tame kinds)
    (member : f ∈ fields) : f.value.Tame kinds := Everywhere.field h member

theorem Tame.item {items : List Value} {item : Value} (h : (list items).Tame kinds) (member : item ∈ items) :
    item.Tame kinds := Everywhere.item h member

theorem Tame.alternative {alternatives : List (Alternative Value)} {a : Alternative Value}
    (h : (disjunction alternatives).Tame kinds) (member : a ∈ alternatives) : a.value.Tame kinds :=
  Everywhere.alternative h member

theorem tame_struct (fields : List (Field Value)) :
    (struct fields).Tame kinds ↔
      (Field.Distinct fields ∧ ∀ f ∈ fields, f.kind = kinds f.label) ∧ ∀ f ∈ fields, f.value.Tame kinds := by
  rw [Tame, Everywhere.iff_parts]
  simp only [parts, List.forall_mem_map]
  rfl

theorem tame_list (items : List Value) :
    (list items).Tame kinds ↔ ∀ item ∈ items, item.Tame kinds := by
  rw [Tame, Everywhere.iff_parts]
  exact and_iff_right trivial

theorem tame_disjunction (alternatives : List (Alternative Value)) :
    (disjunction alternatives).Tame kinds ↔
      Separate alternatives ∧ ∀ a ∈ alternatives, a.value.Tame kinds := by
  rw [Tame, Everywhere.iff_parts]
  simp only [parts, List.forall_mem_map]
  rfl

theorem tame_of_here {v : Value} (leaf : v.parts = []) (here : v.TameHere kinds) : v.Tame kinds :=
  ⟨here, by simp [leaf]⟩

theorem tame_top : top.Tame kinds := tame_of_here rfl trivial

/-- Without marks a disjunction stands for nothing in the output. -/
theorem Tame.resolved {alternatives : List (Alternative Value)} (h : (disjunction alternatives).Tame kinds) :
    (disjunction alternatives).resolved = none := by
  have unmarked : alternatives.filter (·.marked) = [] := by
    rw [List.filter_eq_nil_iff]
    intro a member
    rw [Separate.unmarked h.here a member]
    exact Bool.false_ne_true
  rw [Value.resolved]
  simp only [unmarked]

theorem Tame.exists_instance {v : Value} (h : v.Tame kinds) : ∃ c, v.Admits c := h.proper.exists_instance

end Value

namespace Alternative

theorem marked_of_mem_dedup {mark : Bool} {alternatives : List (Alternative Value)} {u : Alternative Value}
    (marks : ∀ a ∈ alternatives, a.marked = mark) (h : u ∈ dedup alternatives) : u.marked = mark := by
  obtain ⟨⟨a, member, _, kept⟩, taken⟩ := origin_of_mem_dedup h
  cases mark with
  | true => exact kept (marks a member)
  | false =>
    refine Bool.eq_false_iff.mpr fun marked => ?_
    obtain ⟨b, member, given, _⟩ := taken marked
    rw [marks b member] at given
    cases given

theorem pairwise_add {a : Alternative Value} {us : List (Alternative Value)}
    (h : us.Pairwise fun u w => u.value.same w.value = false) :
    (add a us).Pairwise fun u w => u.value.same w.value = false := by
  induction us with
  | nil => exact List.pairwise_singleton _ _
  | cons w us ih =>
    obtain ⟨first, rest⟩ := List.pairwise_cons.mp h
    rw [add]
    split
    · exact List.pairwise_cons.mpr ⟨first, rest⟩
    · rename_i apart
      refine List.pairwise_cons.mpr ⟨fun u member => ?_, ih rest⟩
      rcases value_of_mem_add member with same | ⟨x, inside, same⟩
      · rw [same]
        exact Bool.eq_false_iff.mpr apart
      · rw [same]
        exact first x inside

theorem pairwise_dedup (alternatives : List (Alternative Value)) :
    (dedup alternatives).Pairwise fun u w => u.value.same w.value = false := by
  induction alternatives using List.reverseRecOn with
  | nil => exact List.Pairwise.nil
  | append_singleton alternatives a ih =>
    rw [dedup_append_singleton]
    exact pairwise_add ih

theorem tame_of_mem_flatten {a i : Alternative Value} (h : a.value.Tame kinds) (member : i ∈ a.flatten) :
    i.marked = a.marked ∧ i.value.isDisjunction = false ∧ i.value.Tame kinds := by
  obtain ⟨value, marked⟩ := a
  cases value with
  | disjunction inner =>
    obtain ⟨x, inside, rfl⟩ := List.mem_map.mp member
    have separate : Value.Separate inner := h.here
    have noneMarked : anyMarked inner = false := by simpa [anyMarked] using separate.unmarked
    refine ⟨?_, separate.single x inside, h.alternative (a := x) inside⟩
    simp [separate.unmarked x inside, noneMarked]
  | _ =>
    rw [List.mem_singleton.mp member]
    exact ⟨rfl, rfl, h⟩

end Alternative

namespace Value

theorem tame_ofDistinct (mark : Bool) {alternatives : List (Alternative Value)} (some : alternatives ≠ [])
    (each : ∀ a ∈ alternatives, a.marked = mark ∧ a.value.isDisjunction = false ∧ a.value.Tame kinds)
    (distinct : alternatives.Pairwise fun a b => a.value.same b.value = false) :
    (ofDistinct alternatives).Tame kinds := by
  unfold ofDistinct
  split
  · exact (each _ List.mem_cons_self).2.2
  · rename_i notSingle
    have several : 2 ≤ alternatives.length := by
      rcases alternatives with _ | ⟨a, _ | ⟨b, rest⟩⟩
      · exact absurd rfl some
      · exact absurd rfl (notSingle a)
      · simp
    rw [tame_disjunction]
    cases mark with
    | true =>
      have all : alternatives.all (·.marked) = true := by simpa using fun a member => (each a member).1
      simp only [all, if_true, List.forall_mem_map]
      refine ⟨⟨by simpa using several, by simp, ?_, ?_⟩, fun a member => (each a member).2.2⟩
      · simpa using fun a member => (each a member).2.1
      · exact List.pairwise_map.mpr distinct
    | false =>
      have notAll : alternatives.all (·.marked) = false := by
        obtain ⟨a, member⟩ := List.exists_mem_of_ne_nil _ some
        exact List.all_eq_false.mpr ⟨a, member, by simp [(each a member).1]⟩
      simp only [notAll, Bool.false_eq_true, if_false]
      exact ⟨⟨several, fun a member => (each a member).1, fun a member => (each a member).2.1, distinct⟩,
        fun a member => (each a member).2.2⟩

/-- A disjunction of tame alternatives is tame if all of them are marked or none is. -/
theorem tame_disjoin (mark : Bool) {alternatives : List (Alternative Value)} (some : alternatives ≠ [])
    (each : ∀ a ∈ alternatives, a.marked = mark ∧ a.value.Tame kinds) : (disjoin alternatives).Tame kinds := by
  have flat : ∀ i ∈ alternatives.flatMap Alternative.flatten,
      i.marked = mark ∧ i.value.isDisjunction = false ∧ i.value.Tame kinds := by
    intro i member
    obtain ⟨a, inside, member⟩ := List.mem_flatMap.mp member
    obtain ⟨marked, tame⟩ := Alternative.tame_of_mem_flatten (each a inside).2 member
    exact ⟨marked.trans (each a inside).1, tame⟩
  refine tame_ofDistinct mark ?_ (fun u distinct => ?_) (Alternative.pairwise_dedup _)
  · exact Alternative.dedup_flatMap_ne_nil some fun a member => (each a member).2.proper.ne_empty
  · obtain ⟨i, member, same⟩ := Alternative.value_of_mem_dedup distinct
    refine ⟨Alternative.marked_of_mem_dedup (fun i member => (flat i member).1) distinct, ?_⟩
    rw [same]
    exact (flat i member).2

/-- Without marks every alternative counts. -/
theorem counts_of_tame {v : Value} (h : v.Tame kinds) (x : Alternative Value) :
    counts (Alternative.ofValue v) x = true := by
  have unmarked : Alternative.anyMarked (Alternative.ofValue v) = false := by
    cases v with
    | disjunction alternatives =>
      simpa [Alternative.anyMarked, Alternative.ofValue] using Separate.unmarked h.here
    | _ => rfl
  rw [counts, unmarked, Bool.not_false, Bool.or_true]

theorem kind_mergeFields {xs ys met : List (Field Value)} (left : ∀ f ∈ xs, f.kind = kinds f.label)
    (right : ∀ f ∈ ys, f.kind = kinds f.label) (h : unifyFields xs ys = .ok met) :
    ∀ f ∈ mergeFields xs met, f.kind = kinds f.label := by
  intro f member
  obtain inLeft | inRight | ⟨x, inLeft, _, _, _, _, rfl⟩ := cases_of_mem_mergeFields h member
  · exact left f inLeft
  · exact right f inRight
  · exact left x inLeft

theorem tame_unify {a b v : Value} (left : a.Tame kinds) (right : b.Tame kinds) (h : a.unify b = .ok v) :
    v.Tame kinds := by
  refine everywhere_unify (fun _ => trivial) (fun _ => trivial) ?_ ?_ left right h
  · intro xs ys met ofLeft ofRight fields
    exact ⟨distinct_mergeFields ofLeft.1 (distinct_unifyFields fields ofRight.1),
      kind_mergeFields ofLeft.2 ofRight.2 fields⟩
  · intro a b alternatives left right _ some each
    refine tame_disjoin true some fun c member => ?_
    obtain ⟨tame, x, _, y, _, marked⟩ := each c member
    refine ⟨?_, tame⟩
    rw [marked, counts_of_tame left, counts_of_tame right, Bool.and_self]

end Value

end StackLattice
