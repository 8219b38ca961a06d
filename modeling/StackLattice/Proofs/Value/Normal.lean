import StackLattice.Proofs.Value.Tame

/-!
Disjunctive normal form. Flattening opens disjunctions one level deep, which is enough because what is inside has been
brought into the form before.
-/

namespace StackLattice

namespace Value

/-- At least two alternatives, none of them a disjunction or equal to a later one, and not all of them marked. -/
structure Normalized (alternatives : List (Alternative Value)) : Prop where
  several : 2 ≤ alternatives.length
  single : ∀ a ∈ alternatives, a.value.isDisjunction = false
  distinct : alternatives.Pairwise fun a b => a.value.same b.value = false
  unmarked : ∃ a ∈ alternatives, a.marked = false

def NormalHere : Value → Prop
  | disjunction alternatives => Normalized alternatives
  | _ => True

/-- Every disjunction in the value, at whatever depth, is normalized. -/
def Normal (v : Value) : Prop := v.Everywhere NormalHere

theorem normal_disjunction (alternatives : List (Alternative Value)) :
    (disjunction alternatives).Normal ↔ Normalized alternatives ∧ ∀ a ∈ alternatives, a.value.Normal := by
  rw [Normal, Everywhere.iff_parts]
  simp only [parts, List.forall_mem_map]
  rfl

theorem normal_struct {fields : List (Field Value)} (each : ∀ f ∈ fields, f.value.Normal) :
    (struct fields).Normal := by
  refine .intro trivial fun part member => ?_
  obtain ⟨f, inside, rfl⟩ := List.mem_map.mp member
  exact each f inside

theorem normal_list {items : List Value} (each : ∀ item ∈ items, item.Normal) : (list items).Normal :=
  .intro trivial each

theorem Normal.ne_empty {v : Value} (h : v.Normal) : v ≠ disjunction [] := by
  rintro rfl
  exact absurd (Normalized.several h.here) (by decide)

theorem normal_leaf {v : Value} (leaf : v.isLeaf = true) : v.Normal := by
  cases v <;> first
    | exact .intro trivial fun _ impossible => absurd impossible List.not_mem_nil
    | cases leaf

end Value

namespace Alternative

theorem isDisjunction_of_mem_flatten {a i : Alternative Value} (h : a.value.Normal) (member : i ∈ a.flatten) :
    i.value.isDisjunction = false := by
  obtain ⟨value, marked⟩ := a
  cases value with
  | disjunction inner =>
    obtain ⟨x, inside, rfl⟩ := List.mem_map.mp member
    exact Value.Normalized.single h.here x inside
  | _ =>
    rw [List.mem_singleton.mp member]
    rfl

end Alternative

namespace Value

theorem normal_ofDistinct {alternatives : List (Alternative Value)} (some : alternatives ≠ [])
    (each : ∀ a ∈ alternatives, a.value.isDisjunction = false ∧ a.value.Normal)
    (distinct : alternatives.Pairwise fun a b => a.value.same b.value = false) :
    (ofDistinct alternatives).Normal := by
  unfold ofDistinct
  split
  · exact (each _ List.mem_cons_self).2
  · rename_i notSingle
    have several : 2 ≤ alternatives.length := by
      rcases alternatives with _ | ⟨a, _ | ⟨b, rest⟩⟩
      · exact absurd rfl some
      · exact absurd rfl (notSingle a)
      · simp
    rw [normal_disjunction]
    split
    · simp only [List.forall_mem_map]
      refine ⟨⟨by simpa using several, ?_, List.pairwise_map.mpr distinct, ?_⟩, fun a member => (each a member).2⟩
      · simpa using fun a member => (each a member).1
      · obtain ⟨a, member⟩ := List.exists_mem_of_ne_nil _ some
        exact ⟨_, List.mem_map_of_mem member, rfl⟩
    · rename_i notAll
      obtain ⟨a, member, unmarked⟩ := List.all_eq_false.mp (Bool.eq_false_iff.mpr notAll)
      exact ⟨⟨several, fun a member => (each a member).1, distinct, a, member, by simpa using unmarked⟩,
        fun a member => (each a member).2⟩

/-- The disjunction of some normal values is normal. -/
theorem normal_disjoin {alternatives : List (Alternative Value)} (some : alternatives ≠ [])
    (each : ∀ a ∈ alternatives, a.value.Normal) : (disjoin alternatives).Normal := by
  refine normal_ofDistinct ?_ (fun u distinct => ?_) (Alternative.pairwise_dedup _)
  · exact Alternative.dedup_flatMap_ne_nil some fun a member => (each a member).ne_empty
  · obtain ⟨i, member, same⟩ := Alternative.value_of_mem_dedup distinct
    obtain ⟨a, inside, flat⟩ := List.mem_flatMap.mp member
    rw [same]
    exact ⟨Alternative.isDisjunction_of_mem_flatten (each a inside) flat, everywhere_of_mem_flatten (each a inside) flat⟩

/-- Normal values are unified to a normal value. -/
theorem normal_unify {a b v : Value} (left : a.Normal) (right : b.Normal) (h : a.unify b = .ok v) : v.Normal := by
  refine everywhere_unify (fun _ => trivial) (fun _ => trivial) (fun _ _ _ _ _ _ => trivial) ?_ left right h
  intro a b alternatives _ _ _ some each
  exact normal_disjoin some fun c member => (each c member).1

end Value

end StackLattice
