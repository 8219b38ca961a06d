import StackLattice.Proofs.Value.Marks

/-!
Alternatives that are grouped. A group becomes a disjunction of its own before the alternatives beside it are added to
it, and so has lost its marks by then if all of its alternatives are marked.
-/

namespace StackLattice

namespace Alternative

variable {us ys : List (Alternative Value)} {u : Alternative Value}

def unmark (u : Alternative Value) : Alternative Value := { u with marked := false }

/-- Marks on all of some alternatives say nothing. -/
def settled (us : List (Alternative Value)) : List (Alternative Value) :=
  if us.all (·.marked) then us.map unmark else us

theorem settled_of_marked (all : ∀ u ∈ us, u.marked = true) : settled us = us.map unmark :=
  if_pos (List.all_eq_true.mpr all)

theorem settled_of_unmarked (unmarked : ∃ u ∈ us, u.marked = false) : settled us = us := by
  obtain ⟨u, member, unmarked⟩ := unmarked
  refine if_neg fun all => ?_
  rw [List.all_eq_true.mp all u member] at unmarked
  cases unmarked

theorem marked_or_unmarked (us : List (Alternative Value)) :
    (∀ u ∈ us, u.marked = true) ∨ ∃ u ∈ us, u.marked = false := by
  by_cases all : us.all (·.marked) = true
  · exact .inl (List.all_eq_true.mp all)
  · exact .inr (by simpa using all)

theorem forall_marked_remark_unmark :
    (∀ u ∈ (us.map unmark).map (remark ys), u.marked = true) ↔
      ∀ u ∈ us, ∃ y ∈ ys, y.marked = true ∧ u.value.same y.value = true := by
  simp [unmark, marked_remark]

/-- What is left of alternatives beside a group: those that the group does not have. -/
def fresh (us ys : List (Alternative Value)) : List (Alternative Value) := dedup (ys.filter fun y => !hasTwin us y)

theorem fresh_eq_nil : fresh us ys = [] ↔ ∀ y ∈ ys, hasTwin us y = true := by
  constructor
  · intro none y member
    by_contra absent
    have left : y ∈ ys.filter fun y => !hasTwin us y := by simpa [member] using absent
    obtain ⟨u, inside, _⟩ := exists_mem_dedup left
    rw [← fresh, none] at inside
    exact List.not_mem_nil inside
  · intro each
    rw [fresh, List.filter_eq_nil_iff.mpr fun y member => by simp [each y member]]
    rfl

end Alternative

namespace Value

open StackLattice.Alternative

variable {us ws xs ys : List (Alternative Value)}

theorem ofDistinct_of_several (several : ∀ only, us ≠ [only]) : ofDistinct us = disjunction (settled us) := by
  unfold ofDistinct
  split
  · exact absurd rfl (several _)
  · rfl

theorem flatten_ofDistinct (single : ∀ u ∈ us, u.value.isDisjunction = false) :
    flatten ⟨ofDistinct us, false⟩ = settled us := by
  by_cases alone : ∃ only, us = [only]
  · obtain ⟨⟨value, marked⟩, rfl⟩ := alone
    have single : value.isDisjunction = false := single _ (List.mem_singleton_self _)
    rw [ofDistinct, flatten_of_single single]
    cases marked <;> rfl
  · rw [ofDistinct_of_several fun only same => alone ⟨only, same⟩]
    simp [flatten]

/-- A disjunction whose alternatives are all marked is the one without marks. -/
theorem ofDistinct_unmark (all : ∀ u ∈ us, u.marked = true) : ofDistinct (us.map unmark) = ofDistinct us := by
  rcases us with _ | ⟨u, _ | ⟨w, us⟩⟩
  · rfl
  · rfl
  · rw [ofDistinct_of_several (by simp), ofDistinct_of_several (by simp), settled_of_marked all,
      settled_of_unmarked ⟨unmark u, by simp, rfl⟩]

theorem marks_of_same (several : ∀ only, us ≠ [only]) (several' : ∀ only, ws ≠ [only])
    (same : (ofDistinct us).same (ofDistinct ws) = true) :
    (settled us).map (·.marked) = (settled ws).map (·.marked) := by
  rw [ofDistinct_of_several several, ofDistinct_of_several several', same_disjunction_iff] at same
  have marks := List.forall₂_map_left_iff.mpr (List.forall₂_map_right_iff.mpr (same.imp fun _ _ => And.right))
  exact List.forall₂_eq_eq_eq ▸ marks

/-- Whether a group may stand beside other alternatives without parentheses: one of its alternatives is without a mark,
    or each of them occurs beside it with one, or beside it there are only repetitions without a mark. -/
def MarksKept (xs ys : List (Alternative Value)) : Prop :=
  (∃ x ∈ xs, Unmarked xs x) ∨
    (∀ x ∈ xs, ∃ y ∈ ys, y.marked = true ∧ x.value.same y.value = true) ∨
    ∀ y ∈ ys, y.marked = false ∧ ∃ x ∈ xs, x.value.same y.value = true

instance : Decidable (MarksKept xs ys) := by
  unfold MarksKept Unmarked
  infer_instance

/-- The same of the alternatives that are left of a group. -/
def Kept (us ys : List (Alternative Value)) : Prop :=
  (∃ u ∈ us, u.marked = false) ∨
    (∀ u ∈ us, ∃ y ∈ ys, y.marked = true ∧ u.value.same y.value = true) ∨
    ∀ y ∈ ys, y.marked = false ∧ hasTwin us y = true

theorem kept_dedup (wellXs : ∀ x ∈ xs, x.value.WellFormed) (wellYs : ∀ y ∈ ys, y.value.WellFormed) :
    Kept (dedup xs) ys ↔ MarksKept xs ys := by
  rw [Kept, exists_unmarked_dedup wellXs,
    forall_mem_dedup (p := fun v => ∃ y ∈ ys, y.marked = true ∧ v.same y.value = true)
      wellXs fun v w wellV wellW same ⟨y, member, marked, equal⟩ => ⟨y, member, marked,
        same_trans wellW wellV (wellYs y member) (same_symm wellV wellW same) equal⟩]
  refine or_congr_right (or_congr_right (forall₂_congr fun y member => and_congr_right' ?_))
  rw [hasTwin_dedup wellXs (wellYs y member), hasTwin_eq_true]

theorem ofDistinct_of_kept (kept : Kept us ys) :
    ofDistinct ((settled us).map (remark ys) ++ fresh us ys) = ofDistinct (us.map (remark ys) ++ fresh us ys) := by
  rcases marked_or_unmarked us with all | unmarked
  · rw [settled_of_marked all, map_remark_of_marked all]
    rcases kept with ⟨u, member, unmarked⟩ | beside | repeated
    · rw [all u member] at unmarked
      cases unmarked
    · -- Every mark that the group has lost comes back with an equal alternative.
      have back : (us.map unmark).map (remark ys) = us := by
        rw [List.map_map]
        refine (List.map_congr_left fun u member => ?_).trans (List.map_id' us)
        have marked : (remark ys (unmark u)).marked = true :=
          forall_marked_remark_unmark.mpr beside _ (List.mem_map_of_mem (List.mem_map_of_mem member))
        exact congrArg (Alternative.mk u.value) (marked.trans (all u member).symm)
      rw [back]
    · have none : ∀ u ∈ us.map unmark, remark ys u = u := fun u _ =>
        remark_of_silent fun y member _ => (repeated y member).1
      rw [fresh_eq_nil.mpr fun y member => (repeated y member).2, List.append_nil, List.append_nil,
        List.map_congr_left none, List.map_id', ofDistinct_unmark all]
  · rw [settled_of_unmarked unmarked]

/-- A group of one alternative that is all there is -/
theorem kept_of_alone {u : Alternative Value} (none : fresh [u] ys = []) : Kept [u] ys := by
  have repeated := fresh_eq_nil.mp none
  by_cases marked : ∃ y ∈ ys, y.marked = true
  · obtain ⟨y, member, marked⟩ := marked
    have equal : u.value.same y.value = true := by simpa [hasTwin] using repeated y member
    exact .inr (.inl (List.forall_mem_singleton.mpr ⟨y, member, marked, equal⟩))
  · exact .inr (.inr fun y member => ⟨Bool.eq_false_iff.mpr fun mark => marked ⟨y, member, mark⟩, repeated y member⟩)

theorem kept_of_marks (all : ∀ u ∈ us, u.marked = true)
    (equal : (settled ((us.map unmark).map (remark ys) ++ fresh us ys)).map (·.marked) =
      (settled (us ++ fresh us ys)).map (·.marked)) : Kept us ys := by
  rcases marked_or_unmarked ((us.map unmark).map (remark ys) ++ fresh us ys) with marked | unmarked
  · exact .inr (.inl (forall_marked_remark_unmark.mp (List.forall_mem_append.mp marked).1))
  rw [settled_of_unmarked unmarked] at equal
  rcases marked_or_unmarked (fresh us ys) with allFresh | unmarkedFresh
  · -- Nothing is marked on the right, hence nothing on the left.
    rw [settled_of_marked (List.forall_mem_append.mpr ⟨all, allFresh⟩)] at equal
    have silent : ∀ u ∈ (us.map unmark).map (remark ys) ++ fresh us ys, u.marked = false := by
      rw [← List.forall_mem_map (P := fun mark => mark = false), equal, List.map_map, List.forall_mem_map]
      exact fun _ _ => rfl
    obtain ⟨group, others⟩ := List.forall_mem_append.mp silent
    have none : fresh us ys = [] := List.eq_nil_iff_forall_not_mem.mpr fun y member =>
      Bool.false_ne_true ((others y member).symm.trans (allFresh y member))
    refine .inr (.inr fun y member => ?_)
    have twin := fresh_eq_nil.mp none y member
    obtain ⟨u, inside, same⟩ := hasTwin_eq_true.mp twin
    have unmarked := group _ (List.mem_map_of_mem (List.mem_map_of_mem inside))
    exact ⟨(unmarked_remark.mp unmarked).2 y member same, twin⟩
  · obtain ⟨y, member, unmarkedY⟩ := unmarkedFresh
    rw [settled_of_unmarked ⟨y, List.mem_append_right us member, unmarkedY⟩, List.map_append, List.map_append] at equal
    have group := List.append_inj_left equal (by simp)
    refine .inr (.inl (forall_marked_remark_unmark.mp ?_))
    rw [← List.forall_mem_map (P := fun mark => mark = true), group, List.forall_mem_map]
    exact all

theorem kept_of_same (same : (ofDistinct ((settled us).map (remark ys) ++ fresh us ys)).same
    (ofDistinct (us.map (remark ys) ++ fresh us ys)) = true) : Kept us ys := by
  rcases marked_or_unmarked us with all | unmarked
  · rw [settled_of_marked all, map_remark_of_marked all] at same
    by_cases single : ∃ only, us ++ fresh us ys = [only]
    · obtain ⟨only, single⟩ := single
      rcases List.append_eq_singleton_iff.mp single with ⟨rfl, _⟩ | ⟨rfl, none⟩
      · exact .inr (.inl (List.forall_mem_nil _))
      · exact kept_of_alone none
    · have several : ∀ only, us ++ fresh us ys ≠ [only] := fun only same => single ⟨only, same⟩
      refine kept_of_marks all (marks_of_same (fun only alone => ?_) several same)
      have length := congrArg List.length alone
      obtain ⟨only, alone⟩ := List.length_eq_one_iff.mp (show (us ++ fresh us ys).length = 1 by simpa using length)
      exact several only alone
  · exact .inl unmarked

section Groups

variable (wellXs : ∀ x ∈ xs, x.value.WellFormed) (wellYs : ∀ y ∈ ys, y.value.WellFormed)

include wellXs wellYs

theorem ofDistinct_append : ofDistinct (dedup (xs ++ ys)) =
    ofDistinct ((dedup xs).map (remark ys) ++ fresh (dedup xs) ys) := by
  rw [dedup_append wellXs wellYs, fresh]

theorem ofDistinct_group : ofDistinct (dedup (settled (dedup xs) ++ ys)) =
    ofDistinct ((settled (dedup xs)).map (remark ys) ++ fresh (dedup xs) ys) := by
  have apart : (settled (dedup xs)).Pairwise fun u w => u.value.same w.value = false := by
    unfold settled
    split
    · exact List.pairwise_map.mpr (pairwise_dedup xs)
    · exact pairwise_dedup xs
  have twins (y : Alternative Value) : hasTwin (settled (dedup xs)) y = hasTwin (dedup xs) y := by
    unfold settled
    split
    · exact hasTwin_map fun _ => rfl
    · rfl
  have wellFormed : ∀ u ∈ settled (dedup xs), u.value.WellFormed := by
    unfold settled
    split
    · exact List.forall_mem_map.mpr fun u => wellFormed_of_mem_dedup wellXs
    · exact fun u => wellFormed_of_mem_dedup wellXs
  simp only [dedup_append wellFormed wellYs, dedup_of_distinct apart, twins, fresh]

end Groups

/-- A group of alternatives among others is the same without parentheses just if its marks are kept. -/
theorem disjoin_group (xs ys : List (Alternative Value))
    (left : ∀ x ∈ xs.flatMap flatten, x.value.isDisjunction = false ∧ x.value.WellFormed)
    (right : ∀ y ∈ ys.flatMap flatten, y.value.WellFormed) :
    (MarksKept (xs.flatMap flatten) (ys.flatMap flatten) → disjoin (⟨disjoin xs, false⟩ :: ys) = disjoin (xs ++ ys)) ∧
      (¬MarksKept (xs.flatMap flatten) (ys.flatMap flatten) →
        (disjoin (⟨disjoin xs, false⟩ :: ys)).same (disjoin (xs ++ ys)) = false) := by
  have wellXs := fun x member => (left x member).2
  have single : ∀ u ∈ dedup (xs.flatMap flatten), u.value.isDisjunction = false := by
    intro u member
    obtain ⟨x, inside, same⟩ := value_of_mem_dedup member
    exact same ▸ (left x inside).1
  have group : disjoin (⟨disjoin xs, false⟩ :: ys) =
      ofDistinct (dedup (settled (dedup (xs.flatMap flatten)) ++ ys.flatMap flatten)) := by
    rw [disjoin, List.flatMap_cons, disjoin, flatten_ofDistinct single]
  rw [group, ofDistinct_group wellXs right, disjoin, List.flatMap_append, ofDistinct_append wellXs right,
    ← kept_dedup wellXs right]
  exact ⟨ofDistinct_of_kept, fun lost => Bool.eq_false_iff.mpr fun same => lost (kept_of_same same)⟩

end Value

end StackLattice
