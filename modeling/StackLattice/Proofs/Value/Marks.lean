import Mathlib.Data.List.Pairwise
import StackLattice.Proofs.Value.Equivalence
import StackLattice.Proofs.Value.Tame

/-!
The marks of alternatives that are left when repetitions are left out: one default stays one default, whatever it is
merged with.
-/

namespace StackLattice

namespace Alternative

theorem flatten_of_single {a : Alternative Value} (single : a.value.isDisjunction = false) : a.flatten = [a] := by
  obtain ⟨value, marked⟩ := a
  cases value <;> first
    | rfl
    | exact absurd single.symm Bool.false_ne_true

theorem flatMap_flatten_of_single {alternatives : List (Alternative Value)}
    (single : ∀ a ∈ alternatives, a.value.isDisjunction = false) : alternatives.flatMap flatten = alternatives := by
  rw [List.flatMap_congr fun a member => flatten_of_single (single a member)]
  exact List.flatMap_singleton' alternatives

theorem eq_singleton_of_forall_same {marks : List (Alternative Value)} {r : Value} (wellFormed : r.WellFormed)
    (each : ∀ u ∈ marks, u.value.WellFormed ∧ u.value.same r = true)
    (distinct : marks.Pairwise fun u w => u.value.same w.value = false) (some : marks ≠ []) : ∃ u, marks = [u] := by
  obtain _ | ⟨u, _ | ⟨w, rest⟩⟩ := marks
  · exact absurd rfl some
  · exact ⟨u, rfl⟩
  · obtain ⟨wellU, sameU⟩ := each u (by simp)
    obtain ⟨wellW, sameW⟩ := each w (by simp)
    have apart := (List.pairwise_cons.mp distinct).1 w (by simp)
    rw [Value.same_trans wellU wellFormed wellW sameU (Value.same_symm wellW wellFormed sameW)] at apart
    cases apart

/-- If all marked alternatives have one value, one of those that are left is marked, and it has an equal value. -/
theorem filter_marked_dedup {alternatives : List (Alternative Value)} {r : Value}
    (proper : ∀ a ∈ alternatives, a.value.Proper) (some : ∃ a ∈ alternatives, a.marked = true)
    (only : ∀ a ∈ alternatives, a.marked = true → a.value = r) :
    ∃ u ∈ dedup alternatives, (dedup alternatives).filter (·.marked) = [u] ∧ u.value.same r = true := by
  have properR : r.Proper := by
    obtain ⟨a, member, marked⟩ := some
    exact only a member marked ▸ proper a member
  have covered {u a : Alternative Value} (member : a ∈ alternatives) (marked : a.marked = true) (covers : u.Covers a) :
      u.value.same r = true := by
    rcases covers with equal | same
    · rw [equal, only a member marked]
      exact Value.same_self properR
    · rwa [only a member marked] at same
  have each : ∀ u ∈ (dedup alternatives).filter (·.marked), u.value.WellFormed ∧ u.value.same r = true := by
    intro u left
    obtain ⟨left, marked⟩ := List.mem_filter.mp left
    obtain ⟨⟨b, inside, value, _⟩, marks⟩ := origin_of_mem_dedup left
    obtain ⟨a, member, marked, covers⟩ := marks marked
    exact ⟨value ▸ (proper b inside).wellFormed, covered member marked covers⟩
  obtain ⟨a, member, marked⟩ := some
  obtain ⟨w, left, _, kept⟩ := exists_mem_dedup member
  have found := List.mem_filter.mpr ⟨left, kept marked⟩
  obtain ⟨u, single⟩ := eq_singleton_of_forall_same properR.wellFormed each
    ((pairwise_dedup alternatives).sublist List.filter_sublist) (List.ne_nil_of_mem found)
  have here : u ∈ (dedup alternatives).filter (·.marked) := by simp [single]
  exact ⟨u, (List.mem_filter.mp here).1, single, (each u here).2⟩

variable {us xs ys : List (Alternative Value)} {a u w : Alternative Value}

/-- Whether some alternative has a value that equals that of another. -/
def hasTwin (us : List (Alternative Value)) (a : Alternative Value) : Bool := us.any (·.value.same a.value)

theorem hasTwin_eq_true : hasTwin us a = true ↔ ∃ u ∈ us, u.value.same a.value = true := List.any_eq_true

theorem hasTwin_eq_false : hasTwin us a = false ↔ ∀ u ∈ us, u.value.same a.value = false := by
  simp [hasTwin, List.any_eq_false]

/-- An alternative after others of equal value have been merged into it. -/
def remark (others : List (Alternative Value)) (u : Alternative Value) : Alternative Value :=
  ⟨u.value, u.marked || others.any fun y => u.value.same y.value && y.marked⟩

theorem marked_remark :
    (remark ys u).marked = true ↔ u.marked = true ∨ ∃ y ∈ ys, y.marked = true ∧ u.value.same y.value = true := by
  simp [remark, and_comm]

theorem unmarked_remark :
    (remark ys u).marked = false ↔ u.marked = false ∧ ∀ y ∈ ys, u.value.same y.value = true → y.marked = false := by
  simp [remark]

theorem remark_of_silent (silent : ∀ y ∈ ys, u.value.same y.value = true → y.marked = false) : remark ys u = u := by
  have none : (ys.any fun y => u.value.same y.value && y.marked) = false := by simpa using silent
  rw [remark, none, Bool.or_false]

theorem remark_of_absent (absent : ∀ y ∈ ys, u.value.same y.value = false) : remark ys u = u :=
  remark_of_silent fun y member same => absurd same (by simp [absent y member])

theorem remark_of_marked (marked : u.marked = true) : remark ys u = u := by
  rw [remark, marked, Bool.true_or]
  exact congrArg (Alternative.mk u.value) marked.symm

theorem map_remark_of_marked (all : ∀ u ∈ us, u.marked = true) : us.map (remark ys) = us := by
  rw [List.map_congr_left fun u member => remark_of_marked (all u member), List.map_id']

theorem remark_append (ys zs : List (Alternative Value)) (u : Alternative Value) :
    remark (ys ++ zs) u = remark zs (remark ys u) := by
  simp [remark, Bool.or_assoc]

theorem hasTwin_map {f : Alternative Value → Alternative Value} (values : ∀ u, (f u).value = u.value) :
    hasTwin (us.map f) a = hasTwin us a := by
  simp [hasTwin, Function.comp_def, values]

section Folding

variable (rest : List (Alternative Value))

theorem add_append_of_twin (twin : hasTwin us a = true) : add a (us ++ rest) = add a us ++ rest := by
  induction us with
  | nil => cases twin
  | cons u us ih =>
    rw [List.cons_append, add, add]
    by_cases here : u.value.same a.value = true
    · rw [if_pos here, if_pos here, List.cons_append]
    · rw [if_neg here, if_neg here, List.cons_append, ih]
      simpa [hasTwin, here] using twin

theorem add_append_of_absent (absent : hasTwin us a = false) : add a (us ++ rest) = us ++ add a rest := by
  induction us with
  | nil => rfl
  | cons u us ih =>
    obtain ⟨first, others⟩ := List.forall_mem_cons.mp (hasTwin_eq_false.mp absent)
    rw [List.cons_append, add, first, if_neg Bool.false_ne_true, ih (hasTwin_eq_false.mpr others), List.cons_append]

end Folding

/-- Among alternatives that differ from each other at most one takes over a mark. -/
theorem add_of_twin (wellFormed : ∀ u ∈ us, u.value.WellFormed) (wellA : a.value.WellFormed)
    (distinct : us.Pairwise fun u w => u.value.same w.value = false) (twin : hasTwin us a = true) :
    add a us = us.map (remark [a]) := by
  induction us with
  | nil => cases twin
  | cons u us ih =>
    obtain ⟨apart, distinct⟩ := List.pairwise_cons.mp distinct
    obtain ⟨wellU, wellFormed⟩ := List.forall_mem_cons.mp wellFormed
    rw [add, List.map_cons]
    by_cases here : u.value.same a.value = true
    · have others : ∀ w ∈ us, remark [a] w = w := by
        intro w member
        refine remark_of_absent (List.forall_mem_singleton.mpr (Bool.eq_false_iff.mpr fun same => ?_))
        have equal := Value.same_trans wellU wellA (wellFormed w member) here
          (Value.same_symm (wellFormed w member) wellA same)
        rw [apart w member] at equal
        cases equal
      rw [if_pos here, List.map_congr_left others, List.map_id']
      simp [remark, here]
    · rw [if_neg here, remark_of_absent (List.forall_mem_singleton.mpr (Bool.eq_false_iff.mpr here)),
        ih wellFormed distinct (by simpa [hasTwin, here] using twin)]

theorem dedup_of_distinct (distinct : us.Pairwise fun u w => u.value.same w.value = false) : dedup us = us := by
  induction us using List.reverseRecOn with
  | nil => rfl
  | append_singleton us a ih =>
    obtain ⟨distinct, _, apart⟩ := List.pairwise_append.mp distinct
    have absent : hasTwin us a = false := hasTwin_eq_false.mpr fun u member => apart u member a (by simp)
    rw [dedup_append_singleton, ih distinct]
    simpa [add] using add_append_of_absent [] absent

/-- Alternatives that are added to others mark those that they equal, and what is left of them follows. -/
theorem dedup_append (wellXs : ∀ x ∈ xs, x.value.WellFormed) (wellYs : ∀ y ∈ ys, y.value.WellFormed) :
    dedup (xs ++ ys) = (dedup xs).map (remark ys) ++ dedup (ys.filter fun y => !hasTwin (dedup xs) y) := by
  induction ys using List.reverseRecOn with
  | nil =>
    have same : ∀ u ∈ dedup xs, remark [] u = u := fun u _ => remark_of_absent (List.forall_mem_nil _)
    simp [List.map_congr_left same, show dedup [] = [] from rfl]
  | append_singleton ys a ih =>
    have wellA := wellYs a (by simp)
    have values (u : Alternative Value) : (remark ys u).value = u.value := rfl
    rw [← List.append_assoc, dedup_append_singleton, ih fun y member => wellYs y (by simp [member]), List.filter_append]
    cases twin : hasTwin (dedup xs) a with
    | true =>
      have wellFormed : ∀ u ∈ (dedup xs).map (remark ys), u.value.WellFormed := by
        rw [List.forall_mem_map]
        intro u member
        obtain ⟨x, inside, same⟩ := value_of_mem_dedup member
        exact same ▸ wellXs x inside
      have twin' : hasTwin ((dedup xs).map (remark ys)) a = true := (hasTwin_map values).trans twin
      rw [add_append_of_twin _ twin', add_of_twin wellFormed wellA (List.pairwise_map.mpr (pairwise_dedup xs)) twin',
        List.map_map]
      simp [twin, Function.comp_def, remark_append]
    | false =>
      have same : ∀ u ∈ dedup xs, remark (ys ++ [a]) u = remark ys u := by
        intro u member
        rw [remark_append]
        exact remark_of_absent (List.forall_mem_singleton.mpr (hasTwin_eq_false.mp twin u member))
      rw [add_append_of_absent _ ((hasTwin_map values).trans twin), List.map_congr_left same]
      simp [twin, dedup_append_singleton]

section Repetitions

variable (wellFormed : ∀ x ∈ xs, x.value.WellFormed)

include wellFormed in
theorem wellFormed_of_mem_dedup (member : u ∈ dedup xs) : u.value.WellFormed := by
  obtain ⟨x, inside, same⟩ := value_of_mem_dedup member
  exact same ▸ wellFormed x inside

include wellFormed in
theorem eq_of_same (left : u ∈ dedup xs) (right : w ∈ dedup xs) (same : u.value.same w.value = true) : u = w := by
  have wellU := wellFormed_of_mem_dedup wellFormed left
  have wellW := wellFormed_of_mem_dedup wellFormed right
  by_contra differ
  let Apart (u w : Alternative Value) : Prop := u.value.same w.value = false ∨ w.value.same u.value = false
  have : Std.Symm Apart := ⟨fun _ _ => Or.symm⟩
  have distinct : (dedup xs).Pairwise Apart := (pairwise_dedup xs).imp .inl
  rcases distinct.forall left right differ with apart | apart
  · rw [same] at apart
    cases apart
  · rw [Value.same_symm wellU wellW same] at apart
    cases apart

include wellFormed in
/-- What equal values have in common is common to alternatives just if it is to those that are left of them. -/
theorem forall_mem_dedup {p : Value → Prop}
    (respects : ∀ v w : Value, v.WellFormed → w.WellFormed → v.same w = true → p v → p w) :
    (∀ u ∈ dedup xs, p u.value) ↔ ∀ x ∈ xs, p x.value := by
  constructor
  · intro each x member
    obtain ⟨u, left, covers, _⟩ := exists_mem_dedup member
    rcases covers with equal | same
    · exact equal ▸ each u left
    · exact respects _ _ (wellFormed_of_mem_dedup wellFormed left) (wellFormed x member) same (each u left)
  · intro each u left
    obtain ⟨x, member, equal⟩ := value_of_mem_dedup left
    exact equal ▸ each x member

include wellFormed in
theorem hasTwin_dedup (wellA : a.value.WellFormed) : hasTwin (dedup xs) a = hasTwin xs a := by
  rw [Bool.eq_iff_iff, ← not_iff_not, Bool.not_eq_true, Bool.not_eq_true, hasTwin_eq_false, hasTwin_eq_false]
  refine forall_mem_dedup (p := fun v => v.same a.value = false) wellFormed fun v w wellV wellW same apart => ?_
  refine Bool.eq_false_iff.mpr fun equal => ?_
  rw [Value.same_trans wellV wellW wellA same equal] at apart
  cases apart

/-- Whether an alternative is without a mark, and all that equal it are. -/
def Unmarked (xs : List (Alternative Value)) (x : Alternative Value) : Prop :=
  x.marked = false ∧ ∀ y ∈ xs, x.value.same y.value = true → y.marked = false

include wellFormed in
theorem exists_unmarked_dedup : (∃ u ∈ dedup xs, u.marked = false) ↔ ∃ x ∈ xs, Unmarked xs x := by
  constructor
  · rintro ⟨u, left, unmarked⟩
    obtain ⟨⟨x, member, value, mark⟩, _⟩ := origin_of_mem_dedup left
    have wellX := wellFormed x member
    refine ⟨x, member, Bool.eq_false_iff.mpr fun marked => ?_, fun y inside same => Bool.eq_false_iff.mpr fun marked => ?_⟩
    · rw [mark marked] at unmarked
      cases unmarked
    · obtain ⟨w, left', covers, kept⟩ := exists_mem_dedup inside
      have wellY := wellFormed y inside
      have equal : u.value.same w.value = true := by
        rw [value]
        rcases covers with equal | same'
        · rwa [equal]
        · have wellW := wellFormed_of_mem_dedup wellFormed left'
          exact Value.same_trans wellX wellY wellW same (Value.same_symm wellW wellY same')
      rw [eq_of_same wellFormed left left' equal, kept marked] at unmarked
      cases unmarked
  · rintro ⟨x, member, unmarked, others⟩
    obtain ⟨before, after, rfl⟩ := List.append_of_mem member
    have wellX := wellFormed x member
    have wellBefore : ∀ y ∈ before, y.value.WellFormed := fun y inside => wellFormed y (by simp [inside])
    rw [dedup_append wellBefore fun y inside => wellFormed y (by simp only [List.mem_append, inside, or_true])]
    cases twin : hasTwin (dedup before) x with
    | true =>
      -- The alternative that `x` is merged into has no mark of its own, since it equals `x`.
      obtain ⟨w, left, same⟩ := hasTwin_eq_true.mp twin
      have wellW := wellFormed_of_mem_dedup wellBefore left
      have back := Value.same_symm wellW wellX same
      refine ⟨remark (x :: after) w, by simp [List.mem_map_of_mem left], unmarked_remark.mpr ⟨?_, ?_⟩⟩
      · refine Bool.eq_false_iff.mpr fun marked => ?_
        obtain ⟨y, inside, mark, covers⟩ := (origin_of_mem_dedup left).2 marked
        have equal : x.value.same y.value = true := by
          rcases covers with equal | same'
          · rwa [← equal]
          · exact Value.same_trans wellX wellW (wellBefore y inside) back same'
        rw [others y (by simp [inside]) equal] at mark
        cases mark
      · intro y inside same'
        have member : y ∈ before ++ x :: after := List.mem_append_right before inside
        exact others y member (Value.same_trans wellX wellW (wellFormed y member) back same')
    | false =>
      have only : (x :: after).filter (fun y => !hasTwin (dedup before) y) =
          [x] ++ after.filter fun y => !hasTwin (dedup before) y := by simp [twin]
      have wellAfter : ∀ y ∈ after.filter fun y => !hasTwin (dedup before) y, y.value.WellFormed := fun y inside =>
        wellFormed y (by simp [(List.mem_filter.mp inside).1])
      rw [only, dedup_append (List.forall_mem_singleton.mpr wellX) wellAfter]
      refine ⟨remark (after.filter fun y => !hasTwin (dedup before) y) x, ?_, unmarked_remark.mpr ⟨unmarked, ?_⟩⟩
      · simp [show dedup [x] = [x] from rfl]
      intro y inside
      exact others y (by simp [(List.mem_filter.mp inside).1])

end Repetitions

end Alternative

namespace Value

theorem ofDistinct_of_not_all {alternatives : List (Alternative Value)} (several : ∀ only, alternatives ≠ [only])
    (notAll : alternatives.all (·.marked) = false) : ofDistinct alternatives = disjunction alternatives := by
  unfold ofDistinct
  split
  · exact absurd rfl (several _)
  · simp [notAll]

/-- A disjunction with one default stands for it, and is it when it has no other alternative. -/
theorem ofDistinct_of_default {alternatives : List (Alternative Value)} {u : Alternative Value}
    (default : alternatives.filter (·.marked) = [u]) :
    ofDistinct alternatives = u.value ∨
      ofDistinct alternatives = disjunction alternatives ∧ (disjunction alternatives).resolved = some u.value := by
  by_cases single : ∃ only, alternatives = [only]
  · obtain ⟨only, rfl⟩ := single
    have member : u ∈ [only].filter (·.marked) := by simp [default]
    rw [List.mem_singleton.mp (List.mem_filter.mp member).1]
    exact .inl rfl
  · right
    have several : ∀ only, alternatives ≠ [only] := fun only same => single ⟨only, same⟩
    refine ⟨ofDistinct_of_not_all several (Bool.eq_false_iff.mpr fun all => ?_), by simp [resolved, default]⟩
    rw [List.filter_eq_self.mpr (List.all_eq_true.mp all)] at default
    exact several u default

end Value

end StackLattice
