import StackLattice.Proofs.Value.Instance

/-!
Where the positions in values come from. Unification and disjunction make up none, and a conflict is placed at a
field of the values that clash.
-/

namespace StackLattice

namespace Value

variable {P : Position → Prop}

def PlacedHere (P : Position → Prop) : Value → Prop
  | struct fields => ∀ f ∈ fields, ∀ p ∈ f.position, P p
  | _ => True

/-- Whether a property holds of every position in a value. -/
def Placed (P : Position → Prop) (v : Value) : Prop := v.Everywhere (PlacedHere P)

theorem placed_of_leaf {v : Value} (leaf : v.parts = []) (here : v.PlacedHere P) : v.Placed P :=
  ⟨here, by simp [leaf]⟩

theorem placed_top : top.Placed P := placed_of_leaf rfl trivial

theorem placed_struct {fields : List (Field Value)} :
    (struct fields).Placed P ↔ ∀ f ∈ fields, (∀ p ∈ f.position, P p) ∧ f.value.Placed P := by
  rw [Placed, Everywhere.iff_parts]
  simp only [PlacedHere, parts, List.forall_mem_map, Placed]
  exact forall₂_and.symm

theorem placed_list {items : List Value} : (list items).Placed P ↔ ∀ item ∈ items, item.Placed P := by
  rw [Placed, Everywhere.iff_parts]
  exact and_iff_right trivial

theorem placed_disjoin {alternatives : List (Alternative Value)} (h : ∀ a ∈ alternatives, a.value.Placed P) :
    (disjoin alternatives).Placed P := everywhere_disjoin (fun _ => trivial) h

theorem placed_join {f g : Option Position} (left : ∀ p ∈ f, P p) (right : ∀ p ∈ g, P p) : ∀ p ∈ f.or g, P p := by
  cases f with
  | none => exact right
  | some _ => exact left

theorem placed_unify {a b v : Value} (left : a.Placed P) (right : b.Placed P) (h : a.unify b = .ok v) :
    v.Placed P := by
  refine everywhere_unify (fun _ => trivial) (fun _ => trivial) ?_ ?_ left right h
  · intro xs ys met inLeft inRight fields f member
    obtain old | new | ⟨x, old, y, new, _, _, rfl⟩ := cases_of_mem_mergeFields fields member
    · exact inLeft f old
    · exact inRight f new
    · exact placed_join (inLeft x old) (inRight y new)
  · exact fun _ _ _ _ _ _ _ each => everywhere_disjoin (fun _ => trivial) fun c member => (each c member).1

theorem exists_of_unifyFields_error {xs ys : List (Field Value)} {c : Conflict} (h : unifyFields xs ys = .error c) :
    ∃ f, ∃ g ∈ ys, Field.find? xs g.label = some f ∧ ∃ inner, f.value.unify g.value = .error inner ∧
      c = inner.within g.label (f.position.or g.position) := by
  induction ys with
  | nil =>
    rw [unifyFields] at h
    cases h
  | cons g ys ih =>
    have rest {r : Except Conflict (List (Field Value))} {m : Field Value}
        (same : r = unifyFields xs ys) (failed : (do return m :: (← r)) = Except.error c) :
        unifyFields xs ys = .error c := by
      rw [← same]
      cases r <;> cases failed
      rfl
    have later (failed : unifyFields xs ys = .error c) : ∃ f, ∃ g' ∈ g :: ys, Field.find? xs g'.label = some f ∧
        ∃ inner, f.value.unify g'.value = .error inner ∧ c = inner.within g'.label (f.position.or g'.position) := by
      obtain ⟨f, g', inRight, clash⟩ := ih failed
      exact ⟨f, g', List.mem_cons_of_mem _ inRight, clash⟩
    rw [unifyFields] at h
    split at h
    · exact later (rest rfl h)
    · rename_i f found
      split at h
      · rename_i inner clash
        cases h
        exact ⟨f, g, List.mem_cons_self, found, inner, clash, rfl⟩
      · exact later (rest rfl h)

theorem exists_of_unifyItems_error {index : Nat} {xs ys : List Value} {c : Conflict}
    (h : unifyItems index xs ys = .error c) :
    ∃ (i : Nat) (x y : Value), xs[i]? = some x ∧ ys[i]? = some y ∧ ∃ inner : Conflict,
      x.unify y = .error inner ∧ c = inner.within (toString (index + i)) none := by
  induction xs generalizing ys index with
  | nil =>
    rw [unifyItems] at h
    · cases h
    · simp
  | cons x xs ih =>
    cases ys with
    | nil =>
      rw [unifyItems] at h
      · cases h
      · simp
    | cons y ys =>
      rw [unifyItems] at h
      split at h
      · rename_i inner clash
        cases h
        exact ⟨0, x, y, rfl, rfl, inner, clash, rfl⟩
      · cases rest : unifyItems (index + 1) xs ys with
        | ok met =>
          rw [rest] at h
          cases h
        | error c' =>
          rw [rest] at h
          cases h
          obtain ⟨i, x', y', ofLeft, ofRight, inner, clash, same⟩ := ih rest
          exact ⟨i + 1, x', y', ofLeft, ofRight, inner, clash, by rw [same, Nat.add_assoc, Nat.add_comm 1]⟩

/-- The conflict of alternatives is placed where that of a pair is, or nowhere. -/
theorem position_of_settle {outcomes : List Outcome} {c : Conflict} (h : settle outcomes = .error c) :
    c.position = none ∨ ∃ o ∈ outcomes, ∃ inner, o.result = .error inner ∧ c.position = inner.position := by
  have first : (outcomes.findSome? Outcome.conflict?).getD { clash := .noAlternative } = { clash := .noAlternative } ∨
      ∃ o ∈ outcomes, ∃ inner, o.result = .error inner ∧
        (outcomes.findSome? Outcome.conflict?).getD { clash := .noAlternative } = inner := by
    cases found : outcomes.findSome? Outcome.conflict? with
    | none => exact .inl rfl
    | some inner =>
      obtain ⟨o, member, is⟩ := List.exists_of_findSome?_eq_some found
      refine .inr ⟨o, member, inner, ?_, rfl⟩
      unfold Outcome.conflict? at is
      split at is <;> cases is
      assumption
  have position : c.position = ((outcomes.findSome? Outcome.conflict?).getD { clash := .noAlternative }).position := by
    unfold settle at h
    split at h
    · split at h <;> cases h <;> rfl
    · cases h
  rw [position]
  rcases first with none | ⟨o, member, inner, failed, same⟩
  · rw [none]
    exact .inl rfl
  · exact .inr ⟨o, member, inner, failed, by rw [same]⟩

/-- A conflict is placed at a field of the values that clash, if anywhere. -/
theorem placed_conflict {a b : Value} {c : Conflict} (left : a.Placed P) (right : b.Placed P)
    (h : a.unify b = .error c) : ∀ p ∈ c.position, P p := by
  induction a, b using pair_induction generalizing c with
  | step a b ih =>
    have rule := unify_rule a b
    generalize a.unify b = result at h rule
    cases rule with
    | structsApart xs ys c' fields =>
      cases h
      obtain ⟨f, g, inRight, found, inner, clash, rfl⟩ := exists_of_unifyFields_error fields
      have inLeft := Field.mem_of_find? found
      rw [placed_struct] at left right
      have inside := ih _ _ (sizeOf_fields_lt inLeft inRight) (left f inLeft).2 (right g inRight).2 clash
      exact placed_join inside (placed_join (left f inLeft).1 (right g inRight).1)
    | listsApart xs ys lengths c' items =>
      cases h
      obtain ⟨i, x, y, ofLeft, ofRight, inner, clash, rfl⟩ := exists_of_unifyItems_error items
      have inLeft := List.mem_of_getElem? ofLeft
      have inRight := List.mem_of_getElem? ofRight
      rw [placed_list] at left right
      have inside := ih x y (sizeOf_items_lt inLeft inRight) (left x inLeft) (right y inRight) clash
      exact placed_join inside (by simp)
    | alternatives _ _ _ _ either =>
      rcases position_of_settle h with nowhere | ⟨o, member, inner, failed, same⟩
      · simp [nowhere]
      · rw [same]
        obtain ⟨x, inLeft, paired⟩ := List.mem_flatMap.mp member
        obtain ⟨y, inRight, rfl⟩ := List.mem_map.mp paired
        exact ih _ _ (sizeOf_alternatives_lt either inLeft inRight) (everywhere_of_mem_ofValue left inLeft)
          (everywhere_of_mem_ofValue right inRight) failed
    | kindsApart | kindLeftApart | kindRightApart | lengthsApart | unequal | shapesApart =>
      cases h
      simp
    | _ => cases h

end Value

end StackLattice
