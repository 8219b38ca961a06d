import StackLattice.Proofs.Decimal.Digits
import StackLattice.Proofs.Value.Placed

/-!
Where a conflict points. Without alternatives its labels lead, in either value, to parts that clash themselves, and its
position is that of the innermost field on the way that has one.
-/

namespace StackLattice

namespace Value

/-- What stands under a label, and the position of the field that holds it: the field of that name, or the element of
    that index. -/
def under? : Value → String → Option (Value × Option Position)
  | struct fields, label => (Field.find? fields label).map fun f => (f.value, f.position)
  | list items, label => (items.zipIdx.find? fun item => toString item.2 == label).map fun item => (item.1, none)
  | _, _ => none

/-- Follows labels from the outermost inward, to the last value and with the positions on the way. -/
def follow? : List String → Value → Option (Value × List (Option Position))
  | [], v => some (v, [])
  | label :: labels, v => do
    let (part, position) ← v.under? label
    let (last, positions) ← follow? labels part
    return (last, position :: positions)

/-- The innermost position on the way through two values; the left one counts first. -/
def innermost (left right : List (Option Position)) : Option Position :=
  (List.zipWith Option.or left right).reverse.findSome? id

theorem innermost_cons (p q : Option Position) (ps qs : List (Option Position)) :
    innermost (p :: ps) (q :: qs) = (innermost ps qs).or (p.or q) := by
  rw [innermost, List.zipWith_cons_cons, List.reverse_cons, List.findSome?_append, List.findSome?_singleton]
  rfl

theorem follow?_cons {v part last : Value} {label : String} {labels : List String} {position : Option Position}
    {positions : List (Option Position)} (first : v.under? label = some (part, position))
    (rest : part.follow? labels = some (last, positions)) :
    v.follow? (label :: labels) = some (last, position :: positions) := by
  simp [follow?, first, rest]

theorem under?_struct {fields : List (Field Value)} {f : Field Value} {label : String}
    (found : Field.find? fields label = some f) : (struct fields).under? label = some (f.value, f.position) := by
  rw [under?, found, Option.map_some]

theorem find?_zipIdx (items : List Value) (start i : Nat) :
    ((items.zipIdx start).find? fun item => toString item.2 == toString (start + i)) =
      items[i]?.map fun item => (item, start + i) := by
  induction items generalizing start i with
  | nil => rfl
  | cons item items ih =>
    rw [List.zipIdx_cons, List.find?_cons]
    cases i with
    | zero => simp
    | succ i =>
      have other : (toString start == toString (start + (i + 1))) = false := by
        rw [beq_eq_false_iff_ne]
        intro same
        have := Decimal.eq_of_toString_eq same
        omega
      have next := ih (start + 1) i
      rw [Nat.add_assoc, Nat.add_comm 1 i] at next
      simp only [other, next, List.getElem?_cons_succ]

theorem under?_list {items : List Value} {item : Value} {i : Nat} (here : items[i]? = some item) :
    (list items).under? (toString i) = some (item, none) := by
  have found := find?_zipIdx items 0 i
  rw [Nat.zero_add, here] at found
  rw [under?, found]
  rfl

/-- The labels of a conflict lead to parts of two values that clash themselves, and its position is the innermost on
    the way. -/
def PointsAt (c : Conflict) (a b : Value) : Prop :=
  ∃ x y lefts rights, a.follow? c.labels = some (x, lefts) ∧ b.follow? c.labels = some (y, rights) ∧
    x.unify y = .error { clash := c.clash } ∧ c.position = innermost lefts rights

theorem pointsAt_here {a b : Value} {clash : Clash} (h : a.unify b = .error { clash }) :
    PointsAt { clash } a b := ⟨a, b, [], [], rfl, rfl, h, rfl⟩

theorem PointsAt.within {c : Conflict} {a b part part' : Value} {label : String} {p q : Option Position}
    (h : PointsAt c part part') (left : a.under? label = some (part, p)) (right : b.under? label = some (part', q)) :
    PointsAt (c.within label (p.or q)) a b := by
  obtain ⟨x, y, lefts, rights, toLeft, toRight, clash, position⟩ := h
  refine ⟨x, y, p :: lefts, q :: rights, follow?_cons left toLeft, follow?_cons right toRight, clash, ?_⟩
  rw [innermost_cons, ← position]
  rfl

/-- A conflict of values without alternatives points at the place that clashes. -/
theorem pointsAt_of_unify_error {a b : Value} {c : Conflict} (left : a.Undivided) (right : b.Undivided)
    (wellFormed : b.WellFormed) (h : a.unify b = .error c) : PointsAt c a b := by
  induction a, b using pair_induction generalizing c with
  | step a b ih =>
    have rule := unify_rule a b
    rw [h] at rule
    generalize result : Except.error c = r at rule
    cases rule with
    | structsApart xs ys c' fields =>
      cases result
      obtain ⟨f, g, inRight, found, inner, clash, rfl⟩ := exists_of_unifyFields_error fields
      have inLeft := Field.mem_of_find? found
      have inside := ih _ _ (sizeOf_fields_lt inLeft inRight) (left.field inLeft) (right.field inRight)
        (wellFormed.field inRight) clash
      exact inside.within (under?_struct found) (under?_struct (wellFormed.distinct.find?_of_mem inRight))
    | listsApart xs ys lengths c' items =>
      cases result
      obtain ⟨i, x, y, ofLeft, ofRight, inner, clash, rfl⟩ := exists_of_unifyItems_error items
      have inLeft := List.mem_of_getElem? ofLeft
      have inRight := List.mem_of_getElem? ofRight
      have inside := ih x y (sizeOf_items_lt inLeft inRight) (left.item inLeft) (right.item inRight)
        (wellFormed.item inRight) clash
      rw [Nat.zero_add]
      exact inside.within (under?_list ofLeft) (under?_list ofRight)
    | alternatives _ _ _ _ either =>
      rw [left.here, right.here] at either
      simp at either
    | kindsApart | kindLeftApart | kindRightApart | lengthsApart | unequal | shapesApart =>
      cases result
      exact pointsAt_here h
    | _ => cases result

theorem undivided_struct (fields : List (Field Value)) :
    (struct fields).Undivided ↔ ∀ f ∈ fields, f.value.Undivided := by
  rw [Undivided, Everywhere.iff_parts]
  simp only [parts, List.forall_mem_map]
  exact and_iff_right rfl

theorem undivided_list (items : List Value) : (list items).Undivided ↔ ∀ item ∈ items, item.Undivided := by
  rw [Undivided, Everywhere.iff_parts]
  exact and_iff_right rfl

theorem undivided_leaf {v : Value} (leaf : v.parts = []) (single : v.isDisjunction = false) : v.Undivided :=
  .intro single (by simp [leaf])

/-- A clash in an element of a list; of the fields on the way, the innermost has a position on the right only. -/
theorem pointsAt_of_unify_error_listed :
    let place (line column : Nat) : Option Position := some ⟨none, line, column⟩
    let small := struct [{ label := "size", value := int 1 }]
    let large := struct [{ label := "size", position := place 5 3, value := int 2 }]
    let a := struct [{ label := "web", position := place 1 1, value := list [null, small] }]
    let b := struct [{ label := "db", value := kind .int },
      { label := "web", position := place 4 1, value := list [top, large] }]
    let c : Conflict :=
      { labels := ["web", "1", "size"], clash := .values (int 1) (int 2), position := place 5 3 }
    (a.Undivided ∧ b.Undivided ∧ b.WellFormed) ∧ a.unify b = .error c ∧ PointsAt c a b := by
  intro place small large a b c
  have left : a.Undivided := by
    simp [a, small, undivided_struct, undivided_list]
    exact ⟨undivided_leaf rfl rfl, undivided_leaf rfl rfl⟩
  have right : b.Undivided := by
    simp [b, large, undivided_struct, undivided_list]
    exact ⟨undivided_leaf rfl rfl, undivided_leaf rfl rfl, undivided_leaf rfl rfl⟩
  have wellFormed : b.WellFormed := by
    simp [b, large, Field.Distinct]
    refine ⟨?_, ?_, ?_⟩ <;> exact wellFormed_of_parts_eq_nil rfl
  have clash : a.unify b = .error c := by
    simp [a, b, c, small, large, place, unify, unifyFields_eq_mapM, meetField, unifyItems, Field.find?, same,
      Conflict.within, Bind.bind, Except.bind]
    rfl
  exact ⟨⟨left, right, wellFormed⟩, clash, pointsAt_of_unify_error left right wellFormed clash⟩

end Value

end StackLattice
