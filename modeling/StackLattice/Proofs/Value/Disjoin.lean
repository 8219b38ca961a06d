import Mathlib.Data.List.Induction
import StackLattice.Proofs.Value.Unify

/-!
What becomes of the alternatives of a disjunction: none is lost but for an equal one, and none is new.
-/

namespace StackLattice

namespace Alternative

/-- An alternative among which another was added is old, is the other one, or took over the mark of the other one. -/
theorem cases_of_mem_add {a u : Alternative Value} {us : List (Alternative Value)} (h : u ∈ add a us) :
    u = a ∨ u ∈ us ∨ ∃ w ∈ us, w.value.same a.value = true ∧ u = ⟨w.value, w.marked || a.marked⟩ := by
  induction us with
  | nil => exact .inl (List.mem_singleton.mp h)
  | cons w us ih =>
    rw [add] at h
    split at h
    · rcases List.mem_cons.mp h with rfl | member
      · exact .inr (.inr ⟨w, List.mem_cons_self, ‹_›, rfl⟩)
      · exact .inr (.inl (List.mem_cons_of_mem _ member))
    · rcases List.mem_cons.mp h with rfl | member
      · exact .inr (.inl List.mem_cons_self)
      · rcases ih member with same | old | ⟨x, old, same⟩
        · exact .inl same
        · exact .inr (.inl (List.mem_cons_of_mem _ old))
        · exact .inr (.inr ⟨x, List.mem_cons_of_mem _ old, same⟩)

theorem value_of_mem_add {a u : Alternative Value} {us : List (Alternative Value)} (h : u ∈ add a us) :
    u.value = a.value ∨ ∃ w ∈ us, u.value = w.value := by
  rcases cases_of_mem_add h with rfl | old | ⟨w, old, _, rfl⟩
  · exact .inl rfl
  · exact .inr ⟨u, old, rfl⟩
  · exact .inr ⟨w, old, rfl⟩

/-- Whether one alternative can take the place of another when repetitions are left out. -/
def Covers (u a : Alternative Value) : Prop := u.value = a.value ∨ u.value.same a.value = true

theorem exists_mem_add (a : Alternative Value) (us : List (Alternative Value)) :
    ∃ u ∈ add a us, u.Covers a ∧ (a.marked = true → u.marked = true) := by
  induction us with
  | nil => exact ⟨a, by simp [add], .inl rfl, id⟩
  | cons w us ih =>
    rw [add]
    split
    · exact ⟨_, List.mem_cons_self, .inr ‹_›, fun marked => by simp [marked]⟩
    · obtain ⟨u, member, same⟩ := ih
      exact ⟨u, List.mem_cons_of_mem _ member, same⟩

theorem exists_mem_add_of_mem (a : Alternative Value) {w : Alternative Value}
    {us : List (Alternative Value)} (h : w ∈ us) :
    ∃ u ∈ add a us, u.value = w.value ∧ (w.marked = true → u.marked = true) := by
  induction us with
  | nil => cases h
  | cons x us ih =>
    rw [add]
    split
    · rcases List.mem_cons.mp h with rfl | member
      · exact ⟨_, List.mem_cons_self, rfl, fun marked => by simp [marked]⟩
      · exact ⟨w, List.mem_cons_of_mem _ member, rfl, id⟩
    · rcases List.mem_cons.mp h with rfl | member
      · exact ⟨w, List.mem_cons_self, rfl, id⟩
      · obtain ⟨u, member, same⟩ := ih member
        exact ⟨u, List.mem_cons_of_mem _ member, same⟩

theorem dedup_append_singleton (alternatives : List (Alternative Value)) (a : Alternative Value) :
    dedup (alternatives ++ [a]) = add a (dedup alternatives) := by
  simp [dedup]

/-- An alternative that is left comes from one that is as marked or less, and its mark from one that it covers. -/
theorem origin_of_mem_dedup {alternatives : List (Alternative Value)} {u : Alternative Value}
    (h : u ∈ dedup alternatives) :
    (∃ a ∈ alternatives, u.value = a.value ∧ (a.marked = true → u.marked = true)) ∧
      (u.marked = true → ∃ a ∈ alternatives, a.marked = true ∧ u.Covers a) := by
  induction alternatives using List.reverseRecOn generalizing u with
  | nil => cases h
  | append_singleton alternatives a ih =>
    rw [dedup_append_singleton] at h
    rcases cases_of_mem_add h with rfl | old | ⟨w, old, same, rfl⟩
    · exact ⟨⟨u, by simp, rfl, id⟩, fun marked => ⟨u, by simp, marked, .inl rfl⟩⟩
    · obtain ⟨⟨b, member, from_⟩, marks⟩ := ih old
      refine ⟨⟨b, by simp [member], from_⟩, fun marked => ?_⟩
      obtain ⟨b, member, given⟩ := marks marked
      exact ⟨b, by simp [member], given⟩
    · obtain ⟨⟨b, member, value, mark⟩, marks⟩ := ih old
      refine ⟨⟨b, by simp [member], value, fun marked => by simp [mark marked]⟩, fun marked => ?_⟩
      rcases Bool.or_eq_true_iff.mp marked with own | taken
      · obtain ⟨b, member, given⟩ := marks own
        exact ⟨b, by simp [member], given⟩
      · exact ⟨a, by simp, taken, .inr same⟩

theorem value_of_mem_dedup {alternatives : List (Alternative Value)} {u : Alternative Value}
    (h : u ∈ dedup alternatives) : ∃ a ∈ alternatives, u.value = a.value := by
  obtain ⟨⟨a, member, same, _⟩, _⟩ := origin_of_mem_dedup h
  exact ⟨a, member, same⟩

theorem exists_mem_dedup {alternatives : List (Alternative Value)} {a : Alternative Value}
    (h : a ∈ alternatives) : ∃ u ∈ dedup alternatives, u.Covers a ∧ (a.marked = true → u.marked = true) := by
  induction alternatives using List.reverseRecOn with
  | nil => cases h
  | append_singleton alternatives last ih =>
    rw [dedup_append_singleton]
    rcases List.mem_append.mp h with member | member
    · obtain ⟨w, member, same, mark⟩ := ih member
      obtain ⟨u, member, equal, mark'⟩ := exists_mem_add_of_mem last member
      exact ⟨u, member, by rwa [Covers, equal], mark' ∘ mark⟩
    · rcases List.mem_singleton.mp member with rfl
      exact exists_mem_add a _

end Alternative

namespace Value

/-- Unification of alternatives succeeds when a pair of them unifies. -/
theorem settle_eq_ok {outcomes : List Outcome} {v : Value} :
    settle outcomes = .ok v ↔
      outcomes.filterMap Outcome.alternative? ≠ [] ∧
        v = disjoin (outcomes.filterMap Outcome.alternative?) := by
  unfold settle
  split
  · rename_i none
    simp only [none]
    split <;> simp
  · rename_i found
    rw [Except.ok.injEq]
    exact ⟨fun same => ⟨found, same.symm⟩, fun h => h.2.symm⟩

theorem mem_alternatives_pairings {xs ys : List (Alternative Value)} {a : Alternative Value} :
    a ∈ (pairings xs ys).filterMap Outcome.alternative? ↔
      ∃ x ∈ xs, ∃ y ∈ ys, x.value.unify y.value = .ok a.value ∧ a.marked = (counts xs x && counts ys y) := by
  simp only [pairings, List.mem_filterMap, List.mem_flatMap, List.mem_map]
  constructor
  · rintro ⟨_, ⟨x, left, y, right, rfl⟩, found⟩
    simp only [Outcome.alternative?] at found
    split at found
    · rename_i v unified
      cases found
      exact ⟨x, left, y, right, unified, rfl⟩
    · cases found
  · rintro ⟨x, left, y, right, unified, marked⟩
    refine ⟨_, ⟨x, left, y, right, rfl⟩, ?_⟩
    simp only [Outcome.alternative?, unified, ← marked]

theorem sizeOf_le_of_mem_ofValue {v : Value} {x : Alternative Value} (h : x ∈ Alternative.ofValue v) :
    sizeOf x.value ≤ sizeOf v := by
  cases v with
  | disjunction alternatives => exact Nat.le_of_lt (sizeOf_lt_of_mem_parts (List.mem_map_of_mem h))
  | _ => exact Nat.le_of_eq (by rw [List.mem_singleton.mp h])

theorem sizeOf_lt_of_mem_ofValue {v : Value} (several : v.isDisjunction = true) {x : Alternative Value}
    (h : x ∈ Alternative.ofValue v) : sizeOf x.value < sizeOf v := by
  cases v with
  | disjunction alternatives => exact sizeOf_lt_of_mem_parts (List.mem_map_of_mem h)
  | _ => exact absurd several Bool.false_ne_true

theorem sizeOf_alternatives_lt {a b : Value} (either : a.isDisjunction = true ∨ b.isDisjunction = true)
    {x y : Alternative Value} (left : x ∈ Alternative.ofValue a) (right : y ∈ Alternative.ofValue b) :
    sizeOf x.value + sizeOf y.value < sizeOf a + sizeOf b := by
  have := sizeOf_le_of_mem_ofValue left
  have := sizeOf_le_of_mem_ofValue right
  rcases either with several | several
  · have := sizeOf_lt_of_mem_ofValue several left
    omega
  · have := sizeOf_lt_of_mem_ofValue several right
    omega

theorem sizeOf_fields_lt {xs ys : List (Field Value)} {f g : Field Value} (left : f ∈ xs) (right : g ∈ ys) :
    sizeOf f.value + sizeOf g.value < sizeOf (struct xs) + sizeOf (struct ys) := by
  have := sizeOf_lt_of_mem_parts (v := struct xs) (List.mem_map_of_mem left)
  have := sizeOf_lt_of_mem_parts (v := struct ys) (List.mem_map_of_mem right)
  omega

theorem sizeOf_items_lt {xs ys : List Value} {x y : Value} (left : x ∈ xs) (right : y ∈ ys) :
    sizeOf x + sizeOf y < sizeOf (list xs) + sizeOf (list ys) := by
  have := sizeOf_lt_of_mem_parts (v := list xs) left
  have := sizeOf_lt_of_mem_parts (v := list ys) right
  omega

/-- What two values unify to is related to them as in one of these cases. Only two structs, two lists and a disjunction
    have parts that are unified themselves. -/
theorem unify_induction {M : Value → Value → Value → Prop} (left : ∀ a b, M a b a) (right : ∀ a b, M a b b)
    (kinds : ∀ x y k, M (kind x) (kind y) (kind k))
    (lists : ∀ xs ys met, (∀ v ∈ met, ∃ x ∈ xs, ∃ y ∈ ys, M x y v) → M (list xs) (list ys) (list met))
    (structs : ∀ xs ys met, unifyFields xs ys = .ok met →
      (∀ f ∈ mergeFields xs met, f ∈ xs ∨ f ∈ ys ∨ ∃ x ∈ xs, ∃ y ∈ ys, M x.value y.value f.value) →
      M (struct xs) (struct ys) (struct (mergeFields xs met)))
    (disjunctions : ∀ a b alternatives, a.isDisjunction = true ∨ b.isDisjunction = true → alternatives ≠ [] →
      (∀ c ∈ alternatives, ∃ x ∈ Alternative.ofValue a, ∃ y ∈ Alternative.ofValue b, M x.value y.value c.value ∧
        c.marked = (counts (Alternative.ofValue a) x && counts (Alternative.ofValue b) y)) →
      M a b (disjoin alternatives))
    {a b v : Value} (h : a.unify b = .ok v) : M a b v := by
  induction a, b using pair_induction generalizing v with
  | step a b ih =>
    have rule := unify_rule a b
    generalize a.unify b = result at h rule
    cases rule with
    | topLeft | kindLeft => cases h; exact right _ _
    | topRight | kindRight | equal => cases h; exact left _ _
    | kinds x y k => cases h; exact kinds x y k
    | lists xs ys met lengths items =>
      cases h
      refine lists xs ys met fun v member => ?_
      rw [unifyItems_eq_ok] at items
      obtain ⟨⟨x, y⟩, paired, unified⟩ := exists_left_of_mem items member
      have inLeft := (List.of_mem_zip paired).1
      have inRight := (List.of_mem_zip paired).2
      exact ⟨x, inLeft, y, inRight, ih x y (sizeOf_items_lt inLeft inRight) unified⟩
    | structs xs ys met fields =>
      cases h
      refine structs xs ys met fields fun f merged => ?_
      obtain inLeft | inRight | ⟨x, inLeft, y, inRight, v, unified, rfl⟩ := cases_of_mem_mergeFields fields merged
      · exact .inl inLeft
      · exact .inr (.inl inRight)
      · exact .inr (.inr ⟨x, inLeft, y, inRight, ih _ _ (sizeOf_fields_lt inLeft inRight) unified⟩)
    | alternatives _ _ _ _ either =>
      obtain ⟨some, rfl⟩ := settle_eq_ok.mp h
      refine disjunctions a b _ either some fun c member => ?_
      obtain ⟨x, inLeft, y, inRight, unified, marked⟩ := mem_alternatives_pairings.mp member
      exact ⟨x, inLeft, y, inRight, ih _ _ (sizeOf_alternatives_lt either inLeft inRight) unified, marked⟩
    | _ => cases h

section Preservation

variable {p : Value → Prop}

theorem everywhere_of_mem_ofValue {v : Value} (h : v.Everywhere p) {x : Alternative Value}
    (member : x ∈ Alternative.ofValue v) : x.value.Everywhere p := by
  cases v with
  | disjunction alternatives => exact h.alternative member
  | _ =>
    rw [List.mem_singleton.mp member]
    exact h

theorem everywhere_of_mem_flatten {a i : Alternative Value} (h : a.value.Everywhere p) (member : i ∈ a.flatten) :
    i.value.Everywhere p := by
  obtain ⟨value, marked⟩ := a
  cases value with
  | disjunction inner =>
    obtain ⟨x, inside, rfl⟩ := List.mem_map.mp member
    exact h.alternative (a := x) inside
  | _ =>
    rw [List.mem_singleton.mp member]
    exact h

theorem everywhere_of_mem_flatMap {alternatives : List (Alternative Value)} {i : Alternative Value}
    (h : ∀ a ∈ alternatives, a.value.Everywhere p) (member : i ∈ alternatives.flatMap Alternative.flatten) :
    i.value.Everywhere p := by
  obtain ⟨a, inside, flat⟩ := List.mem_flatMap.mp member
  exact everywhere_of_mem_flatten (h a inside) flat

theorem everywhere_ofDistinct (several : ∀ xs, p (disjunction xs)) {alternatives : List (Alternative Value)}
    (h : ∀ a ∈ alternatives, a.value.Everywhere p) : (ofDistinct alternatives).Everywhere p := by
  unfold ofDistinct
  split
  · exact h _ List.mem_cons_self
  · refine .intro (several _) fun part member => ?_
    split at member
    · obtain ⟨_, unmarked, rfl⟩ := List.mem_map.mp member
      obtain ⟨a, inside, rfl⟩ := List.mem_map.mp unmarked
      exact h a inside
    · obtain ⟨a, inside, rfl⟩ := List.mem_map.mp member
      exact h a inside

/-- What holds of every disjunction holds everywhere in one that is made of values it holds everywhere in. -/
theorem everywhere_disjoin (several : ∀ xs, p (disjunction xs)) {alternatives : List (Alternative Value)}
    (h : ∀ a ∈ alternatives, a.value.Everywhere p) : (disjoin alternatives).Everywhere p := by
  refine everywhere_ofDistinct several fun u distinct => ?_
  obtain ⟨i, member, same⟩ := Alternative.value_of_mem_dedup distinct
  rw [same]
  exact everywhere_of_mem_flatMap h member

/-- What holds everywhere in two values holds everywhere in what they unify to, if it holds of kinds and
    lists, of structs with the fields of two structs it holds of, and of disjunctions. -/
theorem everywhere_unify (kinds : ∀ k, p (kind k)) (lists : ∀ items, p (list items))
    (structs : ∀ xs ys met, p (struct xs) → p (struct ys) → unifyFields xs ys = .ok met →
      p (struct (mergeFields xs met)))
    (disjunctions : ∀ a b alternatives, a.Everywhere p → b.Everywhere p →
      a.isDisjunction = true ∨ b.isDisjunction = true → alternatives ≠ [] →
      (∀ c ∈ alternatives, c.value.Everywhere p ∧ ∃ x ∈ Alternative.ofValue a, ∃ y ∈ Alternative.ofValue b,
        c.marked = (counts (Alternative.ofValue a) x && counts (Alternative.ofValue b) y)) →
      (disjoin alternatives).Everywhere p)
    {a b v : Value} (left : a.Everywhere p) (right : b.Everywhere p) (h : a.unify b = .ok v) :
    v.Everywhere p := by
  refine unify_induction (M := fun a b v => a.Everywhere p → b.Everywhere p → v.Everywhere p)
    (fun _ _ left _ => left) (fun _ _ _ right => right) (fun _ _ k _ _ => .intro (kinds k) (by simp [parts]))
    ?lists ?structs ?disjunctions h left right
  case lists =>
    intro xs ys met ih left right
    refine .intro (lists met) fun part member => ?_
    obtain ⟨x, inLeft, y, inRight, keeps⟩ := ih part member
    exact keeps (left.item inLeft) (right.item inRight)
  case structs =>
    intro xs ys met fields ih left right
    refine .intro (structs xs ys met left.here right.here fields) fun part member => ?_
    obtain ⟨f, merged, rfl⟩ := List.mem_map.mp member
    obtain inLeft | inRight | ⟨x, inLeft, y, inRight, keeps⟩ := ih f merged
    · exact left.field inLeft
    · exact right.field inRight
    · exact keeps (left.field inLeft) (right.field inRight)
  case disjunctions =>
    intro a b alternatives either some ih left right
    refine disjunctions a b alternatives left right either some fun c member => ?_
    obtain ⟨x, inLeft, y, inRight, keeps, marked⟩ := ih c member
    refine ⟨?_, x, inLeft, y, inRight, marked⟩
    exact keeps (everywhere_of_mem_ofValue left inLeft) (everywhere_of_mem_ofValue right inRight)

end Preservation

section Distribution

variable {p : Value → Prop} (several : ∀ alternatives : List (Alternative Value),
  p (disjunction alternatives) ↔ ∃ a ∈ alternatives, p a.value)

include several

theorem holds_ofValue (v : Value) : (∃ x ∈ Alternative.ofValue v, p x.value) ↔ p v := by
  cases v with
  | disjunction alternatives => rw [several, Alternative.ofValue]
  | _ => simp [Alternative.ofValue]

theorem holds_flatten (a : Alternative Value) : (∃ i ∈ a.flatten, p i.value) ↔ p a.value := by
  obtain ⟨value, marked⟩ := a
  cases value with
  | disjunction inner =>
    rw [several]
    simp [Alternative.flatten]
  | _ => simp [Alternative.flatten]

theorem holds_ofDistinct (alternatives : List (Alternative Value)) :
    p (ofDistinct alternatives) ↔ ∃ a ∈ alternatives, p a.value := by
  unfold ofDistinct
  split
  · simp
  · rw [several]
    split <;> simp

/-- What holds of a disjunction just if it holds of an alternative holds of any that is made so, unless it tells
    equal alternatives apart. -/
theorem holds_disjoin {alternatives : List (Alternative Value)}
    (same : ∀ i ∈ alternatives.flatMap Alternative.flatten, ∀ j ∈ alternatives.flatMap Alternative.flatten,
      i.value.same j.value = true → p j.value → p i.value) :
    p (disjoin alternatives) ↔ ∃ a ∈ alternatives, p a.value := by
  rw [disjoin, holds_ofDistinct several]
  constructor
  · rintro ⟨u, distinct, holds⟩
    obtain ⟨i, member, equal⟩ := Alternative.value_of_mem_dedup distinct
    obtain ⟨a, inside, member⟩ := List.mem_flatMap.mp member
    exact ⟨a, inside, (holds_flatten several a).mp ⟨i, member, equal ▸ holds⟩⟩
  · rintro ⟨a, inside, holds⟩
    obtain ⟨i, member, holds⟩ := (holds_flatten several a).mpr holds
    have inFlat := List.mem_flatMap.mpr ⟨a, inside, member⟩
    obtain ⟨u, distinct, equal, _⟩ := Alternative.exists_mem_dedup inFlat
    refine ⟨u, distinct, ?_⟩
    rcases equal with equal | equal
    · rwa [equal]
    · obtain ⟨j, found, value⟩ := Alternative.value_of_mem_dedup distinct
      rw [value] at equal ⊢
      exact same j found i inFlat equal holds

end Distribution

/-- What holds of a disjunction just if it holds of an alternative holds of what two unify to just if it holds of
    what a pair does. -/
theorem holds_settle {p : Value → Prop} {xs ys : List (Alternative Value)}
    (disjoins : ∀ alternatives : List (Alternative Value),
      (∀ u ∈ alternatives, ∃ x ∈ xs, ∃ y ∈ ys, x.value.unify y.value = .ok u.value) →
      (p (disjoin alternatives) ↔ ∃ a ∈ alternatives, p a.value)) :
    (∃ v, settle (pairings xs ys) = .ok v ∧ p v) ↔
      ∃ x ∈ xs, ∃ y ∈ ys, ∃ v, x.value.unify y.value = .ok v ∧ p v := by
  have each : ∀ u ∈ (pairings xs ys).filterMap Outcome.alternative?,
      ∃ x ∈ xs, ∃ y ∈ ys, x.value.unify y.value = .ok u.value := by
    intro u member
    obtain ⟨x, left, y, right, unified, _⟩ := mem_alternatives_pairings.mp member
    exact ⟨x, left, y, right, unified⟩
  constructor
  · rintro ⟨v, settled, holds⟩
    obtain ⟨_, rfl⟩ := settle_eq_ok.mp settled
    obtain ⟨u, member, holds⟩ := (disjoins _ each).mp holds
    obtain ⟨x, left, y, right, unified⟩ := each u member
    exact ⟨x, left, y, right, _, unified, holds⟩
  · rintro ⟨x, left, y, right, v, unified, holds⟩
    have member := mem_alternatives_pairings.mpr
      ⟨x, left, y, right, unified, (rfl : Alternative.marked ⟨v, _⟩ = _)⟩
    exact ⟨_, settle_eq_ok.mpr ⟨List.ne_nil_of_mem member, rfl⟩, (disjoins _ each).mpr ⟨_, member, holds⟩⟩

end Value

end StackLattice
