import Mathlib.Data.List.Forall2
import Mathlib.Data.List.Perm.Subperm
import StackLattice.Proofs.Decimal.Equality
import StackLattice.Proofs.Value.Structure

/-!
Equality of values. On scalars it is symmetric and transitive; two equal structs have the same labels,
and equal fields under each of them.
-/

namespace StackLattice

open Decimal (Binary64)

namespace Value

/-- Lists that are related element by element are related to the same lists, if their elements are. -/
theorem forall₂_congr_left {α β γ : Type} {R : α → β → Prop} {P : α → γ → Prop} {Q : β → γ → Prop} {xs : List α}
    {ys : List β} (h : List.Forall₂ R xs ys) (agree : ∀ x ∈ xs, ∀ y ∈ ys, R x y → ∀ z, P x z ↔ Q y z)
    (zs : List γ) : List.Forall₂ P xs zs ↔ List.Forall₂ Q ys zs := by
  induction h generalizing zs with
  | nil => rw [List.forall₂_nil_left_iff, List.forall₂_nil_left_iff]
  | cons first _ ih =>
    simp only [List.forall₂_cons_left_iff]
    simp only [agree _ List.mem_cons_self _ List.mem_cons_self first]
    simp only [ih fun x left y right => agree x (List.mem_cons_of_mem _ left) y (List.mem_cons_of_mem _ right)]

section Options

variable {α β γ : Type} {R : α → β → Prop} {S : β → γ → Prop} {x : Option α} {y : Option β} {z : Option γ}

theorem rel_imp {T : α → β → Prop} (h : Option.Rel R x y) (step : ∀ a b, x = some a → y = some b → R a b → T a b) :
    Option.Rel T x y := by
  cases h with
  | none => exact .none
  | some related => exact .some (step _ _ rfl rfl related)

theorem rel_symm {T : β → α → Prop} (h : Option.Rel R x y) (step : ∀ a b, R a b → T b a) : Option.Rel T y x := by
  cases h with
  | none => exact .none
  | some related => exact .some (step _ _ related)

theorem rel_trans {T : α → γ → Prop} (first : Option.Rel R x y) (second : Option.Rel S y z)
    (step : ∀ a b c, x = some a → y = some b → z = some c → R a b → S b c → T a c) : Option.Rel T x z := by
  cases first with
  | none =>
    cases second
    exact .none
  | some related =>
    cases second with
    | some related' => exact .some (step _ _ _ rfl rfl rfl related related')

end Options

def isScalar : Value → Bool
  | null | bool _ | int _ | float _ | string _ => true
  | _ => false

theorem sameItems_iff (xs ys : List Value) :
    sameItems xs ys = true ↔ List.Forall₂ (fun x y => x.same y = true) xs ys := by
  induction xs generalizing ys with
  | nil => cases ys <;> simp [sameItems]
  | cons x xs ih => cases ys <;> simp [sameItems, ih]

theorem sameAlternatives_iff (xs ys : List (Alternative Value)) :
    sameAlternatives xs ys = true ↔
      List.Forall₂ (fun x y => x.value.same y.value = true ∧ x.marked = y.marked) xs ys := by
  induction xs generalizing ys with
  | nil => cases ys <;> simp [sameAlternatives]
  | cons x xs ih =>
    obtain ⟨value, marked⟩ := x
    cases ys <;> simp [sameAlternatives, ih]

/-- Whether two fields agree in all but their positions. -/
def SameField (x y : Field Value) : Prop :=
  x.value.same y.value = true ∧ x.kind = y.kind ∧ x.optional = y.optional

theorem sameFields_iff (xs ys : List (Field Value)) :
    sameFields xs ys = true ↔ ∀ x ∈ xs, ∃ y, Field.find? ys x.label = some y ∧ SameField x y := by
  induction xs with
  | nil => simp [sameFields]
  | cons x xs ih =>
    obtain ⟨label, visibility, optional, position, value⟩ := x
    rw [sameFields, Bool.and_eq_true, ih, List.forall_mem_cons]
    refine and_congr ?_ Iff.rfl
    cases found : Field.find? ys label with
    | none => simp
    | some y => simp [SameField, and_assoc]

theorem same_struct_iff (xs ys : List (Field Value)) :
    (struct xs).same (struct ys) = true ↔
      xs.length = ys.length ∧ ∀ x ∈ xs, ∃ y, Field.find? ys x.label = some y ∧ SameField x y := by
  rw [same, Bool.and_eq_true, beq_iff_eq, sameFields_iff]

theorem same_list_iff (xs ys : List Value) :
    (list xs).same (list ys) = true ↔ List.Forall₂ (fun x y => x.same y = true) xs ys := by
  rw [same, sameItems_iff]

theorem same_disjunction_iff (xs ys : List (Alternative Value)) :
    (disjunction xs).same (disjunction ys) = true ↔
      List.Forall₂ (fun x y => x.value.same y.value = true ∧ x.marked = y.marked) xs ys := by
  rw [same, sameAlternatives_iff]

theorem eq_struct_of_same {xs : List (Field Value)} {b : Value} (h : (struct xs).same b = true) :
    ∃ ys, b = struct ys := by
  cases b <;> first
    | exact ⟨_, rfl⟩
    | simp [same] at h

theorem eq_list_of_same {xs : List Value} {b : Value} (h : (list xs).same b = true) :
    ∃ ys, b = list ys := by
  cases b <;> first
    | exact ⟨_, rfl⟩
    | simp [same] at h

theorem eq_disjunction_of_same {xs : List (Alternative Value)} {b : Value}
    (h : (disjunction xs).same b = true) : ∃ ys, b = disjunction ys := by
  cases b <;> first
    | exact ⟨_, rfl⟩
    | simp [same] at h

theorem same_of_shapes {a b : Value} (shapes : a.typeName ≠ b.typeName) : a.same b = false := by
  cases a <;> cases b <;> first
    | exact absurd rfl shapes
    | simp [same]
  rename_i x y
  rintro rfl
  exact shapes rfl

theorem same_comm_scalar {a : Value} (scalar : a.isScalar = true) (b : Value) : a.same b = b.same a := by
  cases a <;> cases b <;> first
    | exact absurd scalar Bool.false_ne_true
    | (simp only [same, Bool.beq_comm]; done)
    | simp only [same, Binary64.same_comm]

theorem same_congr_scalar {a b : Value} (scalar : a.isScalar = true) (h : a.same b = true) (c : Value) :
    a.same c = b.same c := by
  cases a <;> cases b <;> first
    | exact absurd scalar Bool.false_ne_true
    | (simp [same] at h; done)
    | skip
  case null.null => rfl
  case float.float x y =>
    cases c <;> simp only [same] at h ⊢
    rw [Bool.eq_iff_iff]
    have reversed := h
    rw [Binary64.same_comm] at reversed
    exact ⟨Binary64.same_trans reversed, Binary64.same_trans h⟩
  all_goals
    simp only [same, beq_iff_eq] at h
    rw [h]

/-- Each field on the right of two equal structs has an equal one on the left, as the labels on both sides
    are distinct and as many. -/
theorem exists_left_of_same {xs ys : List (Field Value)} (left : Field.Distinct xs)
    (right : Field.Distinct ys) (h : (struct xs).same (struct ys) = true) {y : Field Value} (member : y ∈ ys) :
    ∃ x ∈ xs, x.label = y.label ∧ SameField x y := by
  obtain ⟨length, fields⟩ := (same_struct_iff xs ys).mp h
  have subset : xs.map (·.label) ⊆ ys.map (·.label) := by
    intro l inLabels
    obtain ⟨x, inLeft, rfl⟩ := List.mem_map.mp inLabels
    obtain ⟨y, found, _⟩ := fields x inLeft
    exact List.mem_map.mpr ⟨y, Field.mem_of_find? found, Field.label_of_find? found⟩
  have perm : (xs.map (·.label)).Perm (ys.map (·.label)) :=
    (List.subperm_of_subset left subset).perm_of_length_le (by simp [length])
  obtain ⟨x, inLeft, label⟩ := List.mem_map.mp (perm.mem_iff.mpr (List.mem_map_of_mem member))
  obtain ⟨z, found, agree⟩ := fields x inLeft
  rw [label, right.find?_of_mem member] at found
  cases found
  exact ⟨x, inLeft, label, agree⟩

/-- Equal structs have the same labels, and equal fields under each. -/
theorem find?_of_same {xs ys : List (Field Value)} (left : Field.Distinct xs) (right : Field.Distinct ys)
    (h : (struct xs).same (struct ys) = true) (label : String) :
    Option.Rel (fun x y => x ∈ xs ∧ y ∈ ys ∧ SameField x y) (Field.find? xs label) (Field.find? ys label) := by
  cases found : Field.find? xs label with
  | some x =>
    obtain ⟨y, found', same⟩ := ((same_struct_iff xs ys).mp h).2 x (Field.mem_of_find? found)
    rw [Field.label_of_find? found] at found'
    rw [found']
    exact .some ⟨Field.mem_of_find? found, Field.mem_of_find? found', same⟩
  | none =>
    cases found' : Field.find? ys label with
    | none => exact .none
    | some y =>
      obtain ⟨x, inLeft, same, _⟩ := exists_left_of_same left right h (Field.mem_of_find? found')
      rw [Field.label_of_find? found'] at same
      exact absurd same (Field.find?_eq_none.mp found x inLeft)

end Value

end StackLattice
