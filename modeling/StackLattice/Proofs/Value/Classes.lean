import Mathlib.Algebra.BigOperators.Ring.List
import Mathlib.Algebra.GroupWithZero.Defs
import StackLattice.Proofs.Value.Rejoined

/-!
Tame values up to matching. With conflicts as zero, unification makes them a commutative monoid, so that the order
and the grouping of what is unified need no more mention.
-/

namespace StackLattice.Value

open Syntax (LabelKind)

variable {kinds : String → LabelKind}

def matching (kinds : String → LabelKind) : Setoid {v : Value // v.Tame kinds} where
  r a b := a.val.Matches b.val
  iseqv := ⟨fun a => .refl a.property.proper, .symm, .trans⟩

/-- Tame values up to matching, or a conflict. -/
def Class (kinds : String → LabelKind) : Type := Option (Quotient (matching kinds))

namespace Class

instance : Zero (Class kinds) := ⟨none⟩

def of {v : Value} (tame : v.Tame kinds) : Class kinds := some (Quotient.mk (matching kinds) ⟨v, tame⟩)

instance : One (Class kinds) := ⟨of tame_top⟩

section Unification

variable {a b a' b' v : Value} (left : a.Tame kinds) (right : b.Tame kinds)

theorem of_ne_zero : of left ≠ 0 := Option.some_ne_none _

theorem of_eq_of_iff {left : a.Tame kinds} {right : b.Tame kinds} : of left = of right ↔ a.Matches b :=
  Option.some_inj.trans Quotient.eq

/-- The class of what two values unify to. -/
noncomputable def unified : Class kinds :=
  match h : a.unify b with
  | .ok _ => of (tame_unify left right h)
  | .error _ => 0

theorem unified_of_ok (h : a.unify b = .ok v) : unified left right = of (tame_unify left right h) := by
  unfold unified
  split
  · rename_i v' h'
    cases h.symm.trans h'
    rfl
  · rename_i h'
    cases h.symm.trans h'

theorem unified_of_error {c : Conflict} (h : a.unify b = .error c) : unified left right = 0 := by
  unfold unified
  split
  · rename_i h'
    cases h.symm.trans h'
  · rfl

theorem unified_congr {left : a.Tame kinds} {right : b.Tame kinds} {left' : a'.Tame kinds} {right' : b'.Tame kinds} (same : a.Matches a') (same' : b.Matches b') :
    unified left right = unified left' right' := by
  have twins : Twins kinds a a' := ⟨left, left', same⟩
  have twins' : Twins kinds b b' := ⟨right, right', same'⟩
  cases h : a.unify b with
  | ok v =>
    obtain ⟨v', h', result⟩ := exists_unify_congr twins twins' h
    rw [unified_of_ok _ _ h, unified_of_ok _ _ h', of_eq_of_iff]
    exact result.same
  | error c =>
    cases h' : a'.unify b' with
    | ok v' =>
      obtain ⟨v, impossible, _⟩ := exists_unify_congr twins.symm twins'.symm h'
      cases h.symm.trans impossible
    | error c' => rw [unified_of_error _ _ h, unified_of_error _ _ h']

end Unification

noncomputable instance : Mul (Class kinds) where
  mul
    | some x, some y => Quotient.liftOn₂ x y (fun a b => unified a.property b.property)
        fun _ _ _ _ same same' => unified_congr same same'
    | _, _ => none

section Laws

variable {a b v : Value}

theorem of_mul_of (left : a.Tame kinds) (right : b.Tame kinds) : of left * of right = unified left right := rfl

theorem cases_zero (c : Class kinds) : c = 0 ∨ ∃ (a : Value) (tame : a.Tame kinds), c = of tame := by
  cases c with
  | none => exact .inl rfl
  | some x =>
    induction x using Quotient.inductionOn with
    | h a => exact .inr ⟨a.val, a.property, rfl⟩

protected theorem zero_mul (c : Class kinds) : 0 * c = 0 := rfl

protected theorem mul_zero (c : Class kinds) : c * 0 = 0 := by cases c <;> rfl

protected theorem one_mul (c : Class kinds) : 1 * c = c := by
  obtain rfl | ⟨a, tame, rfl⟩ := cases_zero c
  · exact Class.mul_zero 1
  · exact unified_of_ok tame_top tame (top_unify a)

protected theorem mul_comm (c d : Class kinds) : c * d = d * c := by
  obtain rfl | ⟨a, left, rfl⟩ := cases_zero c
  · rw [Class.mul_zero, Class.zero_mul]
  obtain rfl | ⟨b, right, rfl⟩ := cases_zero d
  · rw [Class.mul_zero, Class.zero_mul]
  rw [of_mul_of, of_mul_of]
  cases h : a.unify b with
  | ok v =>
    obtain ⟨v', h'⟩ := (Twins.refl left).exists_swapped (.refl right) h
    rw [unified_of_ok _ _ h, unified_of_ok _ _ h', of_eq_of_iff]
    exact matches_comm left right h h'
  | error c =>
    cases h' : b.unify a with
    | ok v' =>
      obtain ⟨v, impossible⟩ := (Twins.refl right).exists_swapped (.refl left) h'
      cases h.symm.trans impossible
    | error c' => rw [unified_of_error _ _ h, unified_of_error _ _ h']

theorem exists_unify {left : a.Tame kinds} {right : b.Tame kinds} (live : of left * of right ≠ 0) :
    ∃ v, a.unify b = .ok v := by
  cases h : a.unify b with
  | ok v => exact ⟨v, rfl⟩
  | error c => exact absurd (unified_of_error left right h) live

theorem of_unify (left : a.Tame kinds) (right : b.Tame kinds) (h : a.unify b = .ok v) :
    of (tame_unify left right h) = of left * of right := (unified_of_ok left right h).symm

theorem of_mul_of_ne_zero {left : a.Tame kinds} {right : b.Tame kinds} (h : a.unify b = .ok v) :
    of left * of right ≠ 0 := by
  rw [← of_unify left right h]
  exact of_ne_zero _

protected theorem mul_assoc (c d e : Class kinds) : c * d * e = c * (d * e) := by
  obtain rfl | ⟨a, tameA, rfl⟩ := cases_zero c
  · rfl
  obtain rfl | ⟨b, tameB, rfl⟩ := cases_zero d
  · rw [Class.mul_zero, Class.zero_mul, Class.mul_zero]
  obtain rfl | ⟨c, tameC, rfl⟩ := cases_zero e
  · rw [Class.mul_zero, Class.mul_zero, Class.mul_zero]
  by_cases live : of tameA * of tameB * of tameC = 0
  · by_contra apart
    rw [live] at apart
    obtain ⟨bc, inner⟩ := exists_unify fun dead => apart (by rw [dead, Class.mul_zero])
    rw [← of_unify tameB tameC inner] at apart
    obtain ⟨w, outer⟩ := exists_unify fun dead => apart dead.symm
    obtain ⟨ab, v, first, last⟩ := exists_ungrouped tameA.proper tameB.proper tameC.proper inner outer
    rw [← of_unify tameA tameB first] at live
    exact of_mul_of_ne_zero last live
  · obtain ⟨ab, first⟩ := exists_unify fun dead => live (by rw [dead, Class.zero_mul])
    rw [← of_unify tameA tameB first] at live ⊢
    obtain ⟨v, last⟩ := exists_unify live
    obtain ⟨bc, w, inner, outer⟩ := exists_regrouped tameA.proper tameB.proper tameC.proper first last
    rw [← of_unify tameB tameC inner, ← of_unify _ tameC last, ← of_unify tameA _ outer, of_eq_of_iff]
    exact regroups tameA tameB tameC ab v bc w first last inner outer

noncomputable instance : CommMonoidWithZero (Class kinds) where
  mul_assoc := Class.mul_assoc
  one_mul := Class.one_mul
  mul_one c := (Class.mul_comm c 1).trans (Class.one_mul c)
  mul_comm := Class.mul_comm
  zero_mul := Class.zero_mul
  mul_zero := Class.mul_zero

theorem ne_zero_of_mem {cs : List (Class kinds)} (live : cs.prod ≠ 0) {c : Class kinds} (member : c ∈ cs) :
    c ≠ 0 := by
  rintro rfl
  exact live (List.prod_eq_zero member)

end Laws

end Class

end StackLattice.Value
