import Mathlib.Data.List.Forall2
import StackLattice.Proofs.Decimal.Equality
import StackLattice.Document.Basic

/-!
Equality of documents up to the order of entries.
-/

namespace StackLattice.Document

mutual

/-- The order of entries does not count, and floats are compared as numbers. -/
def same : Document → Document → Bool
  | null, null => true
  | bool a, bool b => a == b
  | int a, int b => a == b
  | float a, float b => a.same b
  | string a, string b => a == b
  | list xs, list ys => sameItems xs ys
  | object xs, object ys => xs.length == ys.length && sameEntries xs ys
  | _, _ => false

def sameItems : List Document → List Document → Bool
  | [], [] => true
  | x :: xs, y :: ys => x.same y && sameItems xs ys
  | _, _ => false

def sameEntries : List (String × Document) → List (String × Document) → Bool
  | [], _ => true
  | (key, x) :: xs, ys =>
    (match ys.lookup key with
      | some y => x.same y
      | none => false) && sameEntries xs ys

end

theorem sameItems_iff (xs ys : List Document) :
    sameItems xs ys = true ↔ List.Forall₂ (fun x y => x.same y = true) xs ys := by
  induction xs generalizing ys with
  | nil => cases ys <;> simp [sameItems]
  | cons x xs ih => cases ys <;> simp [sameItems, ih]

theorem sameEntries_iff (xs ys : List (String × Document)) :
    sameEntries xs ys = true ↔ ∀ x ∈ xs, ∃ y, ys.lookup x.1 = some y ∧ x.2.same y = true := by
  induction xs with
  | nil => simp [sameEntries]
  | cons x xs ih =>
    obtain ⟨key, x⟩ := x
    rw [sameEntries, Bool.and_eq_true, ih, List.forall_mem_cons]
    refine and_congr_left' ?_
    cases ys.lookup key <;> simp

theorem same_object_iff (xs ys : List (String × Document)) :
    (object xs).same (object ys) = true ↔
      xs.length = ys.length ∧ ∀ x ∈ xs, ∃ y, ys.lookup x.1 = some y ∧ x.2.same y = true := by
  rw [same, Bool.and_eq_true, beq_iff_eq, sameEntries_iff]

end StackLattice.Document
