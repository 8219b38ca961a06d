import StackLattice.Decimal.Binary64

/-!
Equality and opposites of floats. What is no number equals nothing, and the two zeros are equal.
-/

namespace StackLattice.Decimal.Binary64

theorem same_iff (x y : Binary64) :
    x.same y = true ↔ x.isNaN = false ∧ y.isNaN = false ∧ (x = y ∨ x.isZero = true ∧ y.isZero = true) := by
  simp only [same, Bool.and_eq_true, Bool.not_eq_true', Bool.or_eq_true, beq_iff_eq, and_assoc]

theorem same_comm (x y : Binary64) : x.same y = y.same x := by
  rw [Bool.eq_iff_iff, same_iff, same_iff]
  grind

theorem same_trans {x y z : Binary64} (first : x.same y = true) (second : y.same z = true) :
    x.same z = true := by
  rw [same_iff] at *
  grind

theorem same_self {x : Binary64} (number : x.isNaN = false) : x.same x = true := by
  rw [same_iff]
  exact ⟨number, number, .inl rfl⟩

theorem ofMagnitude_self (x : Binary64) : ofMagnitude x.negative x.magnitude = x := by
  obtain ⟨bits⟩ := x
  have bound := bits.toNat_lt
  have whole : (if negative ⟨bits⟩ then 0x8000000000000000 + magnitude ⟨bits⟩ else magnitude ⟨bits⟩) = bits.toNat := by
    simp only [negative, magnitude, decide_eq_true_eq]
    split <;> omega
  rw [ofMagnitude, whole, UInt64.ofNat_toNat]

theorem toNat_bits_neg (x : Binary64) :
    x.neg.bits.toNat = if x.negative then x.magnitude else 0x8000000000000000 + x.magnitude := by
  have bound : x.magnitude < 0x8000000000000000 := Nat.mod_lt _ (by decide)
  rw [neg, ofMagnitude, UInt64.toNat_ofNat']
  cases x.negative <;> simp only [Bool.not_true, Bool.not_false, if_true, if_false, Bool.false_eq_true] <;> omega

@[simp] theorem magnitude_neg (x : Binary64) : x.neg.magnitude = x.magnitude := by
  have bound : x.magnitude < 0x8000000000000000 := Nat.mod_lt _ (by decide)
  rw [magnitude, toNat_bits_neg]
  split <;> omega

@[simp] theorem negative_neg (x : Binary64) : x.neg.negative = !x.negative := by
  have bound : x.magnitude < 0x8000000000000000 := Nat.mod_lt _ (by decide)
  rw [negative, toNat_bits_neg]
  cases x.negative <;> simp
  omega

@[simp] theorem neg_neg (x : Binary64) : x.neg.neg = x := by
  rw [neg, negative_neg, magnitude_neg, Bool.not_not, ofMagnitude_self]

@[simp] theorem isNaN_neg (x : Binary64) : x.neg.isNaN = x.isNaN := by
  rw [isNaN, isNaN, magnitude_neg]

@[simp] theorem isZero_neg (x : Binary64) : x.neg.isZero = x.isZero := by
  rw [isZero, isZero, magnitude_neg]

theorem same_neg (x y : Binary64) : x.neg.same y = x.same y.neg := by
  have opposite : x.neg = y ↔ x = y.neg := by
    constructor
    · rintro rfl
      rw [neg_neg]
    · rintro rfl
      rw [neg_neg]
  rw [Bool.eq_iff_iff, same_iff, same_iff, opposite]
  simp only [isNaN_neg, isZero_neg]

end StackLattice.Decimal.Binary64
