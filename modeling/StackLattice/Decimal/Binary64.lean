/-!
Binary floating-point numbers of 64 bits: sign, eleven bits of exponent and 52 of fraction. A
rational is rounded to the nearest of them, a tie going to the even one.
-/

namespace StackLattice.Decimal

structure Binary64 where
  bits : UInt64
deriving DecidableEq, Repr

namespace Binary64

def negative (x : Binary64) : Bool := 0x8000000000000000 ≤ x.bits.toNat

/-- Exponent and fraction bits, read as one number: zero, then the finite values in order, then
    infinity, then the values that are no number. -/
def magnitude (x : Binary64) : Nat := x.bits.toNat % 0x8000000000000000

def infinite : Nat := 0x7FF0000000000000

def isZero (x : Binary64) : Bool := x.magnitude == 0

def isFinite (x : Binary64) : Bool := x.magnitude < infinite

def isNaN (x : Binary64) : Bool := infinite < x.magnitude

def ofMagnitude (negative : Bool) (n : Nat) : Binary64 :=
  ⟨UInt64.ofNat (if negative then 0x8000000000000000 + n else n)⟩

def nan : Binary64 := ofMagnitude false (infinite + 0x8000000000000)

def neg (x : Binary64) : Binary64 := ofMagnitude (!x.negative) x.magnitude

/-- Numeric equality: the two zeros are equal, and what is no number equals nothing. -/
def same (x y : Binary64) : Bool :=
  !x.isNaN && !y.isNaN && (x == y || (x.isZero && y.isZero))

/-- Mantissa and shift: a finite value is `mantissa * 2 ^ (shift - 1074)`. -/
def mantissa (x : Binary64) : Nat :=
  if x.magnitude < 0x10000000000000 then x.magnitude else 0x10000000000000 + x.magnitude % 0x10000000000000

def shift (x : Binary64) : Nat := x.magnitude / 0x10000000000000 - 1

/-- Quotient rounded to the nearest whole number, a tie going to the even one. -/
def roundDiv (num den : Nat) : Nat :=
  let q := num / den
  let r := num % den
  if den < 2 * r || (2 * r == den && q % 2 == 1) then q + 1 else q

/-- The largest `s` with `2 ^ (s + 52) ≤ 2 ^ 1074 * num / den`, or zero: the shift at which the
    mantissa of the quotient has 53 bits. -/
def shiftOf (num den : Nat) : Nat :=
  let scaled := num <<< 1074 / den
  scaled.log2 - 52

/-- The value nearest to `num / den`; infinity when that is beyond the largest finite one. -/
def ofRatio (negative : Bool) (num den : Nat) : Binary64 :=
  let s := shiftOf num den
  let m := roundDiv (num <<< 1074) (den <<< s)
  ofMagnitude negative (min (s <<< 52 + m) infinite)

end Binary64

end StackLattice.Decimal
