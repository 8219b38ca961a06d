import StackLattice.Decimal.Binary64

/-!
The fewest decimal digits that read back as a given finite binary value, and of those the nearest
to it. Everything is exact arithmetic on natural numbers.
-/

namespace StackLattice.Decimal

/-- Which of two equally near digit strings is taken. -/
inductive Tie
  | up
  | even
deriving DecidableEq, Repr

/-- The positive number `digits * 10 ^ power`. -/
structure Digits where
  digits : Nat
  power : Int
deriving DecidableEq, Repr

/-- The reals that round to a positive finite value, scaled by a common factor: the value is
    `value / den` and the ends are `low / den` and `high / den`, which belong to the interval when
    `closed` is set. -/
structure Interval where
  low : Nat
  value : Nat
  high : Nat
  den : Nat
  closed : Bool

/-- Half the gap to each neighbour; below a power of two the lower gap is half as wide. -/
def Interval.of (x : Binary64) : Interval :=
  let m := x.mantissa
  let unit := 1 <<< x.shift
  let lower := if m = 0x10000000000000 ∧ x.shift ≠ 0 then 1 else 2
  ⟨(4 * m - lower) * unit, 4 * m * unit, (4 * m + 2) * unit, 4 <<< 1074, m % 2 == 0⟩

/-- Whether `n * scale / grid`, a point of a decimal grid, lies in the interval. -/
def Interval.holds (i : Interval) (n scale grid : Nat) : Bool :=
  let point := n * scale * i.den
  if i.closed then i.low * grid ≤ point && point ≤ i.high * grid
  else i.low * grid < point && point < i.high * grid

/-- The better neighbour of the value on the grid of multiples of `scale / grid`, if one of its two
    neighbours lies in the interval. -/
def Interval.nearest? (i : Interval) (tie : Tie) (scale grid : Nat) : Option Nat :=
  let below := i.value * grid / (i.den * scale)
  let low := below ≠ 0 ∧ i.holds below scale grid
  let high := i.holds (below + 1) scale grid = true
  if low ∧ high then
    let twice := 2 * (i.value * grid)
    let middle := (2 * below + 1) * scale * i.den
    if twice < middle then some below
    else if middle < twice then some (below + 1)
    else match tie with
      | .up => some (below + 1)
      | .even => some (if below % 2 = 0 then below else below + 1)
  else if low then some below
  else if high then some (below + 1)
  else none

/-- Number of decimal digits of the whole part, or one less than the number of zeros after the point
    with its sign turned: the power of ten of the leading digit. -/
def Interval.leading (i : Interval) : Int :=
  if i.den ≤ i.value then (Nat.toDigits 10 (i.value / i.den)).length - 1
  else -((Nat.toDigits 10 ((i.den - 1) / i.value)).length : Int)

/-- Moves the zeros at the end of the digits into the power. -/
def Digits.trim : Nat → Digits → Digits
  | 0, d => d
  | steps + 1, d =>
    if d.digits % 10 = 0 ∧ d.digits ≠ 0 then trim steps ⟨d.digits / 10, d.power + 1⟩ else d

/-- The first grid, from one digit on, that has a point in the interval. -/
def Interval.search (i : Interval) (tie : Tie) : Nat → Int → Digits
  | 0, power => ⟨i.value / i.den, power⟩
  | steps + 1, power =>
    let found :=
      if 0 ≤ power then i.nearest? tie (Nat.pow 10 power.toNat) 1 else i.nearest? tie 1 (Nat.pow 10 (-power).toNat)
    match found with
    | some n => Digits.trim 20 ⟨n, power⟩
    | none => search i tie steps (power - 1)

/-- The digits of a finite value other than zero, without its sign. Seventeen always suffice. -/
def Binary64.shortest (tie : Tie) (x : Binary64) : Digits :=
  let i := Interval.of x
  i.search tie 18 (i.leading + 1)

end StackLattice.Decimal
