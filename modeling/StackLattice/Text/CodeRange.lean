/-!
Sets of code points as sorted arrays of ranges with a stride, with a look-up by bisection.
-/

namespace StackLattice.Text

/-- The code points `first`, `first + step`, … up to `last`. -/
structure CodeRange where
  first : Nat
  last : Nat
  step : Nat
deriving DecidableEq, Repr

def CodeRange.covers (r : CodeRange) (n : Nat) : Bool :=
  r.first ≤ n && n ≤ r.last && (n - r.first) % r.step == 0

/-- Index of the last range between `low` and `high` that starts at or before `n`, when the range
    at `low` does. -/
def CodeRange.bisect (table : Array CodeRange) (n low high : Nat) : Nat :=
  if low + 1 < high then
    let middle := (low + high) / 2
    match table[middle]? with
    | some r => if r.first ≤ n then bisect table n middle high else bisect table n low middle
    | none => low
  else low
termination_by high - low

/-- Membership in a table whose ranges are disjoint and sorted by their first code point. -/
def CodeRange.memTable (table : Array CodeRange) (n : Nat) : Bool :=
  match table[bisect table n 0 table.size]? with
  | some r => r.covers n
  | none => false

end StackLattice.Text
