import StackLattice.Text.Property
import StackLattice.Decimal.Binary64

/-!
Reading numbers: digit strings as natural numbers, decimal integers within bounds, and decimal
fractions as the nearest binary value.
-/

namespace StackLattice.Decimal

open Text (isAsciiDigit)

/-- Value of a digit in bases up to sixteen, either case of letter. -/
def digitValue (c : Char) : Option Nat :=
  if isAsciiDigit c then some (c.toNat - '0'.toNat)
  else if 'a' ≤ c ∧ c ≤ 'f' then some (c.toNat - 'a'.toNat + 10)
  else if 'A' ≤ c ∧ c ≤ 'F' then some (c.toNat - 'A'.toNat + 10)
  else none

def natural (base : Nat) (cs : List Char) : Option Nat :=
  if cs.isEmpty then none
  else cs.foldlM (fun n c => (digitValue c).bind fun d => if d < base then some (base * n + d) else none) 0

/-- A natural number below `bound`, with an optional plus sign. -/
def naturalBelow (base bound : Nat) (cs : List Char) : Option Nat :=
  let digits := match cs with
    | '+' :: rest => rest
    | _ => cs
  (natural base digits).filter (· < bound)

/-- An integer of at least `-bound` and below `bound`, with an optional sign. -/
def integerWithin (base bound : Nat) (cs : List Char) : Option Int :=
  match cs with
  | '-' :: rest => ((natural base rest).filter (· ≤ bound)).map fun n => -(n : Int)
  | _ => (naturalBelow base bound cs).map fun n => (n : Int)

/-- The binary value nearest to `n * 10 ^ k`. Powers that are out of reach are not computed. -/
def Binary64.ofDecimal (negative : Bool) (n : Nat) (k : Int) : Binary64 :=
  let places : Int := (Nat.toDigits 10 n).length + k
  if n = 0 ∨ places < -330 then .ofMagnitude negative 0
  else if 330 < places then .ofMagnitude negative Binary64.infinite
  else if 0 ≤ k then .ofRatio negative (n * Nat.pow 10 k.toNat) 1
  else .ofRatio negative n (Nat.pow 10 (-k).toNat)

/-- Splits off an optional sign; `true` stands for minus. -/
def splitSign : List Char → Bool × List Char
  | '-' :: rest => (true, rest)
  | '+' :: rest => (false, rest)
  | cs => (false, cs)

/-- The exponent part of a decimal fraction: nothing, or a mark, an optional sign and digits. -/
def exponentPart : List Char → Option Int
  | [] => some 0
  | mark :: rest =>
    if mark = 'e' ∨ mark = 'E' then
      let (negative, digits) := splitSign rest
      (natural 10 digits).map fun n => if negative then -(n : Int) else n
    else none

/-- Digits with an optional point and an optional exponent; at least one digit stands before the
    exponent. -/
def fraction (negative : Bool) (cs : List Char) : Option Binary64 :=
  let whole := cs.takeWhile isAsciiDigit
  let rest := cs.dropWhile isAsciiDigit
  let (part, rest) := match rest with
    | '.' :: more => (more.takeWhile isAsciiDigit, more.dropWhile isAsciiDigit)
    | _ => ([], rest)
  match natural 10 (whole ++ part), exponentPart rest with
  | some n, some k => some (.ofDecimal negative n (k - part.length))
  | _, _ => none

/-- A number as the widest reading takes it: a decimal fraction with an optional sign, or the name
    of infinity or of no number in any case. -/
def readFloat (cs : List Char) : Option Binary64 :=
  let (negative, rest) := splitSign cs
  let name := String.ofList (rest.map Char.toLower)
  if name = "inf" ∨ name = "infinity" then some (.ofMagnitude negative Binary64.infinite)
  else if name = "nan" then some (.ofMagnitude negative Binary64.nan.magnitude)
  else fraction negative rest

end StackLattice.Decimal
