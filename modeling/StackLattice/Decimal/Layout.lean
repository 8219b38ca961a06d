import StackLattice.Decimal.Shortest

/-!
How a binary value is laid out as text. A value is `0.d₁d₂… * 10 ^ place`; the layout says for which
places it is written positionally and how the exponent looks otherwise.
-/

namespace StackLattice.Decimal

structure Layout where
  /-- Places written without an exponent. -/
  positional : Int → Bool
  /-- Whether a whole number keeps a zero after the point. -/
  keepPoint : Bool
  /-- Whether a positive exponent has a sign. -/
  plus : Bool
  tie : Tie

namespace Layout

/-- Documents: the point moves by at most five places to the left or sixteen to the right. -/
def document : Layout := ⟨fun place => -5 < place && place ≤ 16, true, true, .even⟩

/-- Block documents differ from the others in the sign of the exponent only. -/
def block : Layout := { document with plus := false }

/-- Values in messages. -/
def value : Layout := ⟨fun place => -4 < place && place ≤ 16, true, false, .up⟩

/-- Tokens in messages: never an exponent, and no point in a whole number. -/
def token : Layout := ⟨fun _ => true, false, false, .up⟩

def zeros (n : Nat) : List Char := List.replicate n '0'

/-- Digits with the point after the first `place` of them, zeros filling the gap. -/
def positionalText (l : Layout) (digits : List Char) (place : Int) : List Char :=
  if place ≤ 0 then '0' :: '.' :: zeros (-place).toNat ++ digits
  else if digits.length ≤ place.toNat then
    digits ++ zeros (place.toNat - digits.length) ++ (if l.keepPoint then ['.', '0'] else [])
  else digits.take place.toNat ++ '.' :: digits.drop place.toNat

def exponentText (l : Layout) (digits : List Char) (place : Int) : List Char :=
  let exponent := place - 1
  let sign := if exponent < 0 then ['-'] else if l.plus then ['+'] else []
  digits.take 1 ++ (if digits.length = 1 then [] else '.' :: digits.drop 1) ++
    'e' :: sign ++ Nat.toDigits 10 exponent.natAbs

def unsigned (l : Layout) (x : Binary64) : List Char :=
  if x.isZero then (if l.keepPoint then ['0', '.', '0'] else ['0'])
  else
    let d := x.shortest l.tie
    let digits := Nat.toDigits 10 d.digits
    let place := d.power + digits.length
    if l.positional place then l.positionalText digits place else l.exponentText digits place

def render (l : Layout) (x : Binary64) : String :=
  if x.isNaN then "NaN"
  else
    let body := if x.isFinite then l.unsigned x else ['i', 'n', 'f']
    String.ofList (if x.negative then '-' :: body else body)

end Layout

end StackLattice.Decimal
