import StackLattice.Toml.Quoted

/-!
Numbers, truth values and moments of TOML. Readers take the text from where something stands in it, and give
what is left behind it.
-/

namespace StackLattice.Toml

open Decimal (Binary64)
open Text (isAsciiDigit)

section Numbers

/-- Digits behind a first one. An underscore may stand between two. -/
def moreDigits (isDigit : Char → Bool) : List Char → List Char × List Char
  | '_' :: d :: rest =>
    if isDigit d then
      let (ds, left) := moreDigits isDigit rest
      (d :: ds, left)
    else ([], '_' :: d :: rest)
  | d :: rest =>
    if isDigit d then
      let (ds, left) := moreDigits isDigit rest
      (d :: ds, left)
    else ([], d :: rest)
  | [] => ([], [])

def digits? (isDigit : Char → Bool) : List Char → Option (List Char × List Char)
  | d :: rest =>
    if isDigit d then
      let (ds, left) := moreDigits isDigit rest
      some (d :: ds, left)
    else none
  | [] => none

def splitSign : List Char → List Char × List Char
  | '-' :: rest => (['-'], rest)
  | '+' :: rest => (['+'], rest)
  | cs => ([], cs)

/-- Decimal digits without needless zeros, and a sign. -/
def whole? (cs : List Char) : Option (List Char × List Char) :=
  let (sign, cs) := splitSign cs
  match cs with
  | '0' :: rest => some (sign ++ ['0'], rest)
  | cs => (digits? isAsciiDigit cs).map fun (ds, rest) => (sign ++ ds, rest)

def isHexDigit (c : Char) : Bool := (Decimal.digitValue c).isSome
def isOctalDigit (c : Char) : Bool := '0' ≤ c && c ≤ '7'
def isBinaryDigit (c : Char) : Bool := c == '0' || c == '1'

/-- A whole number of 64 bits. -/
def integer? (cs : List Char) : Option (Int × List Char) := do
  let based (base : Nat) (isDigit : Char → Bool) (cs : List Char) : Option (Int × List Char) := do
    let (ds, rest) ← digits? isDigit cs
    let n ← Decimal.naturalBelow base (1 <<< 63) ds
    return (n, rest)
  match cs with
  | '0' :: 'x' :: rest => based 16 isHexDigit rest
  | '0' :: 'o' :: rest => based 8 isOctalDigit rest
  | '0' :: 'b' :: rest => based 2 isBinaryDigit rest
  | cs =>
    let (ds, rest) ← whole? cs
    let n ← Decimal.integerWithin 10 (1 <<< 63) ds
    return (n, rest)

/-- The digits behind a point, with the point. -/
def fraction? : List Char → Option (List Char × List Char)
  | '.' :: rest => (digits? isAsciiDigit rest).map fun (ds, rest) => ('.' :: ds, rest)
  | _ => none

def exponent? : List Char → Option (List Char × List Char)
  | c :: rest =>
    if c = 'e' ∨ c = 'E' then
      let (sign, rest) := splitSign rest
      (digits? isAsciiDigit rest).map fun (ds, rest) => ('e' :: sign ++ ds, rest)
    else none
  | [] => none

/-- A number with a fraction or an exponent. It is not too large. -/
def float? (cs : List Char) : Option (Binary64 × List Char) := do
  let (ds, rest) ← whole? cs
  let (ds, rest) ← match fraction? rest with
    | some (fraction, rest) =>
      match exponent? rest with
      | some (exponent, rest) => some (ds ++ fraction ++ exponent, rest)
      | none => some (ds ++ fraction, rest)
    | none => (exponent? rest).map fun (exponent, rest) => (ds ++ exponent, rest)
  let x ← Decimal.readFloat ds
  if x = .ofMagnitude false Binary64.infinite then none else return (x, rest)

/-- Infinity, or a number that is none. -/
def special? (cs : List Char) : Option (Binary64 × List Char) := do
  let (sign, rest) := splitSign cs
  let x ← Decimal.readFloat (sign ++ rest.take 3)
  if ["inf", "nan"].contains (String.ofList (rest.take 3)) then return (x, rest.drop 3) else none

end Numbers

section Moments

/-- A number of so many digits within bounds. -/
def field? (count least most : Nat) (cs : List Char) : Option (Nat × List Char) := do
  let ds := cs.take count
  if ds.length < count || !ds.all isAsciiDigit then none
  let n ← Decimal.natural 10 ds
  if least ≤ n ∧ n ≤ most then return (n, cs.drop count) else none

def mark? (mark : Char) : List Char → Option (List Char)
  | c :: rest => if c = mark then some rest else none
  | [] => none

def daysOf (year month : Nat) : Nat :=
  match month with
  | 2 => if year % 4 = 0 ∧ (year % 100 ≠ 0 ∨ year % 400 = 0) then 29 else 28
  | 4 | 6 | 9 | 11 => 30
  | _ => 31

def passDate (cs : List Char) : Option (List Char) := do
  let (year, rest) ← field? 4 0 9999 cs
  let (month, rest) ← field? 2 1 12 (← mark? '-' rest)
  let (_, rest) ← field? 2 1 (daysOf year month) (← mark? '-' rest)
  return rest

/-- A time of day. The last second of a day may be one too many. -/
def passTime (cs : List Char) : Option (List Char) := do
  let (_, rest) ← field? 2 0 23 cs
  let (_, rest) ← field? 2 0 59 (← mark? ':' rest)
  let (_, rest) ← field? 2 0 60 (← mark? ':' rest)
  match rest with
  | '.' :: rest =>
    match rest.span isAsciiDigit with
    | ([], _) => none
    | (_, rest) => return rest
  | rest => return rest

/-- How far a time is from universal time. -/
def passOffset : List Char → Option (List Char)
  | 'Z' :: rest | 'z' :: rest => some rest
  | '+' :: rest | '-' :: rest => do
    let (_, rest) ← field? 2 0 23 rest
    let (_, rest) ← field? 2 0 59 (← mark? ':' rest)
    return rest
  | _ => none

/-- A date, a time, or both, and then with an offset if there is one. -/
def passMoment (cs : List Char) : Option (List Char) :=
  match passDate cs with
  | none => passTime cs
  | some date =>
    match date with
    | c :: rest =>
      if c = 'T' ∨ c = 't' ∨ c = ' ' then
        match passTime rest with
        | some time => some ((passOffset time).getD time)
        | none => some date
      else some date
    | [] => some []

end Moments

/-- A word, and what is left behind it. -/
def passWord (word : String) (cs : List Char) : Option (List Char) :=
  if word.toList.isPrefixOf cs then some (cs.drop word.length) else none

end StackLattice.Toml
