import StackLattice.Decimal.Read

/-!
How text is written as a scalar of a block document: plain, between quotes, or literally line by line.
Text that would be read back as another kind of value is quoted.
-/

namespace StackLattice.Document

open Decimal (natural)
open Text (isAsciiDigit)

def isWritable (c : Char) : Bool :=
  let n := c.toNat
  n == 0x0A || (0x20 ≤ n && n ≤ 0x7E) ||
    (0xA0 ≤ n && n != 0xFEFF && n != 0xFFFE && n != 0xFFFF)

def isBreak (c : Char) : Bool :=
  c == '\n' || c == '\r' || c.toNat == 0x85 || c.toNat == 0x2028 || c.toNat == 0x2029

/-- Whether a place before or behind a character counts as blank; so does either end of the text. -/
def isGap : Option Char → Bool
  | none => true
  | some c => c == ' ' || c == '\t' || c.toNat == 0 || isBreak c

section Resemblance

/-- Digits behind a zero, which no number is written with. -/
def isPaddedNumber (cs : List Char) : Bool :=
  let digits := match cs with
    | '-' :: rest | '+' :: rest => rest
    | _ => cs
  match digits with
  | '0' :: rest => !rest.isEmpty && rest.all isAsciiDigit
  | _ => false

/-- The digits behind the mark of a base. -/
def basedDigits? : List Char → Option (Nat × List Char)
  | '0' :: 'x' :: rest => some (16, rest)
  | '0' :: 'o' :: rest => some (8, rest)
  | '0' :: 'b' :: rest => some (2, rest)
  | _ => none

/-- An integer of at most 128 bits. -/
def resemblesInteger (cs : List Char) : Bool :=
  let (bound, digits) := match cs with
    | '-' :: rest => (1 <<< 127 + 1, rest)
    | '+' :: rest => (1 <<< 128, rest)
    | _ => (1 <<< 128, cs)
  let within (base : Nat) (digits : List Char) : Bool := (natural base digits).any (· < bound)
  match basedDigits? digits with
  | some (base, digits) => within base digits
  | none => !isPaddedNumber cs && within 10 digits

/-- A finite number, an infinity or a number that is none. -/
def resemblesFloat (cs : List Char) : Bool :=
  let unsigned := match cs with
    | '+' :: rest => rest
    | _ => cs
  [".inf", ".Inf", ".INF"].contains (String.ofList unsigned) ||
    ["-.inf", "-.Inf", "-.INF", ".nan", ".NaN", ".NAN"].contains (String.ofList cs) ||
    (match cs, unsigned with
      | '+' :: _, '+' :: _ | '+' :: _, '-' :: _ => false
      | _, _ => (Decimal.readFloat unsigned).any (·.isFinite))

/-- Whether text would be read back as something else than text. -/
def resemblesOther (cs : List Char) : Bool :=
  cs.isEmpty ||
    ["null", "Null", "NULL", "~", "true", "True", "TRUE", "false", "False", "FALSE"].contains
      (String.ofList cs) ||
    resemblesInteger cs || isPaddedNumber cs || resemblesFloat cs

end Resemblance

section Analysis

/-- Characters that mean something else at the beginning of a scalar. -/
def startsStructure (c : Char) (next : Option Char) : Bool :=
  "#,[]{}&*!|>'\"%@`".toList.contains c || ((c == '?' || c == ':' || c == '-') && isGap next)

/-- Whether there is a mark of structure behind the first character. -/
def hasStructure : Char → List Char → Bool
  | _, [] => false
  | before, c :: cs =>
    (c == ':' && isGap cs.head?) || (c == '#' && isGap (some before)) || hasStructure c cs

/-- Whether text has marks of the structure of a document. -/
def hasMarks (cs : List Char) : Bool :=
  match cs with
  | [] => false
  | c :: rest =>
    "---".toList.isPrefixOf cs || "...".toList.isPrefixOf cs || startsStructure c rest.head? ||
      hasStructure c rest

/-- Whether a character of one kind is directly before one of another kind. -/
def hasPair (p q : Char → Bool) : List Char → Bool
  | c :: d :: cs => (p c && q d) || hasPair p q (d :: cs)
  | _ => false

def isSpace (c : Char) : Bool := c == ' '

/-- Only with escapes can text be written that has other characters than writable ones, or spaces before
    the end of a line. -/
def needsEscapes (cs : List Char) : Bool := !cs.all isWritable || hasPair isSpace isBreak cs

/-- Whether text can be written without quotes on one line. -/
def canBePlain (cs : List Char) : Bool :=
  !needsEscapes cs && !cs.any isBreak && !isSpace (cs.head?.getD 'x') &&
    !isSpace (cs.getLast?.getD 'x') && !hasMarks cs

/-- In single quotes a line does not start with spaces. -/
def canBeSingle (cs : List Char) : Bool := !needsEscapes cs && !hasPair isBreak isSpace cs

def canBeLiteral (cs : List Char) : Bool :=
  !cs.isEmpty && !needsEscapes cs && !isSpace (cs.getLast?.getD 'x')

end Analysis

inductive ScalarStyle
  | plain
  | single
  | double
  | literal
deriving DecidableEq, Repr

/-- The style that text is written in. A key on the line of its value is never literal. -/
def scalarStyle (simpleKey : Bool) (cs : List Char) : ScalarStyle :=
  let quoted := if canBeSingle cs then ScalarStyle.single else .double
  if cs.contains '\n' then if canBeLiteral cs && !simpleKey then .literal else .double
  else if simpleKey && cs.any isBreak then .double
  else if resemblesOther cs || !canBePlain cs then quoted
  else .plain

def upperHex (width n : Nat) : List Char :=
  let digits := (Nat.toDigits 16 n).map Char.toUpper
  List.replicate (width - digits.length) '0' ++ digits

def escapeDouble (c : Char) : List Char :=
  let n := c.toNat
  if isWritable c && !isBreak c && c != '"' && c != '\\' then [c]
  else '\\' :: match n with
    | 0x00 => ['0']
    | 0x07 => ['a']
    | 0x08 => ['b']
    | 0x09 => ['t']
    | 0x0A => ['n']
    | 0x0B => ['v']
    | 0x0C => ['f']
    | 0x0D => ['r']
    | 0x1B => ['e']
    | 0x22 => ['"']
    | 0x5C => ['\\']
    | 0x85 => ['N']
    | 0x2028 => ['L']
    | 0x2029 => ['P']
    | _ =>
      if n ≤ 0xFF then 'x' :: upperHex 2 n
      else if n ≤ 0xFFFF then 'u' :: upperHex 4 n
      else 'U' :: upperHex 8 n

def spaces (n : Nat) : List Char := List.replicate n ' '

/-- Text with every line behind a break indented; empty lines are not. The flag says whether a line has
    just ended. -/
def indentLines (indent : Nat) : Bool → List Char → List Char
  | _, [] => []
  | fresh, c :: cs =>
    if isBreak c then c :: indentLines indent true cs
    else if fresh then spaces indent ++ c :: indentLines indent false cs
    else c :: indentLines indent false cs

def singleQuoted (indent : Nat) (cs : List Char) : List Char :=
  let doubled := cs.flatMap fun c => if c = '\'' then ['\'', '\''] else [c]
  let closing := if cs.getLast?.any isBreak then spaces indent else []
  '\'' :: indentLines indent false doubled ++ closing ++ ['\'']

/-- What the first line of a literal says: how far lines are indented, when the text does not show it, and
    what becomes of the breaks at the end. -/
def literalHeader (cs : List Char) : List Char :=
  let indentation := if cs.head?.any fun c => isSpace c || isBreak c then ['2'] else []
  let ending := match cs.reverse with
    | last :: before =>
      if !isBreak last then ['-']
      else if before.isEmpty || before.head?.any isBreak then ['+']
      else []
    | [] => ['-']
  '|' :: indentation ++ ending

/-- A scalar whose further lines are indented. -/
def scalarText (simpleKey : Bool) (indent : Nat) (s : String) : List Char :=
  let cs := s.toList
  match scalarStyle simpleKey cs with
  | .plain => cs
  | .single => singleQuoted indent cs
  | .double => '"' :: cs.flatMap escapeDouble ++ ['"']
  | .literal => literalHeader cs ++ '\n' :: indentLines indent true cs

end StackLattice.Document
