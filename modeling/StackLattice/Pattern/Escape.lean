import StackLattice.Decimal.Read
import StackLattice.Pattern.Basic
import StackLattice.Pattern.Fault
import StackLattice.Text.Split

/-!
The parts of patterns that stand for one character, for a set of characters or for a place, and the
flags that say how they are read.
-/

namespace StackLattice.Pattern

open Text (isBlank isAsciiDigit isAsciiLetter isHexDigit)

/-- How the following part of a pattern is read. -/
structure Flags where
  ignoreCase : Bool := false
  multiLine : Bool := false
  /-- `.` matches line ends too. -/
  dotAll : Bool := false
  /-- Lines end in `\r` too. -/
  returns : Bool := false
  /-- Blanks and comments are left out. -/
  extended : Bool := false
  unicode : Bool := true
deriving DecidableEq, Repr

/-- Skips blanks, and comments up to the end of their line. -/
def skipSpace : (inComment : Bool) → List Char → List Char
  | _, [] => []
  | false, c :: cs =>
    if isBlank c then skipSpace false cs else if c = '#' then skipSpace true cs else c :: cs
  | true, c :: cs => skipSpace (c != '\n') cs

theorem skipSpace_length_le (inComment : Bool) (cs : List Char) :
    (skipSpace inComment cs).length ≤ cs.length := by
  induction cs generalizing inComment with
  | nil => cases inComment <;> simp [skipSpace]
  | cons c cs ih =>
    cases inComment with
    | true =>
      have := ih (c != '\n')
      simp only [skipSpace, List.length_cons]
      omega
    | false =>
      have := ih false
      have := ih true
      simp only [skipSpace]
      repeat' split
      all_goals simp only [List.length_cons]
      all_goals omega

namespace Flags

variable (flags : Flags)

def space (cs : List Char) : List Char := if flags.extended then skipSpace false cs else cs

theorem space_length_le (cs : List Char) : (flags.space cs).length ≤ cs.length := by
  unfold space
  split
  · exact skipSpace_length_le false cs
  · exact Nat.le_refl _

def fold (s : CharSet) : CharSet :=
  if !flags.ignoreCase then s else if flags.unicode then s.fold else s.foldAscii

def dot : Except Fault CharSet :=
  if !flags.unicode then .error .splitsCharacters
  else if flags.dotAll then .ok (CharSet.empty.complement)
  else if flags.returns then .ok ((CharSet.single '\n').union (.single '\r')).complement
  else .ok (CharSet.single '\n').complement

def startOfLine : Assertion := if flags.multiLine then .lineStart flags.returns else .textStart

def endOfLine : Assertion := if flags.multiLine then .lineEnd flags.returns else .textEnd

end Flags

/-- What a part of a pattern stands for. -/
inductive Atom
  | char (c : Char)
  | set (s : CharSet)
  | assertion (a : Assertion)

/-- Characters that are written behind a backslash to stand for themselves, though not all need it. -/
def isEscapable (c : Char) : Bool :=
  c.toNat < 0x80 && !isAsciiDigit c && !isAsciiLetter c && c != '<' && c != '>'

def codePoint (digits : List Char) : Except Fault Char :=
  match Decimal.natural 16 digits with
  | some n => if n.isValidChar then .ok (Char.ofNat n) else .error .codePoint
  | none => .error .codePoint

/-- Exactly `n` hexadecimal digits, between which blanks may be left out. -/
def fixedDigits (flags : Flags) : Nat → List Char → Except Fault (List Char × List Char)
  | 0, cs => .ok ([], cs)
  | _ + 1, [] => .error .openEscape
  | n + 1, c :: cs =>
    if isHexDigit c then do
      let (digits, rest) ← fixedDigits flags n (flags.space cs)
      return (c :: digits, rest)
    else .error .codePoint

def upToBrace (flags : Flags) (cs : List Char) : Except Fault (List Char × List Char) :=
  let inner := if flags.extended then withoutSpace false cs else cs
  match inner.span (· ≠ '}') with
  | (name, _ :: rest) => .ok (name, rest)
  | (_, []) => .error .openEscape
where
  /-- Leaves out blanks and comments before the brace. -/
  withoutSpace : Bool → List Char → List Char
    | _, [] => []
    | true, c :: cs => withoutSpace (c != '\n') cs
    | false, c :: cs =>
      if isBlank c then withoutSpace false cs
      else if c = '#' then withoutSpace true cs
      else if c = '}' then c :: cs
      else c :: withoutSpace false cs

/-- A code point in hexadecimal digits, as many as the letter asks for or any number in braces. One byte
    that is no character of ASCII is a part of a character unless the pattern is read as Unicode. -/
def hexEscape (flags : Flags) (digits : Nat) (cs : List Char) : Except Fault (Char × List Char) :=
  match flags.space cs with
  | [] => .error .openEscape
  | '{' :: cs => do
    let (name, rest) ← upToBrace flags cs
    if name.isEmpty || !name.all isHexDigit then throw .codePoint
    return (← codePoint name, flags.space rest)
  | cs => do
    let (name, rest) ← fixedDigits flags digits cs
    let c ← codePoint name
    if digits = 2 && !flags.unicode && 0x80 ≤ c.toNat then throw .splitsCharacters
    return (c, rest)

/-- A usual number of states for a set that has a name. -/
def namedStates : Nat := 700

/-- The set of a name, or of a property and its value around `!=`, `:` or `=`. -/
def setOfName (name : List Char) : Except Fault CharSet :=
  let found := match splitAtUnequal name with
    | some (p, v) => (Text.valueSet? p v).map fun s => (CharSet.ofProperty namedStates s).complement
    | none =>
      match Text.cut ':' name with
      | (p, some v) => (Text.valueSet? p v).map (.ofProperty namedStates)
      | (_, none) =>
        match Text.cut '=' name with
        | (p, some v) => (Text.valueSet? p v).map (.ofProperty namedStates)
        | (_, none) => (Text.namedSet? name).map (.ofProperty namedStates)
  match found with
  | some s => .ok s
  | none => .error (.unknownSet (String.ofList name))
where
  splitAtUnequal : List Char → Option (List Char × List Char)
    | [] => none
    | '!' :: '=' :: v => some ([], v)
    | c :: cs => (splitAtUnequal cs).map fun (p, v) => (c :: p, v)

/-- A set named behind `\p` or `\P`. -/
def namedEscape (flags : Flags) (negated : Bool) (cs : List Char) : Except Fault (Atom × List Char) := do
  let (name, rest) ← match flags.space cs with
    | [] => throw .openEscape
    | '\\' :: _ => throw .openEscape
    | '{' :: cs => upToBrace flags cs
    | c :: cs => pure ([c], flags.space cs)
  if !flags.unicode then throw .splitsCharacters
  let s := flags.fold (← setOfName name)
  return (.set (if negated then s.complement else s), rest)

/-- The sets of `\d`, `\s` and `\w`, whose capitals stand for all other characters. -/
def letterSet (flags : Flags) (letter : Char) : Except Fault CharSet :=
  let s : CharSet :=
    match letter.toLower, flags.unicode with
    | 'd', true => .ofProperty 140 (Text.Category.has .decimalNumber)
    | 'd', false => .ofProperty 1 isAsciiDigit
    | 's', true => .ofProperty 20 isBlank
    | 's', false => .ofProperty 3 fun c => c.toNat < 0x80 && isBlank c
    | _, true => .ofProperty 1460 Text.isWord
    | _, false => .ofProperty 4 isAsciiWord
  if letter.toLower = letter then .ok s
  else if flags.unicode then .ok s.complement
  else .error .splitsCharacters

/-- A word boundary, which may say in braces on which side the word is. Other braces are left. -/
def boundary (flags : Flags) (cs : List Char) : Except Fault (Atom × List Char) :=
  let place (p : WordPlace) : Atom := .assertion (.word p (!flags.unicode))
  let isNamed (c : Char) : Bool := isAsciiLetter c || c == '-'
  match cs with
  | '{' :: inner =>
    match flags.space inner with
    | [] => .error .openBoundary
    | c :: inner =>
      if !isNamed c then .ok (place .edge, cs)
      else
        let inner := letters isNamed (c :: inner)
        match inner.1, inner.2 with
        | name, '}' :: rest =>
          match String.ofList name with
          | "start" => .ok (place .start, rest)
          | "end" => .ok (place .finish, rest)
          | "start-half" => .ok (place .startHalf, rest)
          | "end-half" => .ok (place .finishHalf, rest)
          | name => .error (.unknownBoundary name)
        | _, _ => .error .openBoundary
  | _ => .ok (place .edge, cs)
where
  /-- The characters of a name; blanks between them are left out. -/
  letters (isNamed : Char → Bool) (cs : List Char) : List Char × List Char :=
    if flags.extended then
      match (upToBrace flags cs).toOption with
      | some (name, rest) => if name.all isNamed then (name, '}' :: rest) else (name, [])
      | none => (cs, [])
    else cs.span isNamed

/-- What follows a backslash. -/
def escape (flags : Flags) : List Char → Except Fault (Atom × List Char)
  | [] => .error .openEscape
  | c :: cs =>
    let place (p : WordPlace) : Except Fault (Atom × List Char) := .ok (.assertion (.word p (!flags.unicode)), cs)
    if isAsciiDigit c then .error .backReference
    else if isEscapable c then .ok (.char c, cs)
    else
      match c with
      | 'x' => (hexEscape flags 2 cs).map fun (c, cs) => (.char c, cs)
      | 'u' => (hexEscape flags 4 cs).map fun (c, cs) => (.char c, cs)
      | 'U' => (hexEscape flags 8 cs).map fun (c, cs) => (.char c, cs)
      | 'p' => namedEscape flags false cs
      | 'P' => namedEscape flags true cs
      | 'd' | 's' | 'w' | 'D' | 'S' | 'W' => (letterSet flags c).map fun s => (.set s, cs)
      | 'a' => .ok (.char '\x07', cs)
      | 'f' => .ok (.char '\x0c', cs)
      | 't' => .ok (.char '\t', cs)
      | 'n' => .ok (.char '\n', cs)
      | 'r' => .ok (.char '\r', cs)
      | 'v' => .ok (.char '\x0b', cs)
      | 'A' => .ok (.assertion .textStart, cs)
      | 'z' => .ok (.assertion .textEnd, cs)
      | 'b' => boundary flags cs
      | 'B' => place .noEdge
      | '<' => place .start
      | '>' => place .finish
      | _ => .error (.unknownEscape c)

end StackLattice.Pattern
