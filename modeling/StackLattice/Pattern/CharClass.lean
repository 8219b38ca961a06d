import StackLattice.Pattern.Escape

/-!
Classes in brackets: members, ranges and classes inside, joined by `&&`, `--` and `~~` from left to
right.
-/

namespace StackLattice.Pattern

open Text (isAsciiDigit isAsciiLetter isHexDigit)

inductive SetOp
  | intersect
  | subtract
  | differ
deriving DecidableEq, Repr

def SetOp.apply (s t : CharSet) : SetOp → CharSet
  | intersect => ⟨fun c => s.has c && t.has c, s.states + t.states⟩
  | subtract => ⟨fun c => s.has c && !t.has c, s.states + t.states⟩
  | differ => ⟨fun c => s.has c != t.has c, s.states + t.states⟩

/-- A class of which the closing bracket has not been read. -/
structure Bracket where
  negated : Bool
  /-- Of the operand that is being read. -/
  members : CharSet
  /-- The operands before it, and how it is joined to them. -/
  left : Option (CharSet × SetOp)

namespace Bracket

def add (b : Bracket) (s : CharSet) : Bracket := { b with members := b.members.union s }

def value (flags : Flags) (b : Bracket) : CharSet :=
  match b.left with
  | none => b.members
  | some (s, op) => op.apply (flags.fold s) (flags.fold b.members)

def close (flags : Flags) (b : Bracket) : CharSet :=
  let s := flags.fold (b.value flags)
  if b.negated then s.complement else s

def operate (flags : Flags) (b : Bracket) (op : SetOp) : Bracket :=
  { b with members := .empty, left := some (b.value flags, op) }

end Bracket

def asciiClass? (name : String) : Option (Char → Bool) :=
  let isGraph (c : Char) : Bool := '!' ≤ c && c ≤ '~'
  match name with
  | "alnum" => some fun c => isAsciiLetter c || isAsciiDigit c
  | "alpha" => some isAsciiLetter
  | "ascii" => some fun c => c.toNat < 0x80
  | "blank" => some fun c => c == ' ' || c == '\t'
  | "cntrl" => some fun c => c.toNat < 0x20 || c.toNat == 0x7F
  | "digit" => some isAsciiDigit
  | "graph" => some isGraph
  | "lower" => some fun c => 'a' ≤ c && c ≤ 'z'
  | "print" => some fun c => c == ' ' || isGraph c
  | "punct" => some fun c => isGraph c && !isAsciiLetter c && !isAsciiDigit c
  | "space" => some fun c => c == ' ' || (9 ≤ c.toNat && c.toNat ≤ 13)
  | "upper" => some fun c => 'A' ≤ c && c ≤ 'Z'
  | "word" => some isAsciiWord
  | "xdigit" => some isHexDigit
  | _ => none

/-- A class such as `[:alpha:]`, from behind its `[:`. Anything else is read as a class inside. -/
def namedClass? (flags : Flags) (cs : List Char) : Option (CharSet × List Char) := do
  let (negated, cs) := match cs with
    | '^' :: rest => (true, rest)
    | _ => (false, cs)
  match cs.span (· ≠ ':') with
  | (name, ':' :: ']' :: rest) =>
    let s := flags.fold ⟨← asciiClass? (String.ofList name), 1⟩
    return (if negated then s.complement else s, rest)
  | _ => none

/-- Takes hyphens at the beginning of a class for members. -/
def leadingHyphens (flags : Flags) (b : Bracket) : List Char → Bracket × List Char
  | '-' :: cs => leadingHyphens flags (b.add (.single '-')) (flags.space cs)
  | cs => (b, cs)
termination_by cs => cs.length
decreasing_by
  have := flags.space_length_le cs
  simp only [List.length_cons]
  omega

/-- The beginning of a class, from behind its bracket. A closing bracket that comes first is a member. -/
def openBracket (flags : Flags) (cs : List Char) : Except Fault (Bracket × List Char) := do
  let (negated, cs) := match flags.space cs with
    | '^' :: rest => (true, flags.space rest)
    | cs => (false, cs)
  match leadingHyphens flags ⟨negated, .empty, none⟩ cs with
  | (_, []) => throw .openClass
  | (b, ']' :: rest) =>
    if cs.head? = some '-' then return (b, ']' :: rest)
    match flags.space rest with
    | [] => throw .openClass
    | rest => return (b.add (.single ']'), rest)
  | (b, rest) => return (b, rest)

/-- A member, which is a character or a set. -/
def classAtom (flags : Flags) : List Char → Except Fault (Atom × List Char)
  | [] => .error .openClass
  | '\\' :: cs => escape flags cs
  | c :: cs => .ok (.char c, cs)

def classChar (flags : Flags) : Atom → Except Fault Char
  | .char c => if flags.unicode || c.toNat ≤ 0xFF then .ok c else .error .splitsCharacters
  | _ => .error .rangeEnd

/-- A range, or a member alone. -/
def classItem (flags : Flags) (cs : List Char) : Except Fault (CharSet × List Char) := do
  let (first, cs) ← classAtom flags cs
  let alone (rest : List Char) : Except Fault (CharSet × List Char) :=
    match first with
    | .char _ => return (.single (← classChar flags first), rest)
    | .set s => return (s, rest)
    | .assertion _ => throw .escapeInClass
  match flags.space cs with
  | [] => throw .openClass
  | '-' :: rest =>
    match flags.space rest with
    | [] => throw .openClass
    | c :: after =>
      if c = ']' ∨ c = '-' then alone ('-' :: rest)
      else
        let (last, rest) ← classAtom flags (c :: after)
        let a ← classChar flags first
        let z ← classChar flags last
        if a ≤ z then return (.range a z, rest) else throw (.rangeOrder a z)
  | rest => alone rest

/-- The rest of a class, given the classes that are open, innermost first. The first argument bounds the
    number of members. -/
def classRest (flags : Flags) :
    Nat → Bracket → List Bracket → List Char → Except Fault (CharSet × List Char)
  | 0, _, _, _ => .error .openClass
  | n + 1, b, outer, cs =>
    match flags.space cs with
    | [] => .error .openClass
    | '[' :: rest =>
      match (if rest.head? = some ':' then namedClass? flags rest.tail else none) with
      | some (s, rest) => classRest flags n (b.add s) outer rest
      | none =>
        match openBracket flags rest with
        | .ok (inner, rest) => classRest flags n inner (b :: outer) rest
        | .error e => .error e
    | ']' :: rest =>
      match outer with
      | [] => .ok (b.close flags, rest)
      | around :: outer => classRest flags n (around.add (b.close flags)) outer rest
    | '&' :: '&' :: rest => classRest flags n (b.operate flags .intersect) outer rest
    | '-' :: '-' :: rest => classRest flags n (b.operate flags .subtract) outer rest
    | '~' :: '~' :: rest => classRest flags n (b.operate flags .differ) outer rest
    | cs =>
      match classItem flags cs with
      | .ok (s, rest) => classRest flags n (b.add s) outer rest
      | .error e => .error e

def charClass (flags : Flags) (cs : List Char) : Except Fault (CharSet × List Char) := do
  let (b, rest) ← openBracket flags cs
  let (s, rest) ← classRest flags (cs.length + 1) b [] rest
  if flags.unicode || s.isAscii then return (s, rest) else throw .splitsCharacters

end StackLattice.Pattern
