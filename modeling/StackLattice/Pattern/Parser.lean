import StackLattice.Pattern.CharClass

/-!
Reading patterns. A pattern is read from left to right; the parts read so far, and those of the groups
that are still open, are kept until they are closed.
-/

namespace StackLattice.Pattern

open Text (isAsciiDigit isBlank)

/-- Levels of nesting that a pattern may use. -/
def depthLimit : Nat := 250

/-- States that a machine for a pattern may have. -/
def statesLimit : Nat := 327680

/-- What has been read of a group before a group inside it was opened. -/
structure Frame where
  items : List Pattern
  branches : List Pattern
  flags : Flags

structure Progress where
  flags : Flags := {}
  /-- Of the branch being read, last first. An empty pattern stands for flags. -/
  items : List Pattern := []
  /-- The branches before it, last first. -/
  branches : List Pattern := []
  /-- Innermost first. -/
  outer : List Frame := []
  names : List (List Char) := []

namespace Progress

def add (p : Progress) (item : Pattern) : Progress := { p with items := item :: p.items }

def branch (p : Progress) : Pattern :=
  match p.items with
  | [] => .empty
  | [item] => item
  | items => .sequence items.reverse

def inner (p : Progress) : Pattern :=
  match p.branches with
  | [] => p.branch
  | branches => .choice (p.branch :: branches).reverse

def nextBranch (p : Progress) : Progress :=
  { p with items := [], branches := p.branch :: p.branches }

def openGroup (p : Progress) (flags : Flags) : Progress :=
  { p with flags, items := [], branches := [], outer := ⟨p.items, p.branches, p.flags⟩ :: p.outer }

/-- Closes the innermost group; its flags end with it. -/
def closeGroup (p : Progress) : Except Fault Progress :=
  match p.outer with
  | [] => .error .strayClose
  | frame :: outer =>
    .ok { p with flags := frame.flags, items := .group p.inner :: frame.items,
                 branches := frame.branches, outer }

/-- Repeats the item before an operator. -/
def repeatLast (p : Progress) (least : Nat) (most : Option Nat) : Except Fault Progress :=
  match p.items with
  | [] | .empty :: _ => .error .nothingToRepeat
  | item :: items => .ok { p with items := .times least most item :: items }

/-- A character, with the others that differ from it in case only where case is ignored. -/
def addChar (p : Progress) (c : Char) : Progress := p.add (.set (p.flags.fold (.single c)))

def addAtom (p : Progress) : Atom → Progress
  | .char c => p.addChar c
  | .set s => p.add (.set s)
  | .assertion a => p.add (.assertion a)

end Progress

def isGroupName (first : Bool) (c : Char) : Bool :=
  c == '_' || if first then Text.isAlphabetic c
    else c == '.' || c == '[' || c == ']' || Text.isAlphanumeric c

def groupName (names : List (List Char)) (cs : List Char) :
    Except Fault (List Char × List Char) :=
  match cs.span (· ≠ '>') with
  | (c :: name, _ :: rest) =>
    if !isGroupName true c || !name.all (isGroupName false) then .error .groupName
    else if names.contains (c :: name) then .error (.repeatedName (String.ofList (c :: name)))
    else .ok (c :: name, rest)
  | _ => .error .groupName

def setFlag (on : Bool) (flags : Flags) : Char → Option Flags
  | 'i' => some { flags with ignoreCase := on }
  | 'm' => some { flags with multiLine := on }
  | 's' => some { flags with dotAll := on }
  | 'R' => some { flags with returns := on }
  | 'x' => some { flags with extended := on }
  | 'u' => some { flags with unicode := on }
  | 'U' => some flags
  | _ => none

/-- Flags up to a colon or a closing parenthesis; those behind `-` are switched off. No flag may be
    given twice. -/
def readFlags (seen : List Char) (flags : Flags) : List Char → Except Fault (Flags × List Char)
  | [] => .error .openFlags
  | c :: cs =>
    if c = ':' ∨ c = ')' then
      if seen.head? = some '-' then .error .danglingNegation
      else if c = ')' ∧ seen = [] then .error .emptyFlags
      else .ok (flags, c :: cs)
    else if seen.contains c then .error (.repeatedFlag c)
    else if c = '-' then readFlags (c :: seen) flags cs
    else
      match setFlag (!seen.contains '-') flags c with
      | some flags => readFlags (c :: seen) flags cs
      | none => .error (.unknownFlag c)

/-- The beginning of a group, from behind its parenthesis. -/
def startGroup (p : Progress) (cs : List Char) : Except Fault (Progress × List Char) := do
  let named (rest : List Char) : Except Fault (Progress × List Char) := do
    let (name, rest) ← groupName p.names rest
    return ({ p with names := name :: p.names }.openGroup p.flags, rest)
  match p.flags.space cs with
  | '?' :: '=' :: _ | '?' :: '!' :: _ => throw .lookAround
  | '?' :: '<' :: '=' :: _ | '?' :: '<' :: '!' :: _ => throw .lookAround
  | '?' :: 'P' :: '<' :: rest => named rest
  | '?' :: '<' :: rest => named rest
  | '?' :: rest =>
    if rest.isEmpty then throw .openGroup
    match ← readFlags [] p.flags rest with
    | (flags, ':' :: rest) => return (p.openGroup flags, rest)
    | (flags, rest) => return ({ p with flags }.add .empty, rest.tail)
  | cs => return (p.openGroup p.flags, cs)

def countNumber (flags : Flags) (cs : List Char) : Except Fault (Nat × List Char) :=
  let (digits, rest) := (cs.dropWhile isBlank).span fun c =>
    isAsciiDigit c || (flags.extended && isBlank c)
  match Decimal.naturalBelow 10 (1 <<< 32) (digits.filter isAsciiDigit) with
  | some n => .ok (n, flags.space (rest.dropWhile isBlank))
  | none => .error .count

/-- The least and greatest number of repetitions, from behind the brace. -/
def counts (flags : Flags) (cs : List Char) :
    Except Fault ((Nat × Option Nat) × List Char) := do
  let cs := flags.space cs
  if cs.isEmpty then throw .openCount
  let (least, rest) ← countNumber flags cs
  let (most, rest) ← match rest with
    | ',' :: rest =>
      match flags.space rest with
      | [] => throw .openCount
      | '}' :: rest => pure (none, '}' :: rest)
      | rest => do
        let (most, rest) ← countNumber flags rest
        pure (some most, rest)
    | rest => pure (some least, rest)
  match rest with
  | '}' :: rest =>
    if most.any (· < least) then throw .countOrder
    return ((least, most), flags.space rest)
  | _ => throw .openCount

/-- Leaves out the mark of an operator that takes as little as it can, which decides nothing about whether
    there is a match. -/
def skipLazy : List Char → List Char
  | '?' :: cs => cs
  | cs => cs

/-- Reads one item, operator or parenthesis. -/
def step (p : Progress) (c : Char) (cs : List Char) : Except Fault (Progress × List Char) :=
  match c with
  | '(' => startGroup p cs
  | ')' => return (← p.closeGroup, cs)
  | '|' => return (p.nextBranch, cs)
  | '[' => do
    let (s, rest) ← charClass p.flags cs
    return (p.add (.set s), rest)
  | '?' => return (← p.repeatLast 0 (some 1), skipLazy cs)
  | '*' => return (← p.repeatLast 0 none, skipLazy cs)
  | '+' => return (← p.repeatLast 1 none, skipLazy cs)
  | '{' => do
    let ((least, most), rest) ← counts p.flags cs
    return (← p.repeatLast least most, skipLazy rest)
  | '.' => return (p.add (.set (← p.flags.dot)), cs)
  | '^' => return (p.add (.assertion p.flags.startOfLine), cs)
  | '$' => return (p.add (.assertion p.flags.endOfLine), cs)
  | '\\' => do
    let (atom, rest) ← escape p.flags cs
    return (p.addAtom atom, rest)
  | c => return (p.addChar c, cs)

/-- Reads to the end. The first argument bounds the number of items. -/
def readAll : Nat → Progress → List Char → Except Fault Pattern
  | 0, _, _ => .error .tooLarge
  | n + 1, p, cs =>
    match p.flags.space cs with
    | [] => if p.outer.isEmpty then .ok p.inner else .error .openGroup
    | c :: cs => do
      let (p, rest) ← step p c cs
      readAll n p rest

end Pattern

open Pattern in
def Pattern.read (text : String) : Except Fault Pattern := do
  let cs := text.toList
  let p ← readAll (cs.length + 1) {} cs
  if depthLimit < p.depth then throw .tooDeep
  if statesLimit < p.states then throw .tooLarge
  return p

end StackLattice
