import StackLattice.Toml.Table

/-!
Reading TOML: each line holds a key with its value, the header of the table that the keys below it belong to,
or nothing.
-/

namespace StackLattice.Toml

/-- A key with dots: all but its last part, and that one. -/
structure Key where
  path : List String
  last : String
deriving DecidableEq, Repr

/-- The parts that a key may have and the levels that a value may be nested are fewer. -/
def depthLimit : Nat := 80

def skipSpace (cs : List Char) : List Char := cs.dropWhile isSpace

def isBareKey (c : Char) : Bool :=
  Text.isAsciiDigit c || Text.isAsciiLetter c || c == '_' || c == '-'

def keyPart? (cs : List Char) : Option (String × List Char) :=
  match cs with
  | '"' :: rest => basic rest
  | '\'' :: rest => bare rest
  | cs =>
    match cs.span isBareKey with
    | ([], _) => none
    | (part, rest) => some (String.ofList part, rest)

/-- The parts of a key with blanks around them. The number bounds how many there are. -/
def keyParts : Nat → List Char → Option (Key × List Char)
  | 0, _ => none
  | n + 1, cs => do
    let (part, rest) ← keyPart? (skipSpace cs)
    match skipSpace rest with
    | '.' :: rest =>
      let (key, rest) ← keyParts n rest
      return ({ key with path := part :: key.path }, rest)
    | rest => return (⟨[], part⟩, rest)

def key? (cs : List Char) : Option (Key × List Char) := keyParts (depthLimit - 1) cs

def skipComment : List Char → List Char
  | '#' :: rest => rest.dropWhile isPlain
  | cs => cs

/-- Blanks, ends of lines and comments. The number bounds the comments. -/
def skipGap : Nat → List Char → List Char
  | 0, cs => cs
  | n + 1, cs =>
    match skipLines cs with
    | '#' :: rest => skipGap n (rest.dropWhile isPlain)
    | cs => cs

def gap (cs : List Char) : List Char := skipGap cs.length cs

section Values

/-- Items up to the closing bracket; a comma may stand behind the last. The number bounds the items. -/
def items (value : List Char → Option (Item × List Char)) :
    Nat → List Char → Option (List Item × List Char)
  | 0, _ => none
  | n + 1, cs =>
    match gap cs with
    | ']' :: rest => some ([], rest)
    | cs => do
      let (item, rest) ← value cs
      match gap rest with
      | ',' :: rest =>
        let (more, rest) ← items value n rest
        return (item :: more, rest)
      | ']' :: rest => return ([item], rest)
      | _ => none

def assignment (value : List Char → Option (Item × List Char)) (cs : List Char) :
    Option ((Key × Item) × List Char) := do
  let (key, rest) ← key? cs
  let (item, rest) ← value (skipSpace (← mark? '=' rest))
  return ((key, item), rest)

/-- Keys and values up to the closing brace, at least one. The number bounds them. -/
def assignments (value : List Char → Option (Item × List Char)) :
    Nat → List Char → Option (List (Key × Item) × List Char)
  | 0, _ => none
  | n + 1, cs => do
    let (a, rest) ← assignment value cs
    match skipSpace rest with
    | ',' :: rest =>
      let (more, rest) ← assignments value n rest
      return (a :: more, rest)
    | '}' :: rest => return ([a], rest)
    | _ => none

/-- A table on one line, from behind its brace. -/
def inlineTable (value : List Char → Option (Item × List Char)) (cs : List Char) :
    Option (Item × List Char) :=
  match skipSpace cs with
  | '}' :: rest => some (.table .inline [], rest)
  | cs => do
    let (all, rest) ← assignments value (cs.length + 1) cs
    match all.foldlM (fun entries (key, item) => Entries.add key.last item key.path entries) [] with
    | .ok entries => return (.table .inline entries, rest)
    | .error _ => none

def number (cs : List Char) : Option (Item × List Char) :=
  match passMoment cs with
  | some rest => some (.moment, rest)
  | none =>
    match (float? cs).orElse fun _ => special? cs with
    | some (x, rest) => some (.float x, rest)
    | none => (integer? cs).map fun (n, rest) => (.integer n, rest)

/-- A value. The number bounds the levels of nesting. -/
def value : Nat → List Char → Option (Item × List Char)
  | levels, cs =>
    match cs with
    | '"' :: _ | '\'' :: _ => (string? cs).map fun (s, rest) => (.string s, rest)
    | '[' :: rest =>
      match levels with
      | 0 => none
      | n + 1 => (items (value n) (rest.length + 1) rest).map fun (all, rest) => (.list all, rest)
    | '{' :: rest =>
      match levels with
      | 0 => none
      | n + 1 => inlineTable (value n) rest
    | 't' :: _ => (passWord "true" cs).map fun rest => (.bool true, rest)
    | 'f' :: _ => (passWord "false" cs).map fun rest => (.bool false, rest)
    | cs => number cs

end Values

inductive Statement
  | assign (key : Key) (item : Item)
  | header (key : Key)
  /-- The header of one of several tables. -/
  | nextHeader (key : Key)

/-- The statement at the beginning of a line. -/
def statement? (cs : List Char) : Option (Statement × List Char) :=
  match cs with
  | '[' :: '[' :: rest => do
    let (key, rest) ← key? rest
    return (.nextHeader key, ← mark? ']' (← mark? ']' rest))
  | '[' :: rest => do
    let (key, rest) ← key? rest
    return (.header key, ← mark? ']' rest)
  | cs => do
    let ((key, item), rest) ← assignment (value (depthLimit - 1)) cs
    return (.assign key item, rest)

/-- What has been read, and the table that keys are added to. -/
structure Progress where
  entries : Entries := []
  current : List String := []
  line : Nat := 1

namespace Progress

def perform (p : Progress) : Statement → Except Fault Progress
  | .assign key item => do
    return { p with entries := ← Entries.change (Entries.add key.last item key.path) p.current p.entries }
  | .header key => do
    return { p with entries := ← Entries.change (Entries.openTable key.last) key.path p.entries,
                    current := key.path ++ [key.last] }
  | .nextHeader key => do
    return { p with entries := ← Entries.change (Entries.openNext key.last) key.path p.entries,
                    current := key.path ++ [key.last] }

/-- Counts the lines that end between two places. -/
def advance (p : Progress) (before after : List Char) : Progress :=
  { p with line := p.line + (before.take (before.length - after.length)).count '\n' }

/-- What the line at hand says, and what is left behind that: a comment or the end of the line. -/
def readLine (p : Progress) (cs : List Char) : Except Fault (Progress × List Char) :=
  match cs with
  | [] | '#' :: _ | '\n' :: _ | '\r' :: _ => .ok (p, cs)
  | cs =>
    match statement? cs with
    | none => .error (.unreadable p.line)
    | some (s, rest) => do return ((← p.perform s).advance cs rest, skipSpace rest)

/-- Reads line after line. The number bounds the lines. -/
def readLines : Nat → Progress → List Char → Except Fault Entries
  | 0, p, _ => .error (.unreadable p.line)
  | n + 1, p, cs => do
    let (p, rest) ← p.readLine (skipSpace cs)
    match skipComment rest with
    | [] => return p.entries
    | rest =>
      match lineEnd? rest with
      | some next => readLines n (p.advance rest next) next
      | none => throw (.unreadable p.line)

end Progress

/-- Reads the entries of the outermost table. A mark of the order of bytes may stand at the beginning. -/
def read (text : String) : Except Fault Entries :=
  let cs := match text.toList with
    | '\ufeff' :: cs => cs
    | cs => cs
  Progress.readLines (cs.length + 1) {} cs

end StackLattice.Toml
