import StackLattice.Decimal.Read

/-!
Reading the text of documents. Readers take the text from where something stands in it, and give what is
left behind it. Values that nobody asks for are passed over: they have to be written properly, but what they
stand for is not looked at.
-/

namespace StackLattice.Document.Reader

open Text (isAsciiDigit)

def isBlank (c : Char) : Bool := c == ' ' || c == '\t' || c == '\n' || c == '\r'

def skipBlank (cs : List Char) : List Char := cs.dropWhile isBlank

section Strings

/-- The value of four digits in base sixteen. -/
def codeUnit : List Char → Option (Nat × List Char)
  | a :: b :: c :: d :: rest => (Decimal.natural 16 [a, b, c, d]).map fun n => (n, rest)
  | _ => none

/-- A character given by one code unit, or by two when it needs that many. -/
def codePoint (cs : List Char) : Option (Char × List Char) := do
  let (high, rest) ← codeUnit cs
  if high < 0xD800 ∨ 0xE000 ≤ high then return (Char.ofNat high, rest)
  match rest with
  | '\\' :: 'u' :: rest =>
    let (low, rest) ← codeUnit rest
    if high < 0xDC00 ∧ 0xDC00 ≤ low ∧ low < 0xE000 then
      return (Char.ofNat (0x10000 + (high - 0xD800) * 0x400 + (low - 0xDC00)), rest)
    else none
  | _ => none

def plainEscape : Char → Option Char
  | '"' => some '"'
  | '\\' => some '\\'
  | '/' => some '/'
  | 'b' => some '\x08'
  | 'f' => some '\x0c'
  | 'n' => some '\n'
  | 'r' => some '\r'
  | 't' => some '\t'
  | _ => none

def stringChar : List Char → Option (Char × List Char)
  | [] => none
  | '\\' :: 'u' :: rest => codePoint rest
  | '\\' :: c :: rest => (plainEscape c).map fun c => (c, rest)
  | c :: rest => if c = '\\' ∨ c.toNat < 0x20 then none else some (c, rest)

/-- One character of a string that nobody asks for. Half a pair of code units will do. -/
def passChar : List Char → Option (Unit × List Char)
  | '\\' :: 'u' :: rest => (codeUnit rest).map fun (_, rest) => ((), rest)
  | cs => (stringChar cs).map fun (_, rest) => ((), rest)

/-- What `char` reads up to the closing quote. The number bounds the characters. -/
def untilQuote {α : Type} (char : List Char → Option (α × List Char)) :
    Nat → List Char → Option (List α × List Char)
  | 0, _ => none
  | n + 1, cs =>
    match cs with
    | '"' :: rest => some ([], rest)
    | cs => do
      let (a, rest) ← char cs
      let (more, rest) ← untilQuote char n rest
      return (a :: more, rest)

def quoted {α : Type} (char : List Char → Option (α × List Char)) (cs : List Char) :
    Option (List α × List Char) :=
  match cs with
  | '"' :: rest => untilQuote char (rest.length + 1) rest
  | _ => none

def string (cs : List Char) : Option (String × List Char) :=
  (quoted stringChar cs).map fun (s, rest) => (String.ofList s, rest)

def passString (cs : List Char) : Option (Unit × List Char) :=
  (quoted passChar cs).map fun (_, rest) => ((), rest)

end Strings

section Containers

variable {σ κ : Type}

/-- Items up to the closing bracket, at least one. -/
def itemsFrom (item : σ → List Char → Option (σ × List Char)) :
    Nat → σ → List Char → Option (σ × List Char)
  | 0, _, _ => none
  | n + 1, s, cs => do
    let (s, rest) ← item s (skipBlank cs)
    match skipBlank rest with
    | ']' :: rest => return (s, rest)
    | ',' :: rest => itemsFrom item n s rest
    | _ => none

def items (item : σ → List Char → Option (σ × List Char)) (s : σ) (cs : List Char) :
    Option (σ × List Char) :=
  match skipBlank cs with
  | ']' :: rest => some (s, rest)
  | cs => itemsFrom item cs.length s cs

def entry (key : List Char → Option (κ × List Char))
    (value : σ → κ → List Char → Option (σ × List Char)) (s : σ) (cs : List Char) :
    Option (σ × List Char) := do
  let (k, rest) ← key cs
  match skipBlank rest with
  | ':' :: rest => value s k (skipBlank rest)
  | _ => none

/-- Entries up to the closing brace, at least one. -/
def entriesFrom (entry : σ → List Char → Option (σ × List Char)) :
    Nat → σ → List Char → Option (σ × List Char)
  | 0, _, _ => none
  | n + 1, s, cs => do
    let (s, rest) ← entry s (skipBlank cs)
    match skipBlank rest with
    | '}' :: rest => return (s, rest)
    | ',' :: rest => entriesFrom entry n s rest
    | _ => none

def entries (entry : σ → List Char → Option (σ × List Char)) (s : σ) (cs : List Char) :
    Option (σ × List Char) :=
  match skipBlank cs with
  | '}' :: rest => some (s, rest)
  | cs => entriesFrom entry cs.length s cs

end Containers

section Passing

def passDigits (cs : List Char) : Option (List Char) :=
  match cs.span isAsciiDigit with
  | ([], _) => none
  | (_, rest) => some rest

/-- A whole number without a sign or needless zeros. -/
def passWhole : List Char → Option (List Char)
  | '0' :: rest => if rest.head?.any isAsciiDigit then none else some rest
  | cs => passDigits cs

def passFraction : List Char → Option (List Char)
  | '.' :: rest => passDigits rest
  | cs => some cs

def passExponent : List Char → Option (List Char)
  | c :: rest =>
    if c = 'e' ∨ c = 'E' then
      match rest with
      | '+' :: rest | '-' :: rest => passDigits rest
      | rest => passDigits rest
    else some (c :: rest)
  | [] => some []

def passNumber (cs : List Char) : Option (List Char) := do
  let cs := match cs with
    | '-' :: rest => rest
    | cs => cs
  passExponent (← passFraction (← passWhole cs))

def passWord (word : String) (cs : List Char) : Option (List Char) :=
  if word.toList.isPrefixOf cs then some (cs.drop word.length) else none

/-- A value. The number bounds the levels of nesting. -/
def passValue : Nat → List Char → Option (Unit × List Char)
  | 0, _ => none
  | n + 1, cs =>
    let bare (rest : Option (List Char)) := rest.map fun rest => ((), rest)
    match cs with
    | '"' :: _ => passString cs
    | '[' :: rest => items (fun _ cs => passValue n cs) () rest
    | '{' :: rest => entries (entry passString fun _ _ cs => passValue n cs) () rest
    | 't' :: _ => bare (passWord "true" cs)
    | 'f' :: _ => bare (passWord "false" cs)
    | 'n' :: _ => bare (passWord "null" cs)
    | _ => bare (passNumber cs)

def pass (cs : List Char) : Option (List Char) := (passValue (cs.length + 1) cs).map (·.2)

end Passing

def bool (cs : List Char) : Option (Bool × List Char) :=
  match passWord "true" cs with
  | some rest => some (true, rest)
  | none => (passWord "false" cs).map fun rest => (false, rest)

end StackLattice.Document.Reader
