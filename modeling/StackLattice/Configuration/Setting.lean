import StackLattice.Toml.Reader

/-!
Values of settings: what a file says, and how the text of a variable is read. The text of a variable is taken
as it is unless all of it is written like another value.
-/

namespace StackLattice

inductive Setting
  | bool (b : Bool)
  | integer (n : Int)
  | float (x : Decimal.Binary64)
  | text (s : String)
  /-- Nothing is kept of lists and tables, since no setting is one. -/
  | list
  | table
deriving DecidableEq, Repr

namespace Setting

def ofItem : Toml.Item → Setting
  | .bool b => bool b
  | .integer n => integer n
  | .float x => float x
  | .string s => text s
  | .list _ | .tables _ => list
  | .moment | .table _ _ => table

section Literals

def isSpace (c : Char) : Bool := c == ' ' || c == '\t' || c == '\n' || c == '\x0c' || c == '\r'

def isMark (c : Char) : Bool := c == ',' || c == '{' || c == '}' || c == '[' || c == ']'

def skipSpace (cs : List Char) : List Char := cs.dropWhile isSpace

/-- A whole number of 64 bits with a sign or without one; a number with a point; or else text. -/
def ofWord (cs : List Char) : Setting :=
  let cs := Text.trim cs
  match if cs.contains '.' then Decimal.readFloat cs else none with
  | some x => float x
  | none =>
    match Decimal.naturalBelow 10 (1 <<< 64) cs with
    | some n => integer n
    | none =>
      match Decimal.integerWithin 10 (1 <<< 63) cs with
      | some n => integer n
      | none => text (String.ofList cs)

/-- What `element` passes over, between commas and up to a closing mark. A comma may stand behind the last
    element. The number bounds the elements. -/
def passAll (closing : Char) (element : List Char → Option (List Char)) :
    Nat → List Char → Option (List Char)
  | 0, _ => none
  | n + 1, cs =>
    match Toml.mark? closing cs with
    | some rest => some rest
    | none => do
      let rest ← element cs
      match Toml.mark? ',' rest with
      | some rest => passAll closing element n rest
      | none => Toml.mark? closing rest

def passEntry (value : List Char → Option (List Char)) (cs : List Char) : Option (List Char) := do
  let rest ← match skipSpace cs with
    | '"' :: rest => (Toml.basic rest).map (·.2)
    | cs =>
      match cs.span Toml.isBareKey with
      | ([], _) => none
      | (_, rest) => some rest
  value (← Toml.mark? '=' (skipSpace rest))

/-- A value with blanks around it. The number bounds the levels of nesting. -/
def literal : Nat → List Char → Option (Setting × List Char)
  | levels, cs => do
    let cs := skipSpace cs
    let (s, rest) ←
      match Toml.passWord "true" cs, Toml.passWord "false" cs with
      | some rest, _ => some (bool true, rest)
      | none, some rest => some (bool false, rest)
      | none, none =>
        match cs with
        | '{' :: rest =>
          match levels with
          | 0 => none
          | n + 1 =>
            (passAll '}' (passEntry fun cs => (literal n cs).map (·.2)) cs.length rest).map
              fun rest => (table, rest)
        | '[' :: rest =>
          match levels with
          | 0 => none
          | n + 1 =>
            (passAll ']' (fun cs => (literal n cs).map (·.2)) cs.length rest).map
              fun rest => (list, rest)
        | '"' :: rest => (Toml.basic rest).map fun (s, rest) => (text s, rest)
        | '\'' :: c :: '\'' :: rest => some (text c.toString, rest)
        | '\'' :: _ => none
        | cs =>
          let (word, rest) := cs.span (!isMark ·)
          some (ofWord word, rest)
    return (s, skipSpace rest)

end Literals

def ofText (s : String) : Setting :=
  let cs := s.toList
  match literal cs.length cs with
  | some (setting, []) => setting
  | _ => text s

end Setting

end StackLattice
