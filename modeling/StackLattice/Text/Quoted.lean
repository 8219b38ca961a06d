import StackLattice.Text.Property

/-!
Two ways of putting text between quotes: `shown`, used in messages, escapes whatever a reader could
not see; `literal`, used in documents, escapes only what the document format requires.
-/

namespace StackLattice.Text

/-- Lower-case hexadecimal digits, without leading zeros. -/
def hexDigits (n : Nat) : List Char := Nat.toDigits 16 n

/-- A character as it stands between `quote`s in a message. -/
def escapeShown (quote c : Char) : List Char :=
  if c = '\x00' then ['\\', '0']
  else if c = '\t' then ['\\', 't']
  else if c = '\r' then ['\\', 'r']
  else if c = '\n' then ['\\', 'n']
  else if c = '\\' || c = quote then ['\\', c]
  else if extendsGrapheme c || !isPrintable c then
    ['\\', 'u', '{'] ++ hexDigits c.toNat ++ ['}']
  else [c]

/-- Text between double quotes, as messages show it. -/
def shown (s : String) : String :=
  String.ofList ('"' :: s.toList.flatMap (escapeShown '"') ++ ['"'])

/-- A character between single quotes, as messages show it. -/
def shownChar (c : Char) : String :=
  String.ofList ('\'' :: escapeShown '\'' c ++ ['\''])

/-- A character inside a document's string: quotes, backslashes and controls are escaped. -/
def escapeLiteral (c : Char) : List Char :=
  if c = '"' then ['\\', '"']
  else if c = '\\' then ['\\', '\\']
  else if c = '\x08' then ['\\', 'b']
  else if c = '\x0c' then ['\\', 'f']
  else if c = '\n' then ['\\', 'n']
  else if c = '\r' then ['\\', 'r']
  else if c = '\t' then ['\\', 't']
  else if c.toNat < 0x20 then
    ['\\', 'u', '0', '0', Nat.digitChar (c.toNat / 16), Nat.digitChar (c.toNat % 16)]
  else [c]

/-- Text as a string of a document. -/
def literal (s : String) : String :=
  String.ofList ('"' :: s.toList.flatMap escapeLiteral ++ ['"'])

end StackLattice.Text
