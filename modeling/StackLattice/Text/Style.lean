/-!
Text in colour, for terminals that take escape codes.
-/

namespace StackLattice.Text

inductive Style
  | red
  | magenta
  | cyan
  | brightBlue
deriving DecidableEq, Repr

namespace Style

def code : Style → List Char
  | red => "31".toList
  | magenta => "35".toList
  | cyan => "36".toList
  | brightBlue => "94".toList

def start (s : Style) : List Char := '\x1b' :: '[' :: s.code ++ ['m']

def reset : List Char := "\x1b[0m".toList

/-- Takes the style up again behind every reset in a text. -/
def resume (s : Style) : List Char → List Char
  | '\x1b' :: '[' :: '0' :: 'm' :: cs => reset ++ s.start ++ resume s cs
  | c :: cs => c :: resume s cs
  | [] => []

def apply (s : Style) (text : String) : String :=
  String.ofList (s.start ++ s.resume text.toList ++ reset)

/-- Applies a style where colours are wanted. -/
def applyIf (colored : Bool) (s : Style) (text : String) : String :=
  if colored then s.apply text else text

end Style

end StackLattice.Text
