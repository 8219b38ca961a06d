import StackLattice.Text.Quoted

/-!
Why a text is no pattern.
-/

namespace StackLattice.Pattern

inductive Fault
  | openGroup
  | strayClose
  | openClass
  | openEscape
  | openCount
  | openBoundary
  | nothingToRepeat
  | count
  | countOrder
  | lookAround
  | backReference
  | groupName
  | repeatedName (name : String)
  | openFlags
  | unknownFlag (c : Char)
  | repeatedFlag (c : Char)
  | emptyFlags
  | danglingNegation
  | unknownEscape (c : Char)
  | unknownBoundary (name : String)
  | codePoint
  | unknownSet (name : String)
  | rangeOrder (first last : Char)
  | rangeEnd
  | escapeInClass
  /-- The pattern could match a part of a character. -/
  | splitsCharacters
  | tooDeep
  | tooLarge
deriving DecidableEq, Repr

def Fault.message : Fault → String
  | openGroup => "unclosed group"
  | strayClose => "unopened group"
  | openClass => "unclosed character class"
  | openEscape => "incomplete escape sequence"
  | openCount => "unclosed counted repetition"
  | openBoundary => "unclosed word boundary"
  | nothingToRepeat => "repetition operator missing expression"
  | count => "invalid repetition count"
  | countOrder => "repetition range out of order"
  | lookAround => "look-around is not supported"
  | backReference => "backreferences are not supported"
  | groupName => "invalid group name"
  | repeatedName name => "duplicate group name " ++ Text.shown name
  | openFlags => "expected flag but got end of pattern"
  | unknownFlag c => "unrecognized flag " ++ Text.shownChar c
  | repeatedFlag c => "duplicate flag " ++ Text.shownChar c
  | emptyFlags => "no flags"
  | danglingNegation => "dangling flag negation operator"
  | unknownEscape c => "unrecognized escape sequence " ++ Text.shownChar c
  | unknownBoundary name => "unrecognized word boundary " ++ Text.shown name
  | codePoint => "invalid code point"
  | unknownSet name => "unknown set of characters " ++ Text.shown name
  | rangeOrder first last =>
    "range out of order: " ++ Text.shownChar first ++ " to " ++ Text.shownChar last
  | rangeEnd => "a range must be between characters"
  | escapeInClass => "invalid escape sequence in character class"
  | splitsCharacters => "pattern can match parts of characters"
  | tooDeep => "nested too deep"
  | tooLarge => "pattern too large"

end StackLattice.Pattern
