import StackLattice.Source.Position
import StackLattice.Syntax.Token

/-!
What can be wrong with a text, and how it is worded.
-/

namespace StackLattice.Syntax

/-- Levels of nesting that a text may use; operators of a chain count one each. -/
def nestingLimit : Nat := 256

/-- What should have stood in the place of a token. -/
inductive Expected
  | packageName
  | separator
  | importPath
  | colon
  | label
  | selectedName
  | expression
  | closing (close : TokenKind)
  /-- A comma or the closing token of the list. -/
  | separatorOr (close : TokenKind)
deriving DecidableEq, Repr

def Expected.describe : Expected → String
  | packageName => "package name"
  | separator => "',' or newline"
  | importPath => "import path"
  | colon => "':'"
  | label => "label"
  | selectedName => "field name after '.'"
  | expression => "expression"
  | closing close => close.describe
  | separatorOr close => "',' or " ++ close.describe

inductive Fault
  | unexpectedCharacter (c : Char)
  | unterminatedString
  | textAfterQuotes
  | unindentedLine
  | unterminatedEscape
  | interpolation
  | badUnicodeEscape
  | unknownEscape (c : Char)
  | floatRange
  | integerRange
  | bareHash
  | unexpected (wanted : Expected) (found : TokenKind)
  | lateImport
  | doubleColon
  | blankLabel
  | openBody
  | tooDeep
deriving DecidableEq, Repr

def Fault.message : Fault → String
  | unexpectedCharacter c => "unexpected character " ++ Text.shownChar c
  | unterminatedString => "string literal not terminated"
  | textAfterQuotes => "expected newline after multiline quote \"\"\""
  | unindentedLine => "invalid whitespace in multiline string"
  | unterminatedEscape => "unterminated escape sequence"
  | interpolation => "string interpolation is not supported"
  | badUnicodeEscape => "invalid unicode escape"
  | unknownEscape c => "unknown escape sequence \\" ++ String.singleton c
  | floatRange => "invalid float literal"
  | integerRange => "integer literal out of range"
  | bareHash => "expected identifier after '#'"
  | unexpected wanted found => "expected " ++ wanted.describe ++ ", found " ++ found.describe
  | lateImport => "imports must appear before other declarations"
  | doubleColon => "'::' definitions are not supported in this revision; use #Label"
  | blankLabel => "'_' cannot be used as a label"
  | openBody => "open structs and lists ('...') are not supported"
  | tooDeep => "nesting too deep (more than " ++ toString nestingLimit ++ " levels)"

/-- A fault and the span it was found at. -/
structure Located where
  fault : Fault
  span : Span
deriving DecidableEq, Repr

/-- A fault of a source text, with the place people look for it at. -/
structure SyntaxError where
  fault : Fault
  position : Position
deriving DecidableEq, Repr

def SyntaxError.message (e : SyntaxError) : String := e.fault.message

def Located.within (e : Located) (source : SourceText) : SyntaxError :=
  ⟨e.fault, source.position e.span⟩

end StackLattice.Syntax
