import StackLattice.Decimal.Layout
import StackLattice.Source.Span
import StackLattice.Text.Quoted

/-!
Tokens of the configuration language.
-/

namespace StackLattice.Syntax

open Decimal (Binary64)

/-- A `//` comment: its text without the slashes, one leading space and trailing blanks, and the
    span of the whole comment. -/
structure Comment where
  text : String
  span : Span
deriving DecidableEq, Repr

inductive TokenKind
  | ident (name : String)
  | string (value : String)
  | int (value : Nat)
  | float (value : Binary64)
  | null
  | true
  | false
  | package
  | importing
  | leftBrace
  | rightBrace
  | leftBracket
  | rightBracket
  | leftParen
  | rightParen
  | colon
  | doubleColon
  /-- A comma, written or inserted at a line break that ends a declaration. -/
  | comma (inserted : Bool)
  | dot
  | ellipsis
  | ampersand
  | pipe
  | star
  | minus
  | question
  | eof
deriving DecidableEq, Repr

namespace TokenKind

/-- Whether a line break after the token ends a declaration. -/
def endsLine : TokenKind → Bool
  | ident _ | string _ | int _ | float _ | null | true | false => Bool.true
  | rightBrace | rightBracket | rightParen => Bool.true
  | _ => Bool.false

def isComma : TokenKind → Bool
  | comma _ => Bool.true
  | _ => Bool.false

/-- The token as messages name it. -/
def describe : TokenKind → String
  | ident name => "identifier " ++ name
  | string value => "string " ++ Text.shown value
  | int value => toString value
  | float value => Decimal.Layout.token.render value
  | null => "null"
  | true => "true"
  | false => "false"
  | package => "package"
  | importing => "import"
  | leftBrace => "'\x7b'"
  | rightBrace => "'\x7d'"
  | leftBracket => "'['"
  | rightBracket => "']'"
  | leftParen => "'('"
  | rightParen => "')'"
  | colon => "':'"
  | doubleColon => "'::'"
  | comma inserted => if inserted then "newline" else "','"
  | dot => "'.'"
  | ellipsis => "'...'"
  | ampersand => "'&'"
  | pipe => "'|'"
  | star => "'*'"
  | minus => "'-'"
  | question => "'?'"
  | eof => "end of file"

end TokenKind

/-- A token, where it stands and the comments on lines of their own directly above it. -/
structure Token where
  kind : TokenKind
  span : Span
  doc : List Comment := []
deriving DecidableEq, Repr

end StackLattice.Syntax
