import StackLattice.Syntax.Scanner
import StackLattice.Syntax.Tree

/-!
From tokens to trees. From loosest to tightest an expression is a disjunction, a unification, a
marked or negated operand, a selection, a primary. Whatever nests, and each further operator of a
chain, uses up one level of nesting; what can be read at a level is written in terms of the level
below it, so reading ends when the levels do.
-/

namespace StackLattice.Syntax

/-- Which spellings of a definition a file may use. -/
inductive Revision
  /-- Also `Label :: value`. -/
  | legacy
  /-- `#Label` only. -/
  | current
deriving DecidableEq, Repr

/-- The tokens that are left, and the one that ends them. -/
structure Cursor where
  rest : List Token
  finish : Token

namespace Cursor

def current (c : Cursor) : Token := c.rest.head?.getD c.finish

def following (c : Cursor) : Token := c.rest.tail.head?.getD c.finish

def advance (c : Cursor) : Cursor := { c with rest := c.rest.tail }

/-- Splits the end off a list of tokens. -/
def ofTokens (tokens : List Token) : Cursor :=
  ⟨tokens.dropLast, tokens.getLast?.getD ⟨.eof, .point 0, []⟩⟩

end Cursor

abbrev Parse := StateT Cursor (Except Located)

namespace Parse

def current : Parse Token := return (← get).current

def advance : Parse Unit := modify Cursor.advance

def fail {α : Type} (fault : Fault) : Parse α := do throw ⟨fault, (← current).span⟩

def unexpected {α : Type} (wanted : Expected) : Parse α := do
  fail (.unexpected wanted (← current).kind)

def check (kind : TokenKind) : Parse Bool := return (← current).kind == kind

def skipCommas : Parse Unit :=
  modify fun c => { c with rest := c.rest.dropWhile (·.kind.isComma) }

/-- Takes a token of the given kind, which is also what the message asks for. -/
def expect (kind : TokenKind) : Parse Span := do
  let token ← current
  if token.kind = kind then
    advance
    return token.span
  else unexpected (.closing kind)

/-- Behind a declaration of the file: commas, or the end. -/
def separator : Parse Unit := do
  let kind := (← current).kind
  if kind.isComma then skipCommas
  else if kind = .eof then return
  else unexpected .separator

/-- Behind an element in brackets: commas, or the closing token. -/
def separatorOr (close : TokenKind) : Parse Unit := do
  let kind := (← current).kind
  if kind.isComma then skipCommas
  else if kind = close then return
  else unexpected (.separatorOr close)

/-- Reads items up to the stop token, which is left. An item takes at least one token, so that the
    count of tokens bounds the number of items. -/
def itemsUpTo {α : Type} (stop : TokenKind) (item : Parse α) : Nat → Parse (List α)
  | 0 => unexpected (.closing stop)
  | n + 1 => do
    if (← current).kind = stop then return []
    let first ← item
    let others ← itemsUpTo stop item n
    return first :: others

def items {α : Type} (stop : TokenKind) (item : Parse α) : Parse (List α) := do
  itemsUpTo stop item ((← get).rest.length + 1)

/-- Elements between brackets, from behind the opening one; the closing one is taken too. -/
def enclosed {α : Type} (close : TokenKind) (element : Parse α) : Parse (List α × Span) := do
  skipCommas
  let elements ← items close do
    if (← current).kind = .eof then unexpected (.closing close)
    let e ← element
    separatorOr close
    return e
  let stop ← expect close
  return (elements, stop)

end Parse

open Parse

/-- A label followed by `:`, `::` or `?`. -/
def atFieldStart (c : Cursor) : Bool :=
  (match c.current.kind with
    | .ident _ | .string _ => true
    | _ => false) &&
  (match c.following.kind with
    | .colon | .doubleColon | .question => true
    | _ => false)

def labelKind (name : String) : LabelKind :=
  match name.toList with
  | '#' :: _ => .definition
  | '_' :: _ => .hidden
  | _ => .regular

def label : Parse Label := do
  let token ← current
  match token.kind with
  | .ident name =>
    if name = "_" then fail .blankLabel
    advance
    return ⟨name, labelKind name, token.span⟩
  | .string name =>
    advance
    return ⟨name, .regular, token.span⟩
  | _ => unexpected .label

structure Level where
  disjunction : Parse Expr
  disjunctionTail : Expr → Parse Expr
  unificationTail : Expr → Parse Expr
  unification : Parse Expr
  unary : Parse Expr
  selectorTail : Expr → Parse Expr
  field : Parse Decl

namespace Rule

/-- Reads at the level below, if there is one. -/
def descend {α : Type} (lower : Option Level) (read : Level → Parse α) : Parse α :=
  match lower with
  | some level => read level
  | none => fail .tooDeep

variable (revision : Revision) (lower : Option Level)

def expression : Parse Expr := descend lower (·.disjunction)

def declaration : Parse Decl := do
  if atFieldStart (← get) then descend lower (·.field)
  else return .embed (← expression lower)

def primary : Parse Expr := do
  let token ← current
  let span := token.span
  let leaf (e : Expr) : Parse Expr := do
    advance
    return e
  match token.kind with
  | .null => leaf (.null span)
  | .true => leaf (.bool true span)
  | .false => leaf (.bool false span)
  | .int n => leaf (.int n span)
  | .float x => leaf (.float x span)
  | .string s => leaf (.string s span)
  | .ident name => leaf (.ident ⟨name, span⟩)
  | .leftBrace =>
    advance
    let (decls, stop) ← enclosed .rightBrace (declaration lower)
    return .struct decls (span.merge stop)
  | .leftBracket =>
    advance
    let (elements, stop) ← enclosed .rightBracket (expression lower)
    return .list elements (span.merge stop)
  | .leftParen =>
    advance
    let inner ← expression lower
    let stop ← expect .rightParen
    return .paren inner (span.merge stop)
  | .ellipsis => fail .openBody
  | _ => unexpected .expression

/-- `.name` as often as it follows. -/
def selectorTail (base : Expr) : Parse Expr := do
  if ← check .dot then
    advance
    descend lower fun level => do
      let token ← current
      match token.kind with
      | .ident name | .string name =>
        advance
        level.selectorTail (.select base ⟨name, token.span⟩)
      | _ => unexpected .selectedName
  else return base

def selection : Parse Expr := do selectorTail lower (← primary lower)

def unary : Parse Expr := do
  let token ← current
  let operator (op : UnaryOp) : Parse Expr := do
    advance
    descend lower fun level => do
      let operand ← level.unary
      return .unary op operand (token.span.merge operand.span)
  match token.kind with
  | .minus => operator .negate
  | .star => operator .mark
  | _ => selection lower

/-- `& operand` as often as it follows. -/
def unificationTail (left : Expr) : Parse Expr := do
  if ← check .ampersand then
    advance
    descend lower fun level => do level.unificationTail (.binary .unify left (← level.unary))
  else return left

def unification : Parse Expr := do unificationTail lower (← unary lower)

/-- `| unification` as often as it follows. -/
def disjunctionTail (left : Expr) : Parse Expr := do
  if ← check .pipe then
    advance
    descend lower fun level => do
      level.disjunctionTail (.binary .disjoin left (← level.unification))
  else return left

def disjunction : Parse Expr := do disjunctionTail lower (← unification lower)

/-- A field. `a: b: c` is short for `a: {b: c}`, the implied braces having the span of the inner
    field. -/
def field : Parse Decl := do
  let doc := (← current).doc
  let label ← label
  let optional ← check .question
  if optional then advance
  let kind ← (do
    match (← current).kind with
    | .colon =>
      advance
      return label.kind
    | .doubleColon =>
      if revision = .legacy then
        advance
        return .definition
      else fail .doubleColon
    | _ => unexpected .colon : Parse LabelKind)
  let value ← (do
    if atFieldStart (← get) then
      let inner ← descend lower (·.field)
      return .struct [inner] inner.span
    else expression lower : Parse Expr)
  return .field { label with kind } optional doc (label.span.merge value.span) value

end Rule

/-- The level directly above a given one, or the deepest one. -/
def Level.above (revision : Revision) (lower : Option Level) : Level where
  disjunction := Rule.disjunction lower
  disjunctionTail := Rule.disjunctionTail lower
  unificationTail := Rule.unificationTail lower
  unification := Rule.unification lower
  unary := Rule.unary lower
  selectorTail := Rule.selectorTail lower
  field := Rule.field revision lower

/-- The level with `n` levels below it. -/
def Level.ofHeight (revision : Revision) : Nat → Level
  | 0 => .above revision none
  | n + 1 => .above revision (some (ofHeight revision n))

def importClause : Parse Import := do
  let start := (← current).span
  let localAs : Option Ident ← (do
    match (← current).kind with
    | .ident name =>
      advance
      return some ⟨name, start⟩
    | _ => return none : Parse (Option Ident))
  let token ← current
  match token.kind with
  | .string path =>
    advance
    return ⟨path, localAs, start.merge token.span⟩
  | _ => unexpected .importPath

/-- What follows `import`: one clause, or a group of them. -/
def importGroup : Parse (List Import) := do
  if ← check .leftParen then
    advance
    skipCommas
    let clauses ← items .rightParen do
      let clause ← importClause
      separatorOr .rightParen
      return clause
    advance
    return clauses
  else return [← importClause]

/-- Imports as long as the word `import` follows; each takes at least one token. -/
def imports : Nat → Parse (List Import)
  | 0 => unexpected .separator
  | n + 1 => do
    if ← check .importing then
      advance
      let group ← importGroup
      separator
      return group ++ (← imports n)
    else return []

def packageClause : Parse (Option Ident) := do
  if ← check .package then
    advance
    let token ← current
    match token.kind with
    | .ident name =>
      advance
      separator
      return some ⟨name, token.span⟩
    | _ => unexpected .packageName
  else return none

/-- A whole file. Its comments are the scanner's to give. -/
def file (revision : Revision) : Parse File := do
  skipCommas
  let doc := (← current).doc
  let package ← packageClause
  let imports ← imports ((← get).rest.length + 1)
  let top := some (Level.ofHeight revision (nestingLimit - 1))
  let decls ← items .eof do
    if ← check .importing then fail .lateImport
    let decl ← Rule.declaration top
    separator
    return decl
  return ⟨package, imports, decls, doc, []⟩

def File.ofSource (source : SourceText) (revision : Revision) (keepComments : Bool) :
    Except SyntaxError File :=
  let (read, scanner) := (Scanner.ofString source.text keepComments).tokens
  match read.bind fun tokens => (file revision).run (Cursor.ofTokens tokens) with
  | .ok (tree, _) => .ok { tree with comments := scanner.comments }
  | .error e => .error (e.within source)

def ParsedFile.read (path text : String) (revision : Revision) (keepComments : Bool) :
    Except SyntaxError ParsedFile := do
  let source : SourceText := ⟨path, text⟩
  return ⟨source, ← File.ofSource source revision keepComments⟩

/-- The first token that is no comma, and the scanner behind it. -/
def skipToToken : Nat → Scanner → Option (Token × Scanner)
  | 0, _ => none
  | n + 1, s =>
    match s.next with
    | (.ok token, t) => if token.kind.isComma then skipToToken n t else some (token, t)
    | (.error _, _) => none

/-- Reads the package clause alone; whatever follows it may be faulty. -/
def packageName (text : String) : Option String := do
  let (first, s) ← skipToToken (text.length + 1) (.ofString text false)
  if first.kind ≠ .package then none
  match s.next with
  | (.ok ⟨.ident name, _, _⟩, _) => some name
  | _ => none

end StackLattice.Syntax
