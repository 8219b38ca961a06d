import StackLattice.Proofs.Syntax.Steps

/-!
Reading tokens at a position in the list of them, with a count of the levels that are in use. Calls and turns of loops
are nested to a number; where more would be, there is no outcome. What is begun and what comes of it is noted.
-/

namespace StackLattice.Syntax.Descent

open Program

structure Place where
  position : Nat
  /-- Levels of nesting in use. -/
  depth : Nat
deriving DecidableEq

/-- What has a call of its own. -/
inductive Part
  | field
  | expression
  | importClause
deriving DecidableEq

inductive Event
  | started (part : Part) (start : Place)
  | finished (part : Part) (start stop : Place)
  | failed (part : Part) (start stop : Place) (fault : Located)
  /-- A turn of a loop, and where the loop was entered. -/
  | turned (entry here : Place)

structure State where
  place : Place
  trace : List Event

/-- What is noted where a call comes back. -/
def Event.ofOutcome {α : Type} (part : Part) (start stop : Place) : Except Located α → Event
  | .ok _ => finished part start stop
  | .error fault => failed part start stop fault

/-- At the first token, with no level in use. -/
def State.initial : State := ⟨⟨0, 0⟩, []⟩

abbrev Step := StateT State Option
abbrev Action := Program State

def note (event : Event) : Step Unit := modify fun s => { s with trace := s.trace ++ [event] }

/-- Gives back a level; there is no giving back where none is in use. -/
def ascend : Step Unit := fun s =>
  match s.place.depth with
  | 0 => none
  | depth + 1 => some ((), { s with place := { s.place with depth } })

abbrev called {α : Type} (part : Part) (p : Action α) : Action α := (do
  let start := (← get).place
  note (.started part start)
  let outcome ← p.run
  let stop := (← get).place
  note (.ofOutcome part start stop outcome)
  return outcome : Step (Except Located α))

/-- Reads a chain, and gives back together whatever levels its links have taken. -/
abbrev chained (links : Action Expr) : Action Expr := do
  let entry := (← get).place.depth
  let e ← links
  modify fun s => { s with place := { s.place with depth := entry } }
  return e

section Tokens

variable (tokens : List Token)

/-- The token at a position, or the last one behind them all. -/
def tokenAt (position : Nat) : Action Token := fun s =>
  tokens[min position (tokens.length - 1)]?.map fun token => (.ok token, s)

def current : Action Token := do tokenAt tokens (← get).place.position

def following : Action Token := do tokenAt tokens ((← get).place.position + 1)

def advance : Action Unit := do
  if (← current tokens).kind = .eof then return
  else modify fun s => { s with place := { s.place with position := s.place.position + 1 } }

def fail {α : Type} (fault : Fault) : Action α := do throw ⟨fault, (← current tokens).span⟩

def unexpected {α : Type} (wanted : Expected) : Action α := do
  fail tokens (.unexpected wanted (← current tokens).kind)

def check (kind : TokenKind) : Action Bool := return (← current tokens).kind == kind

def skipCommas : Nat → Action Unit
  | 0 => spent
  | n + 1 => do
    if (← current tokens).kind.isComma then
      advance tokens
      skipCommas n
    else return

def expect (kind : TokenKind) : Action Span := do
  let token ← current tokens
  if token.kind = kind then
    advance tokens
    return token.span
  else unexpected tokens (.closing kind)

def separator (n : Nat) : Action Unit := do
  let kind := (← current tokens).kind
  if kind.isComma then skipCommas tokens n
  else if kind = .eof then return
  else unexpected tokens .separator

def separatorOr (close : TokenKind) (n : Nat) : Action Unit := do
  let kind := (← current tokens).kind
  if kind.isComma then skipCommas tokens n
  else if kind = close then return
  else unexpected tokens (.separatorOr close)

def descend : Action Unit := do
  if nestingLimit ≤ (← get).place.depth then fail tokens .tooDeep
  else modify fun s => { s with place := { s.place with depth := s.place.depth + 1 } }

/-- Reads a level deeper, and gives the level back whatever comes of it. -/
abbrev nested {α : Type} (p : Action α) : Action α := do
  descend tokens
  (do
    let outcome ← p.run
    ascend
    return outcome : Step (Except Located α))

/-- Reads a level deeper, and gives the level back if that succeeds. -/
abbrev borrowed {α : Type} (p : Action α) : Action α := do
  descend tokens
  let a ← p
  ascend
  return a

/-- A turn of a loop that goes on until the stop token, and the turns behind it. -/
abbrev upTo {α : Type} (stop : TokenKind) (entry : Place) (item : Action α) (more : Action (List α)) :
    Action (List α) := do
  if (← current tokens).kind = stop then return []
  else
    note (.turned entry (← get).place)
    let first ← item
    let others ← more
    return first :: others

abbrev bracketed {α : Type} (close : TokenKind) (n : Nat) (element : Action α) : Action α := do
  if (← current tokens).kind = .eof then unexpected tokens (.closing close)
  else
    let e ← element
    separatorOr tokens close n
    return e

def atFieldStart : Action Bool := do
  let first ← current tokens
  let second ← following tokens
  return (match first.kind with
    | .ident _ | .string _ => true
    | _ => false) &&
  (match second.kind with
    | .colon | .doubleColon | .question => true
    | _ => false)

def label : Action Label := do
  let token ← current tokens
  match token.kind with
  | .ident name =>
    if name = "_" then fail tokens .blankLabel
    else
      advance tokens
      return ⟨name, labelKind name, token.span⟩
  | .string name =>
    advance tokens
    return ⟨name, .regular, token.span⟩
  | _ => unexpected tokens .label

/-- The mark of an optional field, if it stands here. -/
def mark : Action Bool := do
  if ← check tokens .question then
    advance tokens
    return true
  else return false

/-- The colon of a field, and the kind that it leaves the label with. -/
def colon (revision : Revision) (kind : LabelKind) : Action LabelKind := do
  match (← current tokens).kind with
  | .colon =>
    advance tokens
    return kind
  | .doubleColon =>
    if revision = .legacy then
      advance tokens
      return .definition
    else fail tokens .doubleColon
  | _ => unexpected tokens .colon

def leaf (e : Expr) : Action Expr := do
  advance tokens
  return e

variable (revision : Revision)

mutual

def declaration : Nat → Action Decl
  | 0 => spent
  | n + 1 => do
    if ← atFieldStart tokens then field n
    else return .embed (← expression n)

def field : Nat → Action Decl
  | 0 => spent
  | n + 1 => called .field (nested tokens (fieldBody n))

def fieldBody : Nat → Action Decl
  | 0 => spent
  | n + 1 => do
    let doc := (← current tokens).doc
    let label ← label tokens
    let optional ← mark tokens
    let kind ← colon tokens revision label.kind
    let value ← fieldValue n
    return .field { label with kind } optional doc (label.span.merge value.span) value

def fieldValue : Nat → Action Expr
  | 0 => spent
  | n + 1 => do
    if ← atFieldStart tokens then
      let inner ← field n
      return .struct [inner] inner.span
    else expression n

def expression : Nat → Action Expr
  | 0 => spent
  | n + 1 => called .expression (nested tokens (disjunction n))

def disjunction : Nat → Action Expr
  | 0 => spent
  | n + 1 => chained do disjunctionTail (← unification n) n

def disjunctionTail (left : Expr) : Nat → Action Expr
  | 0 => spent
  | n + 1 => do
    if ← check tokens .pipe then
      advance tokens
      descend tokens
      let right ← unification n
      disjunctionTail (.binary .disjoin left right) n
    else return left

def unification : Nat → Action Expr
  | 0 => spent
  | n + 1 => chained do unificationTail (← unary n) n

def unificationTail (left : Expr) : Nat → Action Expr
  | 0 => spent
  | n + 1 => do
    if ← check tokens .ampersand then
      advance tokens
      descend tokens
      let right ← unary n
      unificationTail (.binary .unify left right) n
    else return left

def unary : Nat → Action Expr
  | 0 => spent
  | n + 1 => do
    let token ← current tokens
    match token.kind with
    | .minus => operand .negate token.span n
    | .star => operand .mark token.span n
    | _ => selection n

def operand (op : UnaryOp) (start : Span) : Nat → Action Expr
  | 0 => spent
  | n + 1 => do
    advance tokens
    let e ← borrowed tokens (unary n)
    return .unary op e (start.merge e.span)

def selection : Nat → Action Expr
  | 0 => spent
  | n + 1 => chained do selectorTail (← primary n) n

def selectorTail (base : Expr) : Nat → Action Expr
  | 0 => spent
  | n + 1 => do
    if ← check tokens .dot then
      advance tokens
      descend tokens
      let token ← current tokens
      match token.kind with
      | .ident name | .string name =>
        advance tokens
        selectorTail (.select base ⟨name, token.span⟩) n
      | _ => unexpected tokens .selectedName
    else return base

def primary : Nat → Action Expr
  | 0 => spent
  | n + 1 => do
    let token ← current tokens
    let span := token.span
    match token.kind with
    | .null => leaf tokens (.null span)
    | .true => leaf tokens (.bool true span)
    | .false => leaf tokens (.bool false span)
    | .int value => leaf tokens (.int value span)
    | .float value => leaf tokens (.float value span)
    | .string text => leaf tokens (.string text span)
    | .ident name => leaf tokens (.ident ⟨name, span⟩)
    | .leftBrace => struct n
    | .leftBracket => list n
    | .leftParen =>
      advance tokens
      let inner ← expression n
      let stop ← expect tokens .rightParen
      return .paren inner (span.merge stop)
    | .ellipsis => fail tokens .openBody
    | _ => unexpected tokens .expression

def struct : Nat → Action Expr
  | 0 => spent
  | n + 1 => do
    let start ← expect tokens .leftBrace
    skipCommas tokens n
    let decls ← members (← get).place n
    let stop ← expect tokens .rightBrace
    return .struct decls (start.merge stop)

def members (entry : Place) : Nat → Action (List Decl)
  | 0 => spent
  | n + 1 => upTo tokens .rightBrace entry (bracketed tokens .rightBrace n (declaration n)) (members entry n)

def list : Nat → Action Expr
  | 0 => spent
  | n + 1 => do
    let start ← expect tokens .leftBracket
    skipCommas tokens n
    let elements ← elements (← get).place n
    let stop ← expect tokens .rightBracket
    return .list elements (start.merge stop)

def elements (entry : Place) : Nat → Action (List Expr)
  | 0 => spent
  | n + 1 => upTo tokens .rightBracket entry (bracketed tokens .rightBracket n (expression n)) (elements entry n)

end

def localName : Action (Option Ident) := do
  let token ← current tokens
  match token.kind with
  | .ident name =>
    advance tokens
    return some ⟨name, token.span⟩
  | _ => return none

def importClause : Action Import := called .importClause do
  let start := (← current tokens).span
  let localAs ← localName tokens
  let token ← current tokens
  match token.kind with
  | .string path =>
    advance tokens
    return ⟨path, localAs, start.merge token.span⟩
  | _ => unexpected tokens .importPath

def importClauses (entry : Place) : Nat → Action (List Import)
  | 0 => spent
  | n + 1 =>
    upTo tokens .rightParen entry (do
      let clause ← importClause tokens
      separatorOr tokens .rightParen n
      return clause) (importClauses entry n)

def importGroup (n : Nat) : Action (List Import) := do
  if ← check tokens .leftParen then
    advance tokens
    skipCommas tokens n
    let clauses ← importClauses tokens (← get).place n
    advance tokens
    return clauses
  else return [← importClause tokens]

def imports (entry : Place) : Nat → Action (List Import)
  | 0 => spent
  | n + 1 => do
    if ← check tokens .importing then
      note (.turned entry (← get).place)
      advance tokens
      let group ← importGroup tokens n
      separator tokens n
      let others ← imports entry n
      return group ++ others
    else return []

def packageClause (n : Nat) : Action (Option Ident) := do
  if ← check tokens .package then
    advance tokens
    let token ← current tokens
    match token.kind with
    | .ident name =>
      advance tokens
      separator tokens n
      return some ⟨name, token.span⟩
    | _ => unexpected tokens .packageName
  else return none

def declarations (entry : Place) : Nat → Action (List Decl)
  | 0 => spent
  | n + 1 =>
    upTo tokens .eof entry (do
      if ← check tokens .importing then fail tokens .lateImport
      else
        let decl ← declaration tokens revision n
        separator tokens n
        return decl) (declarations entry n)

def file (n : Nat) : Action File := do
  skipCommas tokens n
  let doc := (← current tokens).doc
  let package ← packageClause tokens n
  let imports ← imports tokens (← get).place n
  let decls ← declarations tokens revision (← get).place n
  return ⟨package, imports, decls, doc, []⟩

end Tokens

end StackLattice.Syntax.Descent
