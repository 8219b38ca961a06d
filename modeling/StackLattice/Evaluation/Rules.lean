import StackLattice.Evaluation.Export
import StackLattice.Evaluation.Scope

/-!
The rules of evaluation, in terms of what evaluates the parts of a task and the fields it refers to.
How deep that may go, and whether fields are remembered, is decided where the rules are used.
-/

namespace StackLattice.Evaluation

open Syntax (Expr Ident UnaryOp BinaryOp)

/-- A label of a scope. -/
abbrev FieldKey := ScopeId × String

structure State where
  scopes : Scopes
  /-- Fields that have been evaluated, latest first. -/
  cache : List (FieldKey × Except EvalError Value) := []
  /-- Fields that are being evaluated, innermost first. -/
  active : List FieldKey := []
  /-- How many tasks are being evaluated, each as a part of the one before. -/
  depth : Nat := 0

/-- Evaluation keeps its state also when it fails. -/
abbrev Eval (α : Type) := ExceptT EvalError (StateM State) α

/-- Where an expression is evaluated: the scope its names are looked up in, its file, and the path of
    the field whose value it is part of. -/
structure Place where
  scope : ScopeId
  file : Nat
  path : String

inductive Task
  | body (id : ScopeId)
  | expr (e : Expr) (place : Place)

/-- What the rules call on: evaluation of a part, and of a field that is referred to. -/
structure Parts where
  task : Task → Eval Value
  field : ScopeId → String → Eval Value

/-- The scope, path and position at which a task fails for want of levels. -/
def Task.tooDeep (scopes : Scopes) : Task → EvalError
  | body id => ⟨(scopes.node id).path, .tooDeep, none⟩
  | expr e place => ⟨place.path, .tooDeep, scopes.position? place.file e.span⟩

def fail {α : Type} (place : Place) (problem : Problem) (span : Span) : Eval α := do
  throw ⟨place.path, problem, (← get).scopes.position? place.file span⟩

/-- Unifies in the field at a path; a conflict without a position is placed at the fallback. -/
def unifyAt (path : String) (fallback : Option Position) (a b : Value) : Eval Value :=
  match a.unify b with
  | .ok value => pure value
  | .error c => throw (.ofConflict path fallback c)

/-- What `-` makes of a value. -/
def negate : Value → Option Value
  | .int n => if n = -0x8000000000000000 then none else some (.int (-n))
  | .float x => some (.float x.neg)
  | .kind k => if k = .int ∨ k = .float ∨ k = .number then some (.kind k) else none
  | _ => none

/-- The operands of a chain of disjunctions, from left to right. -/
def operands : Expr → List Expr
  | .binary .disjoin left right => operands left ++ operands right
  | e => [e]

/-- The field that an expression refers to, when it can be found without evaluating the value around
    it: selectors follow declared bodies only, not labels that have other conjuncts or embeddings. -/
def reference? (scopes : Scopes) (scope : ScopeId) : Expr → Option FieldKey
  | .ident name => (scopes.lookup scope name.name).map fun id => (id, name.name)
  | .paren inner _ => reference? scopes scope inner
  | .select base field => do
    let (id, label) ← reference? scopes scope base
    let entry ← scopes.entryOf? id label
    let inner ← entry.inner
    let body := scopes.node inner
    if entry.conjuncts.isEmpty && body.embeds.isEmpty && (body.entryOf? field.name).isSome then
      some (inner, field.name)
    else none
  | _ => none

def select (place : Place) (field : Ident) (base : Value) : Eval Value :=
  match base with
  | .struct fields =>
    match Field.find? fields field.name with
    | some f => pure f.value
    | none => fail place (.selectMissing field.name) field.span
  | .disjunction alternatives =>
    match _h : (Value.disjunction alternatives).resolved with
    | some value => select place field value
    | none => fail place (.selectFromAmbiguous base field.name) field.span
  | .top | .kind _ => fail place (.selectFromIncomplete base field.name) field.span
  | _ => fail place (.selectFromScalar base field.name) field.span
termination_by sizeOf base
decreasing_by exact Value.sizeOf_resolved_lt _h

section Fields

variable (task : Task → Eval Value)

/-- Unifies the conjuncts of a field, in the order they were declared. -/
def conjoinAll (path : String) (position : Position) : List Conjunct → Value → Eval Value
  | [], value => return value
  | conjunct :: conjuncts, value => do
    let next ← task (.expr conjunct.expr ⟨conjunct.scope, conjunct.file, path⟩)
    conjoinAll path position conjuncts (← unifyAt path (some position) value next)

def fieldValue (id : ScopeId) (label : String) : Eval Value := do
  let scopes := (← get).scopes
  let path := joinPath (scopes.node id).path label
  match scopes.entryOf? id label with
  | none => throw ⟨path, .undeclared, none⟩
  | some entry =>
    let value ← conjoinAll task path entry.position entry.conjuncts .top
    match entry.inner with
    | none => return value
    | some inner => unifyAt path (some entry.position) value (← task (.body inner))

end Fields

section Expressions

variable (parts : Parts)

def nameValue (place : Place) (name : Ident) : Eval Value := do
  let scopes := (← get).scopes
  match scopes.lookup place.scope name.name with
  | some id => parts.field id name.name
  | none =>
    match scopes.import? place.file name.name with
    | some i => fail place (.imported i.path) name.span
    | none =>
      if name.name = "_" then return .top
      match Kind.ofName? name.name with
      | some k => return .kind k
      | none => fail place (.unknownName name.name) name.span

/-- The marks and operands of a disjunction, evaluated in turn. Operands in conflict drop out, the
    first conflict being kept; any other error ends the evaluation. -/
def alternatives (place : Place) :
    List Expr → Eval (List (Alternative Value) × Option EvalError)
  | [] => return ([], none)
  | operand :: operands => do
    let (marked, e) := match operand with
      | .unary .mark inner _ => (true, inner)
      | e => (false, e)
    let result ← (try
        let value ← parts.task (.expr e place)
        return .ok value
      catch err => if err.kind = .conflict then return .error err else throw err :
        Eval (Except EvalError Value))
    let (others, conflict) ← alternatives place operands
    match result with
    | .ok value => return (⟨value, marked⟩ :: others, conflict)
    | .error err => return (others, some err)

def disjunctionValue (place : Place) (e : Expr) : Eval Value := do
  let (found, conflict) ← alternatives parts place (operands e)
  match found, conflict with
  | [], some err => throw err
  | _, _ => return .disjoin found

def exprValue (place : Place) (e : Expr) : Eval Value := do
  let value (part : Expr) : Eval Value := parts.task (.expr part place)
  match e with
  | .null _ => return .null
  | .bool b _ => return .bool b
  | .int n _ => return .int n
  | .float x _ => return .float x
  | .string s _ => return .string s
  | .paren inner _ => value inner
  | .ident name => nameValue parts place name
  | .select base field =>
    match reference? (← get).scopes place.scope e with
    | some (id, label) => parts.field id label
    | none => select place field (← value base)
  | .struct decls _ => do
    let (id, scopes) := (← get).scopes.addStruct place.scope place.path place.file decls
    modify fun s => { s with scopes }
    parts.task (.body id)
  | .list items _ => return .list (← items.mapM value)
  | .unary .negate operand span => do
    let v ← value operand
    match negate v with
    | some result => return result
    | none => fail place (.operand v) span
  | .unary .mark operand _ => value operand
  | .binary .unify left right => do
    let a ← value left
    let b ← value right
    unifyAt place.path ((← get).scopes.position? place.file e.span) a b
  | .binary .disjoin _ _ => disjunctionValue parts place e

/-- Fields of a body in the order of their declaration. -/
def bodyFields (id : ScopeId) : List Entry → Eval (List (Field Value))
  | [] => return []
  | entry :: entries => do
    let value ← parts.field id entry.label
    let field : Field Value :=
      { label := entry.label, kind := entry.kind, optional := entry.optional,
        position := some entry.position, value }
    return field :: (← bodyFields id entries)

/-- Unifies the embeddings of a body into it, one after the other. -/
def embedAll (path : String) : List Conjunct → Value → Eval Value
  | [], value => return value
  | embed :: embeds, value => do
    let embedded ← parts.task (.expr embed.expr ⟨embed.scope, embed.file, path⟩)
    let fallback := (← get).scopes.position? embed.file embed.expr.span
    embedAll path embeds (← unifyAt path fallback value embedded)

/-- A body that holds embeddings only is what they are; any other body is a struct. -/
def bodyValue (id : ScopeId) : Eval Value := do
  let scope := (← get).scopes.node id
  let fields ← bodyFields parts id scope.entries
  let start := if scope.embeds.isEmpty || !fields.isEmpty then Value.struct fields else .top
  embedAll parts scope.path scope.embeds start

def perform : Task → Eval Value
  | .body id => bodyValue parts id
  | .expr e place => exprValue parts place e

end Expressions

end StackLattice.Evaluation
