import StackLattice.Evaluation.Rules

/-!
The rules of evaluation over closures. An expression is evaluated together with the bodies around it,
which are lists of what is declared in them and not nodes of a table that grows; nothing is remembered,
and an evaluation of too little fuel has no result.
-/

namespace StackLattice.Evaluation

open Syntax (Expr Decl Label LabelKind Ident ParsedFile)

/-- The labels that lead to a body inside a block, innermost first. -/
abbrev Trail := List String

/-- What one declaration says of the body it stands in. -/
inductive Mention
  | label (l : Label) (optional : Bool) (file : ParsedFile)
  | conjunct (label : String) (expr : Expr) (file : ParsedFile)
  /-- A struct literal for a label; its declarations are mentions of the body of the label. -/
  | literal (label : String)
  | embed (expr : Expr) (file : ParsedFile)

mutual

def declsMentions (trail : Trail) (file : ParsedFile) : List Decl → List (Trail × Mention)
  | [] => []
  | decl :: decls => declMentions trail file decl ++ declsMentions trail file decls

def declMentions (trail : Trail) (file : ParsedFile) : Decl → List (Trail × Mention)
  | .field label optional _ _ value =>
    (trail, .label label optional file) :: valueMentions trail label.name file value
  | .embed value => embedMentions trail file value

def valueMentions (trail : Trail) (label : String) (file : ParsedFile) : Expr → List (Trail × Mention)
  | .binary .unify left right =>
    valueMentions trail label file left ++ valueMentions trail label file right
  | .paren inner _ => valueMentions trail label file inner
  | .struct decls _ => (trail, .literal label) :: declsMentions (label :: trail) file decls
  | expr => [(trail, .conjunct label expr file)]

def embedMentions (trail : Trail) (file : ParsedFile) : Expr → List (Trail × Mention)
  | .binary .unify left right => embedMentions trail file left ++ embedMentions trail file right
  | .paren inner _ => embedMentions trail file inner
  | .struct decls _ => declsMentions trail file decls
  | expr => [(trail, .embed expr file)]

end

structure Written where
  expr : Expr
  file : ParsedFile

/-- Everything declared for one label of a body. -/
structure Declared where
  label : String
  kind : LabelKind
  optional : Bool
  position : Position
  conjuncts : List Written := []
  /-- Whether there is a struct literal for it. -/
  opened : Bool := false

namespace Declared

def find? (ds : List Declared) (label : String) : Option Declared := ds.find? (·.label == label)

def update (ds : List Declared) (label : String) (f : Declared → Declared) : List Declared :=
  ds.map fun d => if d.label == label then f d else d

end Declared

def Mention.apply (ds : List Declared) : Mention → List Declared
  | label l optional file =>
    if (Declared.find? ds l.name).isSome then
      Declared.update ds l.name fun d => { d with optional := d.optional && optional }
    else ds ++ [{ label := l.name, kind := l.kind, optional, position := file.source.position l.span }]
  | conjunct name expr file =>
    Declared.update ds name fun d => { d with conjuncts := d.conjuncts ++ [⟨expr, file⟩] }
  | literal name => Declared.update ds name fun d => { d with opened := true }
  | embed _ _ => ds

def Mention.embed? : Mention → Option Written
  | embed expr file => some ⟨expr, file⟩
  | _ => none

/-- Declarations that see each other, and the path of the field they are the value of. The root block has
    those of all files, and any other block those of one struct literal that is met during evaluation. -/
structure Block where
  path : String
  mentions : List (Trail × Mention)

namespace Block

variable (b : Block)

def mentionsAt (trail : Trail) : List Mention := (b.mentions.filter (·.1 == trail)).map (·.2)

def declared (trail : Trail) : List Declared := (b.mentionsAt trail).foldl Mention.apply []

def embeds (trail : Trail) : List Written := (b.mentionsAt trail).filterMap Mention.embed?

def pathOf (trail : Trail) : String := trail.foldr (fun label path => joinPath path label) b.path

/-- The innermost body, from a trail outwards, that declares a label. -/
def lookup (label : String) : Trail → Option Trail
  | [] => if (Declared.find? (b.declared []) label).isSome then some [] else none
  | l :: trail =>
    if (Declared.find? (b.declared (l :: trail)) label).isSome then some (l :: trail)
    else lookup label trail

end Block

structure Spot where
  block : Block
  trail : Trail

/-- A body in its block, and the bodies that each block stands in, innermost first. -/
abbrev Env := List Spot

namespace Env

def declared : Env → List Declared
  | [] => []
  | ⟨b, trail⟩ :: _ => b.declared trail

def embeds : Env → List Written
  | [] => []
  | ⟨b, trail⟩ :: _ => b.embeds trail

def path : Env → String
  | [] => ""
  | ⟨b, trail⟩ :: _ => b.pathOf trail

def find? (env : Env) (label : String) : Option Declared := Declared.find? env.declared label

/-- The body around. -/
def outer : Env → Env
  | [] => []
  | ⟨_, []⟩ :: env => env
  | ⟨b, _ :: trail⟩ :: env => ⟨b, trail⟩ :: env

def inner (env : Env) (label : String) : Env :=
  match env with
  | [] => []
  | ⟨b, trail⟩ :: env => ⟨b, label :: trail⟩ :: env

def literal (env : Env) (path : String) (file : ParsedFile) (decls : List Decl) : Env :=
  ⟨⟨path, declsMentions [] file decls⟩, []⟩ :: env

def lookup (label : String) : Env → Option Env
  | [] => none
  | ⟨b, trail⟩ :: env =>
    match b.lookup label trail with
    | some trail => some (⟨b, trail⟩ :: env)
    | none => lookup label env

end Env

def rootEnv (files : List ParsedFile) : Env :=
  [⟨⟨"", files.flatMap fun file => declsMentions [] file file.tree.decls⟩, []⟩]

/-- The result of an evaluation with some amount of fuel, if that was enough. -/
abbrev Meaning (α : Type) := ExceptT EvalError Option α

namespace Closure

structure Site where
  env : Env
  file : ParsedFile
  path : String

inductive Task
  | body (env : Env)
  | expr (e : Expr) (site : Site)

structure Parts where
  task : Task → Meaning Value
  field : Env → String → Meaning Value

def fail {α : Type} (site : Site) (problem : Problem) (span : Span) : Meaning α :=
  throw ⟨site.path, problem, some (site.file.source.position span)⟩

def unifyAt (path : String) (fallback : Option Position) (a b : Value) : Meaning Value :=
  match a.unify b with
  | .ok value => pure value
  | .error c => throw (.ofConflict path fallback c)

/-- The result of an evaluation, or the conflict it ends in. -/
def attempt {α : Type} (m : Meaning α) : Meaning (Except EvalError α) :=
  tryCatch (.ok <$> m) fun e => if e.kind = .conflict then pure (.error e) else throw e

def reference? (env : Env) : Expr → Option (Env × String)
  | .ident name => (env.lookup name.name).map (·, name.name)
  | .paren inner _ => reference? env inner
  | .select base field => do
    let (env, label) ← reference? env base
    let entry ← env.find? label
    let inner := env.inner label
    if entry.opened && entry.conjuncts.isEmpty && inner.embeds.isEmpty &&
        (inner.find? field.name).isSome then
      some (inner, field.name)
    else none
  | _ => none

/-- A field of a value, or why it has none. -/
def selected (label : String) (base : Value) : Except Problem Value :=
  match base with
  | .struct fields =>
    match Field.find? fields label with
    | some f => .ok f.value
    | none => .error (.selectMissing label)
  | .disjunction alternatives =>
    match _h : (Value.disjunction alternatives).resolved with
    | some value => selected label value
    | none => .error (.selectFromAmbiguous base label)
  | .top | .kind _ => .error (.selectFromIncomplete base label)
  | _ => .error (.selectFromScalar base label)
termination_by sizeOf base
decreasing_by exact Value.sizeOf_resolved_lt _h

section Fields

variable (task : Task → Meaning Value)

def conjoinAll (env : Env) (path : String) (position : Position) :
    List Written → Value → Meaning Value
  | [], value => return value
  | ⟨expr, file⟩ :: conjuncts, value => do
    let next ← task (.expr expr ⟨env, file, path⟩)
    conjoinAll env path position conjuncts (← unifyAt path (some position) value next)

def fieldValue (env : Env) (label : String) : Meaning Value :=
  let path := joinPath env.path label
  match env.find? label with
  | none => throw ⟨path, .undeclared, none⟩
  | some entry => do
    let value ← conjoinAll task env path entry.position entry.conjuncts .top
    if entry.opened then
      unifyAt path (some entry.position) value (← task (.body (env.inner label)))
    else return value

end Fields

section Expressions

variable (parts : Parts)

def nameValue (site : Site) (name : Ident) : Meaning Value :=
  match site.env.lookup name.name with
  | some env => parts.field env name.name
  | none =>
    match site.file.tree.imports.find? (·.localName == name.name) with
    | some i => fail site (.imported i.path) name.span
    | none =>
      if name.name = "_" then return .top
      else
        match Kind.ofName? name.name with
        | some k => return .kind k
        | none => fail site (.unknownName name.name) name.span

def unmarked : Expr → Bool × Expr
  | .unary .mark inner _ => (true, inner)
  | e => (false, e)

def alternatives (site : Site) :
    List Expr → Meaning (List (Alternative Value) × Option EvalError)
  | [] => return ([], none)
  | operand :: operands => do
    let (marked, e) := unmarked operand
    let result ← attempt (parts.task (.expr e site))
    let (others, conflict) ← alternatives site operands
    match result with
    | .ok value => return (⟨value, marked⟩ :: others, conflict)
    | .error err => return (others, some err)

def disjunctionValue (site : Site) (e : Expr) : Meaning Value := do
  let (found, conflict) ← alternatives parts site (operands e)
  match found, conflict with
  | [], some err => throw err
  | _, _ => return .disjoin found

def exprValue (site : Site) (e : Expr) : Meaning Value :=
  let value (part : Expr) : Meaning Value := parts.task (.expr part site)
  match e with
  | .null _ => return .null
  | .bool b _ => return .bool b
  | .int n _ => return .int n
  | .float x _ => return .float x
  | .string s _ => return .string s
  | .paren inner _ => value inner
  | .ident name => nameValue parts site name
  | .select base field =>
    match reference? site.env e with
    | some (env, label) => parts.field env label
    | none => do
      match selected field.name (← value base) with
      | .ok v => return v
      | .error problem => fail site problem field.span
  | .struct decls _ => parts.task (.body (site.env.literal site.path site.file decls))
  | .list items _ => return .list (← items.mapM value)
  | .unary .negate operand span => do
    let v ← value operand
    match negate v with
    | some result => return result
    | none => fail site (.operand v) span
  | .unary .mark operand _ => value operand
  | .binary .unify left right => do
    let a ← value left
    let b ← value right
    unifyAt site.path (some (site.file.source.position e.span)) a b
  | .binary .disjoin _ _ => disjunctionValue parts site e

def bodyFields (env : Env) : List Declared → Meaning (List (Field Value))
  | [] => return []
  | entry :: entries => do
    let value ← parts.field env entry.label
    let field : Field Value :=
      { label := entry.label, kind := entry.kind, optional := entry.optional,
        position := some entry.position, value }
    return field :: (← bodyFields env entries)

def embedAll (env : Env) : List Written → Value → Meaning Value
  | [], value => return value
  | ⟨expr, file⟩ :: embeds, value => do
    let embedded ← parts.task (.expr expr ⟨env, file, env.path⟩)
    embedAll env embeds (← unifyAt env.path (some (file.source.position expr.span)) value embedded)

def bodyValue (env : Env) : Meaning Value := do
  let fields ← bodyFields parts env env.declared
  let start := if env.embeds.isEmpty || !fields.isEmpty then Value.struct fields else .top
  embedAll parts env env.embeds start

def perform : Task → Meaning Value
  | .body env => bodyValue parts env
  | .expr e site => exprValue parts site e

end Expressions

/-- What a task comes to with a given amount of fuel. -/
def meaning : Nat → Task → Meaning Value
  | 0, _ => ExceptT.mk none
  | n + 1, task => perform ⟨meaning n, fieldValue (meaning n)⟩ task

def fieldMeaning (n : Nat) (env : Env) (label : String) : Meaning Value :=
  fieldValue (meaning n) env label

/-- What the parts of a task come to with a given amount of fuel. -/
def partsAt (n : Nat) : Parts := ⟨meaning n, fieldMeaning n⟩

end Closure

end StackLattice.Evaluation
