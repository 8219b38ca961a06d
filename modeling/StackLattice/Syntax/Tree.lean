import StackLattice.Source.Position
import StackLattice.Syntax.Token

/-!
Syntax trees. Fields that share a label are not merged here, and names are not resolved.
-/

namespace StackLattice.Syntax

open Decimal (Binary64)

structure Ident where
  name : String
  span : Span
deriving DecidableEq, Repr

/-- How a label takes part in the output: only regular fields do. -/
inductive LabelKind
  | regular
  /-- `#name`, or a name declared with `::`. -/
  | definition
  /-- `_name` -/
  | hidden
deriving DecidableEq, Repr

structure Label where
  name : String
  kind : LabelKind
  span : Span
deriving DecidableEq, Repr

inductive UnaryOp
  | negate
  /-- `*`, which marks an alternative as the default. -/
  | mark
deriving DecidableEq, Repr

inductive BinaryOp
  | unify
  | disjoin
deriving DecidableEq, Repr

mutual

inductive Expr
  | null (span : Span)
  | bool (value : Bool) (span : Span)
  | int (value : Nat) (span : Span)
  | float (value : Binary64) (span : Span)
  | string (value : String) (span : Span)
  | ident (name : Ident)
  | select (base : Expr) (field : Ident)
  | struct (decls : List Decl) (span : Span)
  | list (items : List Expr) (span : Span)
  | unary (op : UnaryOp) (operand : Expr) (span : Span)
  | binary (op : BinaryOp) (left right : Expr)
  | paren (inner : Expr) (span : Span)

inductive Decl
  /-- `label: value`, or `label?: value` when optional; the span covers all of it. -/
  | field (label : Label) (optional : Bool) (doc : List Comment) (span : Span) (value : Expr)
  /-- An expression that is unified into the body it stands in. -/
  | embed (value : Expr)

end

instance : Inhabited Expr := ⟨.null default⟩

def Expr.span : Expr → Span
  | .null span | .bool _ span | .int _ span | .float _ span | .string _ span => span
  | .ident name => name.span
  | .select base field => base.span.merge field.span
  | .struct _ span | .list _ span | .unary _ _ span | .paren _ span => span
  | .binary _ left right => left.span.merge right.span

def Decl.span : Decl → Span
  | .field _ _ _ span _ => span
  | .embed value => value.span

/-- `import "path"`, or `import name "path"`. -/
structure Import where
  path : String
  localAs : Option Ident
  span : Span
deriving DecidableEq, Repr

/-- The characters after the last slash. -/
def lastSegment (path : List Char) : List Char := (path.reverse.takeWhile (· ≠ '/')).reverse

/-- The name the import is referred to by. -/
def Import.localName (i : Import) : String :=
  match i.localAs with
  | some name => name.name
  | none => String.ofList (lastSegment i.path.toList)

structure File where
  package : Option Ident
  imports : List Import
  decls : List Decl
  /-- Comments directly above the package clause or the first declaration. -/
  doc : List Comment
  comments : List Comment

def File.packageName (f : File) : Option String := f.package.map (·.name)

/-- A file's text together with its tree. -/
structure ParsedFile where
  source : SourceText
  tree : File

end StackLattice.Syntax
