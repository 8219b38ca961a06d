import StackLattice.Syntax.Parser
import StackLattice.Value.FieldPath

/-!
Scopes: the bodies of a package as declarations are gathered into them. Declarations of one label
share an entry. Struct literals of an entry share one inner scope, so that their fields see each
other; every other conjunct is kept to be evaluated when it is needed. All files of a package
contribute to the root.
-/

namespace StackLattice

open Syntax (Expr Decl LabelKind Label ParsedFile Import)

abbrev ScopeId := Nat

/-- An expression, the scope its names are looked up in and the file it stands in. -/
structure Conjunct where
  expr : Expr
  scope : ScopeId
  file : Nat

/-- Everything declared for one label of a scope. -/
structure Entry where
  label : String
  kind : LabelKind
  optional : Bool
  conjuncts : List Conjunct := []
  /-- The scope of the struct literals. -/
  inner : Option ScopeId := none
  /-- Of the first declaration. -/
  position : Position

structure Scope where
  parent : Option ScopeId
  path : String
  /-- In the order of their first declaration. -/
  entries : List Entry := []
  embeds : List Conjunct := []

def Scope.entryOf? (s : Scope) (label : String) : Option Entry := s.entries.find? (·.label == label)

structure Scopes where
  nodes : Array Scope
  files : Array ParsedFile

namespace Scopes

def root : ScopeId := 0

def node (s : Scopes) (id : ScopeId) : Scope := s.nodes[id]?.getD ⟨none, "", [], []⟩

def entryOf? (s : Scopes) (id : ScopeId) (label : String) : Option Entry := (s.node id).entryOf? label

def position? (s : Scopes) (file : Nat) (span : Span) : Option Position :=
  s.files[file]?.map fun f => f.source.position span

/-- The import that a file refers to by a name. -/
def import? (s : Scopes) (file : Nat) (name : String) : Option Import := do
  (← s.files[file]?).tree.imports.find? (·.localName == name)

/-- The innermost scope, from `id` outwards, that declares a label. -/
def lookup (s : Scopes) (id : ScopeId) (label : String) : Option ScopeId :=
  if (s.entryOf? id label).isSome then some id
  else
    match (s.node id).parent with
    | some parent => if parent < id then lookup s parent label else none
    | none => none

def push (s : Scopes) (scope : Scope) : ScopeId × Scopes :=
  (s.nodes.size, { s with nodes := s.nodes.push scope })

def modify (s : Scopes) (id : ScopeId) (f : Scope → Scope) : Scopes :=
  { s with nodes := s.nodes.modify id f }

def modifyEntry (s : Scopes) (id : ScopeId) (label : String) (f : Entry → Entry) : Scopes :=
  s.modify id fun scope =>
    { scope with entries := scope.entries.map fun e => if e.label == label then f e else e }

/-- Declares a label once more. It stays optional only while every declaration is. -/
def declare (s : Scopes) (id : ScopeId) (label : Label) (optional : Bool) (file : Nat) : Scopes :=
  if (s.entryOf? id label.name).isSome then
    s.modifyEntry id label.name fun e => { e with optional := e.optional && optional }
  else
    let position := (s.position? file label.span).getD ⟨none, 0, 0⟩
    s.modify id fun scope =>
      { scope with
        entries := scope.entries ++ [{ label := label.name, kind := label.kind, optional, position }] }

/-- The inner scope of an entry, made when it is first needed. -/
def innerOf (s : Scopes) (id : ScopeId) (label : String) : ScopeId × Scopes :=
  match (s.entryOf? id label).bind (·.inner) with
  | some inner => (inner, s)
  | none =>
    let (inner, s) := s.push ⟨some id, joinPath (s.node id).path label, [], []⟩
    (inner, s.modifyEntry id label fun e => { e with inner := some inner })

mutual

def addDecls (s : Scopes) (id : ScopeId) (file : Nat) : List Decl → Scopes
  | [] => s
  | decl :: decls => addDecls (s.addDecl id file decl) id file decls

def addDecl (s : Scopes) (id : ScopeId) (file : Nat) : Decl → Scopes
  | .field label optional _ _ value =>
    (s.declare id label optional file).addValue id label.name file value
  | .embed value => s.addEmbed id file value

/-- Splits `a & b & {…}` into the conjuncts of a label. -/
def addValue (s : Scopes) (id : ScopeId) (label : String) (file : Nat) : Expr → Scopes
  | .binary .unify left right => (s.addValue id label file left).addValue id label file right
  | .paren inner _ => s.addValue id label file inner
  | .struct decls _ =>
    let (inner, s) := s.innerOf id label
    s.addDecls inner file decls
  | expr => s.modifyEntry id label fun e => { e with conjuncts := e.conjuncts ++ [⟨expr, id, file⟩] }

/-- Splits an embedding in the same way; the declarations of a literal join those around it. -/
def addEmbed (s : Scopes) (id : ScopeId) (file : Nat) : Expr → Scopes
  | .binary .unify left right => (s.addEmbed id file left).addEmbed id file right
  | .paren inner _ => s.addEmbed id file inner
  | .struct decls _ => s.addDecls id file decls
  | expr => s.modify id fun scope => { scope with embeds := scope.embeds ++ [⟨expr, id, file⟩] }

end

/-- A scope for a struct literal that is met during evaluation. -/
def addStruct (s : Scopes) (parent : ScopeId) (path : String) (file : Nat) (decls : List Decl) :
    ScopeId × Scopes :=
  let (id, s) := s.push ⟨some parent, path, [], []⟩
  (id, s.addDecls id file decls)

/-- Declarations of the files, the first of which has the given index. -/
def addFiles (s : Scopes) : Nat → List ParsedFile → Scopes
  | _, [] => s
  | index, file :: files => addFiles (s.addDecls root index file.tree.decls) (index + 1) files

def ofFiles (files : List ParsedFile) : Scopes :=
  addFiles ⟨#[⟨none, "", [], []⟩], files.toArray⟩ 0 files

end Scopes

end StackLattice
