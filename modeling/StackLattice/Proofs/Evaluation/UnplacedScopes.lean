import StackLattice.Evaluation.Rules
import StackLattice.Proofs.Evaluation.RedrawnScopes
import StackLattice.Proofs.Syntax.Bare
import StackLattice.Proofs.Value.Unplaced

/-!
Scopes without the files and the places in them that declarations came from. Gathering declarations does not depend on
either, so that files are gathered to the same scopes as one file with the declarations of all of them.
-/

namespace StackLattice

open Syntax (Expr Decl Ident Label ParsedFile)

def Conjunct.unplaced (c : Conjunct) : Conjunct := ⟨c.expr.bare, c.scope, 0⟩

def Entry.unplaced (e : Entry) : Entry :=
  { e with conjuncts := e.conjuncts.map Conjunct.unplaced, position := .nowhere }

def Scope.unplaced (s : Scope) : Scope :=
  { s with entries := s.entries.map Entry.unplaced, embeds := s.embeds.map Conjunct.unplaced }

/-- Everything in one file, at no place in it. -/
def Redrawing.unplaced : Redrawing where
  move _ := default
  file _ := 0
  files _ := #[]
  position _ := .nowhere
  place _ _ _ := rfl

theorem Conjunct.redrawn_unplaced : Conjunct.redrawn .unplaced = Conjunct.unplaced := by
  funext c
  rw [unplaced, ← c.expr.redrawn_bare]
  rfl

theorem Entry.redrawn_unplaced : Entry.redrawn .unplaced = Entry.unplaced := by
  funext e
  rw [redrawn, unplaced, Conjunct.redrawn_unplaced]
  rfl

theorem Scope.redrawn_unplaced : Scope.redrawn .unplaced = Scope.unplaced := by
  funext s
  rw [redrawn, unplaced, Entry.redrawn_unplaced, Conjunct.redrawn_unplaced]

namespace Scopes

def unplaced (s : Scopes) : Scopes := ⟨s.nodes.map Scope.unplaced, #[]⟩

variable (s : Scopes) (id : ScopeId) (file : Nat)

theorem redrawn_unplaced : s.redrawn .unplaced = s.unplaced := by
  rw [redrawn, unplaced, Scope.redrawn_unplaced]
  rfl

theorem node_unplaced : s.unplaced.node id = (s.node id).unplaced := by
  rw [← redrawn_unplaced, node_redrawn, Scope.redrawn_unplaced]

theorem entryOf?_unplaced (label : String) : s.unplaced.entryOf? id label = (s.entryOf? id label).map Entry.unplaced := by
  rw [← redrawn_unplaced, entryOf?_redrawn, Entry.redrawn_unplaced]

theorem import?_unplaced (name : String) : s.unplaced.import? file name = none := rfl

theorem lookup_unplaced (label : String) : s.unplaced.lookup id label = s.lookup id label := by
  rw [← redrawn_unplaced, lookup_redrawn]

theorem addDecls_unplaced (decls : List Decl) :
    (s.addDecls id file decls).unplaced = s.unplaced.addDecls id 0 (Decl.bareAll decls) := by
  rw [← redrawn_unplaced, ← redrawn_unplaced, ← Decl.redrawnAll_bare]
  exact s.addDecls_redrawn id file decls

theorem addStruct_unplaced (parent : ScopeId) (path : String) (decls : List Decl) :
    s.unplaced.addStruct parent path 0 (Decl.bareAll decls) =
      ((s.addStruct parent path file decls).1, (s.addStruct parent path file decls).2.unplaced) := by
  rw [← redrawn_unplaced, ← redrawn_unplaced, ← Decl.redrawnAll_bare]
  exact s.addStruct_redrawn file parent path decls

theorem addDecls_append (decls more : List Decl) :
    s.addDecls id file (decls ++ more) = (s.addDecls id file decls).addDecls id file more := by
  induction decls generalizing s with
  | nil => rw [List.nil_append, addDecls]
  | cons decl decls ih => rw [List.cons_append, addDecls, ih, addDecls]

theorem addFiles_unplaced (index : Nat) (files : List ParsedFile) :
    (s.addFiles index files).unplaced = s.unplaced.addDecls root 0 ((files.flatMap (·.tree.decls)).map Decl.bare) := by
  induction files generalizing s index with
  | nil => rw [addFiles, List.flatMap_nil, List.map_nil, addDecls]
  | cons f files ih =>
    rw [addFiles, ih, addDecls_unplaced, List.flatMap_cons, List.map_append, addDecls_append, Decl.bareAll_eq_map]

/-- The scopes of files, but for places, are those of the declarations of all of them. -/
theorem ofFiles_unplaced (files : List ParsedFile) :
    (ofFiles files).unplaced = (ofFiles []).addDecls root 0 ((files.flatMap (·.tree.decls)).map Decl.bare) := by
  have empty : (⟨#[⟨none, "", [], []⟩], files.toArray⟩ : Scopes).unplaced = ofFiles [] := by
    simp [unplaced, ofFiles, addFiles, Scope.unplaced]
  rw [ofFiles, addFiles_unplaced, empty]

section Files

theorem files_declare (label : Label) (optional : Bool) : (s.declare id label optional file).files = s.files := by
  rw [declare]
  split <;> rfl

theorem files_innerOf (label : String) : (s.innerOf id label).2.files = s.files := by
  rw [innerOf]
  split <;> rfl

mutual

theorem files_addDecls (s : Scopes) (id : ScopeId) (file : Nat) (decls : List Decl) :
    (s.addDecls id file decls).files = s.files := by
  match decls with
  | [] => rw [addDecls]
  | decl :: decls => rw [addDecls, files_addDecls _ id file decls, files_addDecl s id file decl]

theorem files_addDecl (s : Scopes) (id : ScopeId) (file : Nat) (decl : Decl) :
    (s.addDecl id file decl).files = s.files := by
  match decl with
  | .field label optional _ _ value => rw [addDecl, files_addValue _ id label.name file value, files_declare]
  | .embed value => rw [addDecl, files_addEmbed s id file value]

theorem files_addValue (s : Scopes) (id : ScopeId) (label : String) (file : Nat) (value : Expr) :
    (s.addValue id label file value).files = s.files := by
  match value with
  | .binary .unify left right => rw [addValue, files_addValue _ id label file right, files_addValue s id label file left]
  | .paren inner _ => rw [addValue, files_addValue s id label file inner]
  | .struct decls _ => rw [addValue, files_addDecls _ _ file decls, files_innerOf]
  | .null _ | .bool _ _ | .int _ _ | .float _ _ | .string _ _ | .ident _ | .select _ _ | .list _ _ | .unary _ _ _
  | .binary .disjoin _ _ => rw [addValue] <;> first | rfl | nofun

theorem files_addEmbed (s : Scopes) (id : ScopeId) (file : Nat) (value : Expr) :
    (s.addEmbed id file value).files = s.files := by
  match value with
  | .binary .unify left right => rw [addEmbed, files_addEmbed _ id file right, files_addEmbed s id file left]
  | .paren inner _ => rw [addEmbed, files_addEmbed s id file inner]
  | .struct decls _ => rw [addEmbed, files_addDecls s id file decls]
  | .null _ | .bool _ _ | .int _ _ | .float _ _ | .string _ _ | .ident _ | .select _ _ | .list _ _ | .unary _ _ _
  | .binary .disjoin _ _ => rw [addEmbed] <;> first | rfl | nofun

end

theorem files_addStruct (parent : ScopeId) (path : String) (decls : List Decl) :
    (s.addStruct parent path file decls).2.files = s.files := files_addDecls _ _ file decls

theorem files_addFiles (index : Nat) (files : List ParsedFile) : (s.addFiles index files).files = s.files := by
  induction files generalizing s index with
  | nil => rw [addFiles]
  | cons f files ih => rw [addFiles, ih, files_addDecls]

end Files

end Scopes

namespace Evaluation

theorem operands_bare (e : Expr) : operands e.bare = (operands e).map Expr.bare := by
  rw [← Expr.redrawn_bare, operands_redrawn, funext Expr.redrawn_bare]

theorem unmarked_bare (e : Expr) :
    Closure.unmarked e.bare = ((Closure.unmarked e).1, (Closure.unmarked e).2.bare) := by
  rw [← Expr.redrawn_bare, ← Expr.redrawn_bare, unmarked_redrawn]

theorem reference?_unplaced (s : Scopes) (scope : ScopeId) (e : Expr) :
    reference? s.unplaced scope e.bare = reference? s scope e := by
  rw [← Scopes.redrawn_unplaced, ← Expr.redrawn_bare]
  exact reference?_redrawn s scope e

end Evaluation

end StackLattice
