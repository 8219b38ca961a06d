import StackLattice.Proofs.Evaluation.Closure
import StackLattice.Proofs.Syntax.Trees

/-!
Scopes of trees that are redrawn: without comments, with their spans moved, and with other files behind them. Gathering
declarations depends on none of these.
-/

namespace StackLattice

open Syntax (Expr Decl Ident Label ParsedFile)

/-- How spans, files and the positions that they stand for are redrawn. -/
structure Redrawing where
  move : Span → Span
  file : Nat → Nat
  files : Array ParsedFile → Array ParsedFile
  position : Position → Position
  place : ∀ (sources : Array ParsedFile) (i : Nat) (span : Span),
    (((files sources)[file i]?.map fun f => f.source.position (move span)).getD ⟨none, 0, 0⟩) =
      position ((sources[i]?.map fun f => f.source.position span).getD ⟨none, 0, 0⟩)

variable (r : Redrawing)

def Conjunct.redrawn (c : Conjunct) : Conjunct := ⟨c.expr.redrawn r.move, c.scope, r.file c.file⟩

def Entry.redrawn (e : Entry) : Entry :=
  { e with conjuncts := e.conjuncts.map (Conjunct.redrawn r), position := r.position e.position }

def Scope.redrawn (s : Scope) : Scope :=
  { s with entries := s.entries.map (Entry.redrawn r), embeds := s.embeds.map (Conjunct.redrawn r) }

namespace Scopes

def redrawn (s : Scopes) : Scopes := ⟨s.nodes.map (Scope.redrawn r), r.files s.files⟩

variable {r} (s : Scopes) (id : ScopeId) (file : Nat)

theorem node_redrawn : (s.redrawn r).node id = (s.node id).redrawn r := by
  rw [node, node, redrawn, Array.getElem?_map]
  exact Option.getD_map (Scope.redrawn r) ⟨none, "", [], []⟩ s.nodes[id]?

theorem entryOf?_redrawn (label : String) :
    (s.redrawn r).entryOf? id label = (s.entryOf? id label).map (Entry.redrawn r) := by
  rw [entryOf?, entryOf?, node_redrawn]
  exact List.find?_map ..

theorem isSome_entryOf?_redrawn (label : String) :
    ((s.redrawn r).entryOf? id label).isSome = (s.entryOf? id label).isSome := by
  rw [entryOf?_redrawn, Option.isSome_map]

theorem lookup_redrawn (label : String) : (s.redrawn r).lookup id label = s.lookup id label := by
  fun_induction lookup s id label with
  | case1 id here => rw [lookup, isSome_entryOf?_redrawn, if_pos here]
  | case2 id absent parent found before ih =>
    have same : ((s.redrawn r).node id).parent = some parent := by rw [node_redrawn, ← found]; rfl
    rw [lookup, isSome_entryOf?_redrawn, if_neg absent, same]
    simp only [before, if_true, ih]
  | case3 id absent parent found late =>
    have same : ((s.redrawn r).node id).parent = some parent := by rw [node_redrawn, ← found]; rfl
    rw [lookup, isSome_entryOf?_redrawn, if_neg absent, same]
    simp only [late, if_false]
  | case4 id absent found =>
    have same : ((s.redrawn r).node id).parent = none := by rw [node_redrawn, ← found]; rfl
    rw [lookup, isSome_entryOf?_redrawn, if_neg absent, same]

theorem modify_redrawn {f g : Scope → Scope} (same : ∀ scope, (f scope).redrawn r = g (scope.redrawn r)) :
    (s.modify id f).redrawn r = (s.redrawn r).modify id g := by
  simp only [modify, redrawn]
  congr 1
  refine Array.ext (by simp) fun i _ _ => ?_
  rw [Array.getElem_map, Array.getElem_modify, Array.getElem_modify, Array.getElem_map]
  split
  · exact same _
  · rfl

theorem modifyEntry_redrawn (label : String) {f g : Entry → Entry} (same : ∀ e, (f e).redrawn r = g (e.redrawn r)) :
    (s.modifyEntry id label f).redrawn r = (s.redrawn r).modifyEntry id label g := by
  refine s.modify_redrawn id fun scope => ?_
  simp only [Scope.redrawn, List.map_map]
  congr 1
  refine List.map_congr_left fun e _ => ?_
  rw [Function.comp_apply, Function.comp_apply, apply_ite (Entry.redrawn r), same]
  rfl

theorem push_redrawn (scope : Scope) : (s.push scope).2.redrawn r = ((s.redrawn r).push (scope.redrawn r)).2 := by
  simp only [push, redrawn, Array.map_push]

theorem size_redrawn : (s.redrawn r).nodes.size = s.nodes.size := Array.size_map

theorem declare_redrawn (label : Label) (optional : Bool) :
    (s.declare id label optional file).redrawn r =
      (s.redrawn r).declare id (label.redrawn r.move) optional (r.file file) := by
  have position : ((s.redrawn r).position? (r.file file) (label.redrawn r.move).span).getD ⟨none, 0, 0⟩ =
      r.position ((s.position? file label.span).getD ⟨none, 0, 0⟩) := r.place s.files file label.span
  rw [declare, declare, position, show (label.redrawn r.move).name = label.name from rfl, isSome_entryOf?_redrawn]
  split
  · exact s.modifyEntry_redrawn id label.name fun e => rfl
  · refine s.modify_redrawn id fun scope => ?_
    simp only [Scope.redrawn, List.map_append]
    rfl

theorem innerOf_redrawn (label : String) :
    (s.redrawn r).innerOf id label = ((s.innerOf id label).1, (s.innerOf id label).2.redrawn r) := by
  have inner : ((s.redrawn r).entryOf? id label).bind (·.inner) = (s.entryOf? id label).bind (·.inner) := by
    rw [entryOf?_redrawn]
    cases s.entryOf? id label <;> rfl
  rw [innerOf, innerOf, inner]
  cases (s.entryOf? id label).bind (·.inner) with
  | some inner => rfl
  | none =>
    have pushed := s.push_redrawn (r := r) ⟨some id, joinPath (s.node id).path label, [], []⟩
    simp only [push, size_redrawn] at pushed ⊢
    refine congrArg (s.nodes.size, ·) ?_
    rw [modifyEntry_redrawn (g := fun e => { e with inner := some s.nodes.size }) _ _ _ fun e => rfl, pushed,
      node_redrawn]
    rfl

mutual

theorem addDecls_redrawn (s : Scopes) (id : ScopeId) (file : Nat) (decls : List Decl) :
    (s.addDecls id file decls).redrawn r = (s.redrawn r).addDecls id (r.file file) (Decl.redrawnAll r.move decls) := by
  match decls with
  | [] => rw [addDecls, Decl.redrawnAll, addDecls]
  | decl :: decls => rw [addDecls, Decl.redrawnAll, addDecls, addDecls_redrawn _ id file decls, addDecl_redrawn s id file decl]

theorem addDecl_redrawn (s : Scopes) (id : ScopeId) (file : Nat) (decl : Decl) :
    (s.addDecl id file decl).redrawn r = (s.redrawn r).addDecl id (r.file file) (decl.redrawn r.move) := by
  match decl with
  | .field label optional _ _ value =>
    rw [addDecl, Decl.redrawn, addDecl, addValue_redrawn _ id label.name file value, declare_redrawn]
    rfl
  | .embed value => rw [addDecl, Decl.redrawn, addDecl, addEmbed_redrawn s id file value]

theorem addValue_redrawn (s : Scopes) (id : ScopeId) (label : String) (file : Nat) (value : Expr) :
    (s.addValue id label file value).redrawn r =
      (s.redrawn r).addValue id label (r.file file) (value.redrawn r.move) := by
  match value with
  | .binary .unify left right =>
    rw [addValue, Expr.redrawn, addValue, addValue_redrawn _ id label file right, addValue_redrawn s id label file left]
  | .paren inner _ => rw [addValue, Expr.redrawn, addValue, addValue_redrawn s id label file inner]
  | .struct decls _ =>
    rw [addValue, Expr.redrawn, addValue, addDecls_redrawn _ _ file decls, innerOf_redrawn]
  | .null _ | .bool _ _ | .int _ _ | .float _ _ | .string _ _ | .ident _ | .select _ _ | .list _ _ | .unary _ _ _
  | .binary .disjoin _ _ =>
    rw [addValue, Expr.redrawn, addValue] <;> first
      | exact s.modifyEntry_redrawn id label fun e => by simp only [Entry.redrawn, List.map_append]; rfl
      | nofun

theorem addEmbed_redrawn (s : Scopes) (id : ScopeId) (file : Nat) (value : Expr) :
    (s.addEmbed id file value).redrawn r = (s.redrawn r).addEmbed id (r.file file) (value.redrawn r.move) := by
  match value with
  | .binary .unify left right =>
    rw [addEmbed, Expr.redrawn, addEmbed, addEmbed_redrawn _ id file right, addEmbed_redrawn s id file left]
  | .paren inner _ => rw [addEmbed, Expr.redrawn, addEmbed, addEmbed_redrawn s id file inner]
  | .struct decls _ => rw [addEmbed, Expr.redrawn, addEmbed, addDecls_redrawn s id file decls]
  | .null _ | .bool _ _ | .int _ _ | .float _ _ | .string _ _ | .ident _ | .select _ _ | .list _ _ | .unary _ _ _
  | .binary .disjoin _ _ =>
    rw [addEmbed, Expr.redrawn, addEmbed] <;> first
      | exact s.modify_redrawn id fun scope => by simp only [Scope.redrawn, List.map_append]; rfl
      | nofun

end

theorem addStruct_redrawn (parent : ScopeId) (path : String) (decls : List Decl) :
    (s.redrawn r).addStruct parent path (r.file file) (Decl.redrawnAll r.move decls) =
      ((s.addStruct parent path file decls).1, (s.addStruct parent path file decls).2.redrawn r) := by
  have pushed := s.push_redrawn (r := r) ⟨some parent, path, [], []⟩
  simp only [push, size_redrawn] at pushed
  simp only [addStruct, push, size_redrawn, addDecls_redrawn, pushed]
  rfl

end Scopes

namespace Evaluation

variable {r} {move : Span → Span}

theorem operands_redrawn (e : Expr) : operands (e.redrawn move) = (operands e).map (Expr.redrawn move) := by
  match e with
  | .binary .disjoin left right =>
    rw [Expr.redrawn, operands, operands, operands_redrawn left, operands_redrawn right, List.map_append]
  | .null _ | .bool _ _ | .int _ _ | .float _ _ | .string _ _ | .ident _ | .select _ _ | .struct _ _ | .list _ _
  | .unary _ _ _ | .paren _ _ | .binary .unify _ _ =>
    rw [Expr.redrawn, operands, operands, List.map_singleton, Expr.redrawn] <;> nofun

theorem unmarked_redrawn (e : Expr) :
    Closure.unmarked (e.redrawn move) = ((Closure.unmarked e).1, (Closure.unmarked e).2.redrawn move) := by
  match e with
  | .unary .mark _ _ | .unary .negate _ _ => rfl
  | .null _ | .bool _ _ | .int _ _ | .float _ _ | .string _ _ | .ident _ | .select _ _ | .struct _ _ | .list _ _
  | .paren _ _ | .binary _ _ _ => rfl

theorem reference?_redrawn (s : Scopes) (scope : ScopeId) (e : Expr) :
    reference? (s.redrawn r) scope (e.redrawn move) = reference? s scope e := by
  match e with
  | .ident name =>
    rw [Expr.redrawn, reference?, reference?, show (name.redrawn move).name = name.name from rfl, Scopes.lookup_redrawn]
  | .paren inner _ => rw [Expr.redrawn, reference?, reference?, reference?_redrawn s scope inner]
  | .select base field =>
    rw [Expr.redrawn, reference?, reference?, reference?_redrawn s scope base]
    cases reference? s scope base with
    | none => rfl
    | some key =>
      obtain ⟨id, label⟩ := key
      simp only [Option.bind_eq_bind, Option.bind_some, Scopes.entryOf?_redrawn]
      cases s.entryOf? id label with
      | none => rfl
      | some entry =>
        have inner : (entry.redrawn r).inner = entry.inner := rfl
        simp only [Option.map_some, Option.bind_some, inner]
        cases entry.inner with
        | none => rfl
        | some body =>
          have found : (((s.node body).redrawn r).entryOf? field.name).isSome =
              ((s.node body).entryOf? field.name).isSome := by
            simpa only [Scopes.entryOf?, Scopes.node_redrawn] using s.isSome_entryOf?_redrawn (r := r) body field.name
          simp only [Option.bind_some, Scopes.node_redrawn]
          rw [show (field.redrawn move).name = field.name from rfl, found]
          simp only [Entry.redrawn, Scope.redrawn, List.isEmpty_map]
  | .null _ | .bool _ _ | .int _ _ | .float _ _ | .string _ _ | .struct _ _ | .list _ _ | .unary _ _ _
  | .binary _ _ _ => rfl

end Evaluation

end StackLattice
