import StackLattice.Proofs.Syntax.Accepted

/-!
The nodes of a tree and the tokens that they are read from. What stands in a node is read from parts of its tokens, one
behind the other.
-/

namespace StackLattice.Syntax

open Grammar

inductive Node
  | name (i : Ident)
  | label (l : Label)
  | importing (i : Import)
  | decl (d : Decl)
  | expr (e : Expr)

namespace Node

def span : Node → Span
  | name i => i.span
  | label l => l.span
  | importing i => i.span
  | decl d => d.span
  | expr e => e.span

def inExpr : Expr → List Node
  | .select base field => [expr base, name field]
  | .struct decls _ => decls.map decl
  | .list items _ => items.map expr
  | .unary _ operand _ => [expr operand]
  | .binary _ left right => [expr left, expr right]
  | .paren inner _ => [expr inner]
  | _ => []

/-- The nodes that stand directly in a node. -/
def children : Node → List Node
  | name _ | label _ => []
  | importing i => i.localAs.toList.map name
  | decl (.field l _ _ _ value) => [label l, expr value]
  | decl (.embed value) => [expr value]
  | expr e => inExpr e

/-- The tokens that a node is read from. The struct that stands for a field alone is read from those of the field. -/
inductive ReadFrom (revision : Revision) : List Token → Node → Prop
  | name {t : Token} {s : String} : Selected t s → ReadFrom revision [t] (name ⟨s, t.span⟩)
  | label {t : Token} {l : Label} (kind : LabelKind) : Labels t l → ReadFrom revision [t] (label { l with kind })
  | importing {ts : List Token} {i : Import} : ImportClause ts i → ReadFrom revision ts (importing i)
  | decl {n : Nat} {ts : List Token} {d : Decl} : Declaration revision n ts d → ReadFrom revision ts (decl d)
  | expr {n : Nat} {ts : List Token} {e : Expr} : Expression revision n ts e → ReadFrom revision ts (expr e)
  | implied {n : Nat} {ts : List Token} {d : Decl} : FieldDecl revision n ts d →
    ReadFrom revision ts (expr (.struct [d] d.span))

/-- Nodes that are read from parts of some tokens, one behind the other. -/
inductive Spread (revision : Revision) : List Token → List Node → Prop
  | done {ts : List Token} : Spread revision ts []
  | next {gap ts rest : List Token} {node : Node} {nodes : List Node} : ReadFrom revision ts node →
    Spread revision rest nodes → Spread revision (gap ++ ts ++ rest) (node :: nodes)

namespace Spread

variable {revision : Revision} {ts us : List Token} {node : Node} {nodes nodes' : List Node}

theorem behind (gap : List Token) (h : Spread revision ts nodes) : Spread revision (gap ++ ts) nodes := by
  cases h with
  | done => exact .done
  | next read rest =>
    rw [← List.append_assoc, ← List.append_assoc]
    exact .next read rest

theorem append (first : Spread revision ts nodes) (last : Spread revision us nodes') :
    Spread revision (ts ++ us) (nodes ++ nodes') := by
  induction first with
  | done => exact last.behind _
  | next read _ ih =>
    rw [List.append_assoc]
    exact .next read ih

theorem single (h : ReadFrom revision ts node) : Spread revision ts [node] := by
  have spread : Spread revision ([] ++ ts ++ []) [node] := .next h .done
  rwa [List.append_nil] at spread

theorem before (us : List Token) (h : Spread revision ts nodes) : Spread revision (ts ++ us) nodes := by
  have spread : Spread revision (ts ++ us) (nodes ++ []) := h.append .done
  rwa [List.append_nil] at spread

theorem written {α : Type} {pieces : List (Piece α)} {nodes : α → List Node}
    (each : ∀ p ∈ pieces, Spread revision p.tokens (nodes p.tree)) :
    Spread revision (Grammar.written pieces) ((trees pieces).flatMap nodes) := by
  induction pieces with
  | nil => exact .done
  | cons p ps ih =>
    rw [List.forall_mem_cons] at each
    exact (each.1.before p.commas).append (ih each.2)

theorem pieces {α : Type} {pieces : List (Piece α)} {node : α → Node}
    (each : ∀ p ∈ pieces, ReadFrom revision p.tokens (node p.tree)) :
    Spread revision (Grammar.written pieces) ((trees pieces).map node) := by
  rw [List.map_eq_flatMap]
  exact written fun p member => single (each p member)

theorem exists_part (h : Spread revision ts nodes) (member : node ∈ nodes) :
    ∃ before part after, ts = before ++ part ++ after ∧ ReadFrom revision part node := by
  induction h with
  | done => cases member
  | @next gap part rest first others read _ ih =>
    rcases List.mem_cons.mp member with rfl | inOthers
    · exact ⟨gap, part, rest, rfl, read⟩
    · obtain ⟨before, part', after, rfl, found⟩ := ih inOthers
      exact ⟨gap ++ part ++ before, part', after, by simp, found⟩

end Spread

end Node

section Chains

variable {revision : Revision} {n : Nat} {ts : List Token} {first e : Expr}

/-- The last selector of a chain, and the chain up to it. -/
theorem Grammar.Selection.last : ∀ {n : Nat} {base e : Expr} {ts : List Token}, Selection revision n base ts e →
    ts = [] ∧ e = base ∨ ∃ us dot name label inner, ts = us ++ [dot, name] ∧ Selection revision n base us inner ∧
      Selected name label ∧ e = .select inner ⟨label, name.span⟩
  | _, _, _, _, .done => .inl ⟨rfl, rfl⟩
  | _, _, _, _, .more isDot name rest => .inr <| by
    rcases rest.last with ⟨rfl, rfl⟩ | ⟨us, dot', name', label', inner, rfl, before, named, rfl⟩
    · exact ⟨[], _, _, _, _, rfl, .done, name, rfl⟩
    · exact ⟨_ :: _ :: us, dot', name', label', inner, rfl, .more isDot name before, named, rfl⟩

theorem Grammar.Unified.last : ∀ {n : Nat} {left e : Expr} {ts : List Token}, Unified revision n left ts e →
    ts = [] ∧ e = left ∨ ∃ us ampersand vs inner right m, ts = us ++ ampersand :: vs ∧
      Unified revision n left us inner ∧ Unary revision m vs right ∧ e = .binary .unify inner right
  | _, _, _, _, .done => .inl ⟨rfl, rfl⟩
  | _, _, _, _, @Unified.more _ _ _ ts _ _ _ _ isAmpersand operand rest => .inr <| by
    rcases rest.last with ⟨rfl, rfl⟩ | ⟨us, ampersand', vs, inner, right, m, rfl, before, operand', rfl⟩
    · exact ⟨[], _, ts, _, _, _, List.append_nil _, .done, operand, rfl⟩
    · exact ⟨_ :: ts ++ us, ampersand', vs, inner, right, m, by simp, .more isAmpersand operand before, operand', rfl⟩

theorem Grammar.Disjoined.last : ∀ {n : Nat} {left e : Expr} {ts : List Token}, Disjoined revision n left ts e →
    ts = [] ∧ e = left ∨ ∃ us bar vs inner right m, ts = us ++ bar :: vs ∧
      Disjoined revision n left us inner ∧ Unification revision m vs right ∧ e = .binary .disjoin inner right
  | _, _, _, _, .done => .inl ⟨rfl, rfl⟩
  | _, _, _, _, @Disjoined.more _ _ _ ts _ _ _ _ isBar operand rest => .inr <| by
    rcases rest.last with ⟨rfl, rfl⟩ | ⟨us, bar', vs, inner, right, m, rfl, before, operand', rfl⟩
    · exact ⟨[], _, ts, _, _, _, List.append_nil _, .done, operand, rfl⟩
    · exact ⟨_ :: ts ++ us, bar', vs, inner, right, m, by simp, .more isBar operand before, operand', rfl⟩

end Chains

namespace Node

open Spread

variable {revision : Revision} {n : Nat} {ts : List Token} {e : Expr}

theorem ReadFrom.unification (h : Unification revision n ts e) : ReadFrom revision ts (.expr e) := by
  have whole := Expression.disjunction h .done
  rw [List.append_nil] at whole
  exact .expr whole

theorem ReadFrom.unary (h : Unary revision n ts e) : ReadFrom revision ts (.expr e) := by
  have whole := Unification.unification h .done
  rw [List.append_nil] at whole
  exact .unification whole

theorem spread_primary (h : Primary revision n ts e) : Spread revision ts (inExpr e) := by
  cases h with
  | leaf leaf => cases leaf <;> exact .done
  | struct _ _ each => exact ((pieces fun p member => .decl (each p member)).behind _).before _
  | list _ _ each => exact ((pieces fun p member => .expr (each p member)).behind _).before _
  | paren _ inner => exact ((single (.expr inner)).behind [_]).before _

theorem spread_unary (h : Unary revision n ts e) : Spread revision ts (inExpr e) := by
  cases h with
  | negated _ operand | marked _ operand => exact (single (.unary operand)).behind [_]
  | postfixed primary selectors =>
    rcases selectors.last with ⟨rfl, rfl⟩ | ⟨us, dot, name, label, inner, rfl, before, named, rfl⟩
    · rw [List.append_nil]
      exact spread_primary primary
    · rw [← List.append_assoc]
      exact (single (.unary (.postfixed primary before))).append ((single (.name named)).behind [dot])

theorem spread_unification (h : Unification revision n ts e) : Spread revision ts (inExpr e) := by
  cases h with
  | unification first conjuncts =>
    rcases conjuncts.last with ⟨rfl, rfl⟩ | ⟨us, ampersand, vs, inner, right, m, rfl, before, operand, rfl⟩
    · rw [List.append_nil]
      exact spread_unary first
    · rw [← List.append_assoc]
      exact (single (.unification (.unification first before))).append ((single (.unary operand)).behind [ampersand])

theorem spread_expression (h : Expression revision n ts e) : Spread revision ts (inExpr e) := by
  cases h with
  | disjunction first alternatives =>
    rcases alternatives.last with ⟨rfl, rfl⟩ | ⟨us, bar, vs, inner, right, m, rfl, before, operand, rfl⟩
    · rw [List.append_nil]
      exact spread_unification first
    · rw [← List.append_assoc]
      exact (single (.expr (.disjunction first before))).append ((single (.unification operand)).behind [bar])

theorem spread_field {d : Decl} (h : FieldDecl revision n ts d) : Spread revision ts (children (.decl d)) := by
  cases h with
  | @field _ name colon mark us label optional kind value labels _ _ read =>
    have value : ReadFrom revision us (.expr value) := by
      cases read with
      | expression value => exact .expr value
      | field field => exact .implied field
    exact (single (.label kind labels)).append (((single value).behind [colon]).behind mark)

/-- The children of a node are read from its tokens. -/
theorem ReadFrom.spread {node : Node} (h : ReadFrom revision ts node) : Spread revision ts node.children := by
  cases h with
  | name | label => exact .done
  | importing clause =>
    cases clause with
    | plain => exact .done
    | named isName _ => exact (single (.name (.ident isName))).before _
  | decl declaration =>
    cases declaration with
    | field field => exact spread_field field
    | embed value => exact single (.expr value)
  | expr expression => exact spread_expression expression
  | implied field => exact single (.decl (.field field))

end Node

/-- The nodes that stand directly in a file. -/
def File.roots (f : File) : List Node :=
  f.package.toList.map .name ++ f.imports.map .importing ++ f.decls.map .decl

/-- The nodes of a file. -/
inductive File.Has (f : File) : Node → Prop
  | root {node : Node} : node ∈ f.roots → Has f node
  | child {parent node : Node} : Has f parent → node ∈ parent.children → Has f node

theorem Grammar.ImportDecl.spread {revision : Revision} {ts : List Token} {imports : List Import}
    (h : ImportDecl ts imports) : Node.Spread revision ts (imports.map .importing) := by
  cases h with
  | single _ clause => exact (Node.Spread.single (.importing clause)).behind [_]
  | @group word opening _ commas _ _ _ _ each =>
    exact ((Node.Spread.pieces fun p member => .importing (each p member)).behind (word :: opening :: commas)).before _

theorem Grammar.File.spread {revision : Revision} {n : Nat} {tokens : List Token} {tree : Syntax.File}
    (h : Grammar.File revision n tokens tree) : Node.Spread revision tokens tree.roots := by
  cases h with
  | @file commas package name imports decls finish _ clause areImports _ areDecls _ _ =>
    have named : Node.Spread revision package (name.toList.map .name) := by
      cases clause with
      | absent => exact .done
      | @present word _ _ _ _ isName _ => exact ((Node.Spread.single (.name (.ident isName))).before _).behind [word]
    have imported : Node.Spread revision (written imports) ((trees imports).flatten.map .importing) := by
      rw [← List.flatMap_id, List.map_flatMap]
      exact .written fun p member => (areImports p member).spread
    have declared : Node.Spread revision (written decls) ((trees decls).map .decl) :=
      .pieces fun p member => .decl (areDecls p member)
    exact (((named.append imported).append declared).behind commas).before [finish]

/-- Every node of a file is read from some of its tokens. -/
theorem File.Has.exists_tokens {revision : Revision} {tokens : List Token} {f : File} {node : Node}
    (roots : Node.Spread revision tokens f.roots) (h : f.Has node) :
    ∃ before ts after, tokens = before ++ ts ++ after ∧ node.ReadFrom revision ts := by
  induction h with
  | root member => exact roots.exists_part member
  | child _ member ih =>
    obtain ⟨before, ts, after, rfl, read⟩ := ih
    obtain ⟨before', part, after', rfl, read'⟩ := read.spread.exists_part member
    exact ⟨before ++ before', part, after' ++ after, by simp, read'⟩

end StackLattice.Syntax
