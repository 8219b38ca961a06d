import Mathlib.Data.List.Forall2
import StackLattice.Proofs.Syntax.Grammar
import StackLattice.Proofs.Syntax.Trees

/-!
Trees without the places they stand at. Tokens of the same kinds have the same derivations, and these have the same
trees but for places and comments.
-/

namespace StackLattice.Syntax

open Grammar

def Ident.bare (i : Ident) : Ident := ⟨i.name, default⟩

def Label.bare (l : Label) : Label := { l with span := default }

mutual

/-- An expression at no place. -/
def Expr.bare : Expr → Expr
  | .null _ => .null default
  | .bool b _ => .bool b default
  | .int n _ => .int n default
  | .float x _ => .float x default
  | .string s _ => .string s default
  | .ident name => .ident name.bare
  | .select base field => .select base.bare field.bare
  | .struct decls _ => .struct (Decl.bareAll decls) default
  | .list items _ => .list (Expr.bareAll items) default
  | .unary op operand _ => .unary op operand.bare default
  | .binary op left right => .binary op left.bare right.bare
  | .paren inner _ => .paren inner.bare default

def Expr.bareAll : List Expr → List Expr
  | [] => []
  | e :: es => e.bare :: Expr.bareAll es

/-- A declaration at no place and without comments. -/
def Decl.bare : Decl → Decl
  | .field label optional _ _ value => .field label.bare optional [] default value.bare
  | .embed value => .embed value.bare

def Decl.bareAll : List Decl → List Decl
  | [] => []
  | decl :: decls => decl.bare :: Decl.bareAll decls

end

theorem Expr.bareAll_eq_map (es : List Expr) : Expr.bareAll es = es.map Expr.bare := by
  induction es with
  | nil => rfl
  | cons e es ih => rw [Expr.bareAll, ih, List.map_cons]

theorem Decl.bareAll_eq_map (decls : List Decl) : Decl.bareAll decls = decls.map Decl.bare := by
  induction decls with
  | nil => rfl
  | cons decl decls ih => rw [Decl.bareAll, ih, List.map_cons]

mutual

theorem Expr.redrawn_bare (e : Expr) : e.redrawn (fun _ => default) = e.bare := by
  match e with
  | .null _ | .bool _ _ | .int _ _ | .float _ _ | .string _ _ | .ident _ => rfl
  | .select base _ => rw [Expr.redrawn, Expr.bare, base.redrawn_bare]; rfl
  | .struct decls _ => rw [Expr.redrawn, Expr.bare, Decl.redrawnAll_bare]
  | .list items _ => rw [Expr.redrawn, Expr.bare, Expr.redrawnAll_bare]
  | .unary _ operand _ => rw [Expr.redrawn, Expr.bare, operand.redrawn_bare]
  | .binary _ left right => rw [Expr.redrawn, Expr.bare, left.redrawn_bare, right.redrawn_bare]
  | .paren inner _ => rw [Expr.redrawn, Expr.bare, inner.redrawn_bare]

theorem Expr.redrawnAll_bare (es : List Expr) : Expr.redrawnAll (fun _ => default) es = Expr.bareAll es := by
  match es with
  | [] => rfl
  | e :: es => rw [Expr.redrawnAll, Expr.bareAll, e.redrawn_bare, Expr.redrawnAll_bare]

theorem Decl.redrawn_bare (decl : Decl) : decl.redrawn (fun _ => default) = decl.bare := by
  match decl with
  | .field _ _ _ _ value => rw [Decl.redrawn, Decl.bare, value.redrawn_bare]; rfl
  | .embed value => rw [Decl.redrawn, Decl.bare, value.redrawn_bare]

theorem Decl.redrawnAll_bare (decls : List Decl) : Decl.redrawnAll (fun _ => default) decls = Decl.bareAll decls := by
  match decls with
  | [] => rfl
  | decl :: decls => rw [Decl.redrawnAll, Decl.bareAll, decl.redrawn_bare, Decl.redrawnAll_bare]

end

/-- Tokens of the same kinds. -/
def Alike (ts ts' : List Token) : Prop := ts.map (·.kind) = ts'.map (·.kind)

namespace Alike

variable {t : Token} {ts us ts' : List Token}

theorem refl (ts : List Token) : Alike ts ts := rfl

theorem nil (h : Alike [] ts') : ts' = [] := List.map_eq_nil_iff.mp h.symm

theorem cons (h : Alike (t :: ts) ts') : ∃ t' us, ts' = t' :: us ∧ t'.kind = t.kind ∧ Alike ts us := by
  cases ts' with
  | nil => cases h
  | cons t' us =>
    obtain ⟨kind, others⟩ := List.cons.inj h
    exact ⟨t', us, rfl, kind.symm, others⟩

theorem append (h : Alike (ts ++ us) ts') : ∃ ts₁ ts₂, ts' = ts₁ ++ ts₂ ∧ Alike ts ts₁ ∧ Alike us ts₂ := by
  unfold Alike at h
  rw [List.map_append] at h
  obtain ⟨ts₁, ts₂, rfl, first, last⟩ := List.map_eq_append_iff.mp h.symm
  exact ⟨ts₁, ts₂, rfl, first.symm, last.symm⟩

theorem both {us' : List Token} (first : Alike ts ts') (last : Alike us us') : Alike (ts ++ us) (ts' ++ us') := by
  unfold Alike at first last ⊢
  rw [List.map_append, List.map_append, first, last]

theorem single (h : Alike [t] ts') : ∃ t', ts' = [t'] ∧ t'.kind = t.kind := by
  obtain ⟨t', us, rfl, kind, none⟩ := h.cons
  cases none.nil
  exact ⟨t', rfl, kind⟩

theorem commas (h : Alike ts ts') (commas : Commas ts) : Commas ts' := by
  induction ts generalizing ts' with
  | nil =>
    cases h.nil
    exact commas
  | cons t ts ih =>
    obtain ⟨t', us, rfl, kind, others⟩ := h.cons
    obtain ⟨first, commas⟩ := List.forall_mem_cons.mp commas
    exact List.forall_mem_cons.mpr ⟨kind ▸ first, ih others commas⟩

theorem eq_nil_iff (h : Alike ts ts') : ts = [] ↔ ts' = [] := by
  rw [← List.map_eq_nil_iff (f := (·.kind)), h, List.map_eq_nil_iff]

end Alike

/-- Pieces of the same kinds, whose trees are the same in some respect. -/
structure PieceAlike {α β : Type} (f : α → β) (p p' : Piece α) : Prop where
  tokens : Alike p.tokens p'.tokens
  commas : Alike p.commas p'.commas
  tree : f p.tree = f p'.tree

section Pieces

variable {α β : Type} {f : α → β} {pieces pieces' : List (Piece α)}

theorem exists_pieces {derives : List Token → α → Prop} {us : List Token} (h : Alike (written pieces) us)
    (each : ∀ p ∈ pieces, ∀ ts, Alike p.tokens ts → ∃ tree, derives ts tree ∧ f p.tree = f tree) :
    ∃ pieces', us = written pieces' ∧ (∀ p ∈ pieces', derives p.tokens p.tree) ∧
      List.Forall₂ (PieceAlike f) pieces pieces' := by
  induction pieces generalizing us with
  | nil => exact ⟨[], h.nil, List.forall_mem_nil _, .nil⟩
  | cons p ps ih =>
    rw [written_cons] at h
    obtain ⟨here, others, rfl, alike, rest⟩ := h.append
    obtain ⟨ts, commas, rfl, tokens, commasAlike⟩ := alike.append
    obtain ⟨tree, derived, same⟩ := each p List.mem_cons_self ts tokens
    obtain ⟨ps', rfl, all, pairs⟩ := ih rest fun q member => each q (List.mem_cons_of_mem p member)
    exact ⟨⟨ts, commas, tree⟩ :: ps', rfl, List.forall_mem_cons.mpr ⟨derived, all⟩,
      .cons ⟨tokens, commasAlike, same⟩ pairs⟩

theorem trees_alike (h : List.Forall₂ (PieceAlike f) pieces pieces') :
    (trees pieces).map f = (trees pieces').map f := by
  induction h with
  | nil => rfl
  | cons first _ ih =>
    simp only [trees, List.map_cons] at ih ⊢
    rw [first.tree, ih]

theorem written_alike (h : List.Forall₂ (PieceAlike f) pieces pieces') : Alike (written pieces) (written pieces') := by
  induction h with
  | nil => rfl
  | cons first _ ih => exact (first.tokens.both first.commas).both ih

theorem separator_alike {commas commas' follows follows' : List Token} (alike : Alike commas commas')
    (same : Alike follows follows') (h : Separator commas follows) : Separator commas' follows' :=
  ⟨alike.commas h.1, fun none => same.eq_nil_iff.mp (h.2 (alike.eq_nil_iff.mpr none))⟩

theorem separated_alike {follows follows' : List Token} (h : List.Forall₂ (PieceAlike f) pieces pieces')
    (same : Alike follows follows') (separated : Separated follows pieces) : Separated follows' pieces' := by
  induction h with
  | nil => trivial
  | cons first rest ih =>
    exact ⟨separator_alike first.commas ((written_alike rest).both same) separated.1, ih separated.2⟩

end Pieces

section Trees

theorem bare_binary (op : BinaryOp) {left left' right right' : Expr} (first : left.bare = left'.bare)
    (second : right.bare = right'.bare) : (Expr.binary op left right).bare = (Expr.binary op left' right').bare := by
  rw [Expr.bare, Expr.bare, first, second]

theorem bare_select {base base' : Expr} {name : String} {span : Span} (same : base.bare = base'.bare)
    (span' : Span) : (Expr.select base ⟨name, span⟩).bare = (Expr.select base' ⟨name, span'⟩).bare := by
  rw [Expr.bare, Expr.bare, same]
  rfl

theorem leaf_alike {t t' : Token} {e : Expr} (kind : t'.kind = t.kind) (h : Leaf t e) :
    ∃ e', Leaf t' e' ∧ e.bare = e'.bare := by
  cases h with
  | null is => exact ⟨_, .null (kind.trans is), rfl⟩
  | true is => exact ⟨_, .true (kind.trans is), rfl⟩
  | false is => exact ⟨_, .false (kind.trans is), rfl⟩
  | int is => exact ⟨_, .int (kind.trans is), rfl⟩
  | float is => exact ⟨_, .float (kind.trans is), rfl⟩
  | string is => exact ⟨_, .string (kind.trans is), rfl⟩
  | ident is => exact ⟨_, .ident (kind.trans is), rfl⟩

theorem selected_alike {t t' : Token} {name : String} (kind : t'.kind = t.kind) (h : Selected t name) :
    Selected t' name := by
  cases h with
  | ident is => exact .ident (kind.trans is)
  | string is => exact .string (kind.trans is)

theorem labels_alike {t t' : Token} {l : Label} (kind : t'.kind = t.kind) (h : Labels t l) :
    ∃ l', Labels t' l' ∧ l.name = l'.name ∧ l.kind = l'.kind := by
  cases h with
  | name is named => exact ⟨_, .name (kind.trans is) named, rfl, rfl⟩
  | string is => exact ⟨_, .string (kind.trans is), rfl, rfl⟩

theorem mark_alike {ts ts' : List Token} {optional : Bool} (alike : Alike ts ts') (h : Mark ts optional) :
    Mark ts' optional := by
  cases h with
  | required =>
    cases alike.nil
    exact .required
  | optional is =>
    obtain ⟨t', rfl, kind⟩ := alike.single
    exact .optional (kind.trans is)

variable {revision : Revision}

theorem colon_alike {t t' : Token} {kind kind' : LabelKind} (same : t'.kind = t.kind)
    (h : Colon revision kind t kind') : Colon revision kind t' kind' := by
  cases h with
  | single is => exact .single (same.trans is)
  | double is legacy => exact .double (same.trans is) legacy

mutual

theorem Grammar.Expression.alike : ∀ {n : Nat} {ts ts' : List Token} {e : Expr},
    Expression revision n ts e → Alike ts ts' → ∃ e', Expression revision n ts' e' ∧ e.bare = e'.bare
  | _, _, _, _, .disjunction first rest => fun alike => by
    obtain ⟨_, _, rfl, ofFirst, ofRest⟩ := alike.append
    obtain ⟨first', derived, same⟩ := first.alike ofFirst
    obtain ⟨e', derived', same'⟩ := rest.alike same ofRest
    exact ⟨e', .disjunction derived derived', same'⟩

theorem Grammar.Disjoined.alike : ∀ {n : Nat} {left left' : Expr} {ts ts' : List Token} {e : Expr},
    Disjoined revision n left ts e → left.bare = left'.bare → Alike ts ts' →
      ∃ e', Disjoined revision n left' ts' e' ∧ e.bare = e'.bare
  | _, _, _, _, _, _, .done => fun same alike => by
    cases alike.nil
    exact ⟨_, .done, same⟩
  | _, _, _, _, _, _, .more bar next rest => fun same alike => by
    obtain ⟨_, _, rfl, ofNext, ofRest⟩ := alike.append
    obtain ⟨bar', _, rfl, kind, ofNext⟩ := ofNext.cons
    obtain ⟨right', derived, same'⟩ := next.alike ofNext
    obtain ⟨e', derived', last⟩ := rest.alike (bare_binary .disjoin same same') ofRest
    exact ⟨e', .more (kind.trans bar) derived derived', last⟩

theorem Grammar.Unification.alike : ∀ {n : Nat} {ts ts' : List Token} {e : Expr},
    Unification revision n ts e → Alike ts ts' → ∃ e', Unification revision n ts' e' ∧ e.bare = e'.bare
  | _, _, _, _, .unification first rest => fun alike => by
    obtain ⟨_, _, rfl, ofFirst, ofRest⟩ := alike.append
    obtain ⟨first', derived, same⟩ := first.alike ofFirst
    obtain ⟨e', derived', same'⟩ := rest.alike same ofRest
    exact ⟨e', .unification derived derived', same'⟩

theorem Grammar.Unified.alike : ∀ {n : Nat} {left left' : Expr} {ts ts' : List Token} {e : Expr},
    Unified revision n left ts e → left.bare = left'.bare → Alike ts ts' →
      ∃ e', Unified revision n left' ts' e' ∧ e.bare = e'.bare
  | _, _, _, _, _, _, .done => fun same alike => by
    cases alike.nil
    exact ⟨_, .done, same⟩
  | _, _, _, _, _, _, .more ampersand next rest => fun same alike => by
    obtain ⟨_, _, rfl, ofNext, ofRest⟩ := alike.append
    obtain ⟨ampersand', _, rfl, kind, ofNext⟩ := ofNext.cons
    obtain ⟨right', derived, same'⟩ := next.alike ofNext
    obtain ⟨e', derived', last⟩ := rest.alike (bare_binary .unify same same') ofRest
    exact ⟨e', .more (kind.trans ampersand) derived derived', last⟩

theorem Grammar.Unary.alike : ∀ {n : Nat} {ts ts' : List Token} {e : Expr},
    Unary revision n ts e → Alike ts ts' → ∃ e', Unary revision n ts' e' ∧ e.bare = e'.bare
  | _, _, _, _, .negated op operand => fun alike => by
    obtain ⟨op', _, rfl, kind, ofOperand⟩ := alike.cons
    obtain ⟨e', derived, same⟩ := operand.alike ofOperand
    exact ⟨_, .negated (kind.trans op) derived, by simp only [Expr.bare, same]⟩
  | _, _, _, _, .marked op operand => fun alike => by
    obtain ⟨op', _, rfl, kind, ofOperand⟩ := alike.cons
    obtain ⟨e', derived, same⟩ := operand.alike ofOperand
    exact ⟨_, .marked (kind.trans op) derived, by simp only [Expr.bare, same]⟩
  | _, _, _, _, .postfixed first rest => fun alike => by
    obtain ⟨_, _, rfl, ofFirst, ofRest⟩ := alike.append
    obtain ⟨first', derived, same⟩ := first.alike ofFirst
    obtain ⟨e', derived', same'⟩ := rest.alike same ofRest
    exact ⟨e', .postfixed derived derived', same'⟩

theorem Grammar.Selection.alike : ∀ {n : Nat} {base base' : Expr} {ts ts' : List Token} {e : Expr},
    Selection revision n base ts e → base.bare = base'.bare → Alike ts ts' →
      ∃ e', Selection revision n base' ts' e' ∧ e.bare = e'.bare
  | _, _, _, _, _, _, .done => fun same alike => by
    cases alike.nil
    exact ⟨_, .done, same⟩
  | _, _, _, _, _, _, .more dot name rest => fun same alike => by
    obtain ⟨dot', _, rfl, kind, ofName⟩ := alike.cons
    obtain ⟨name', _, rfl, kind', ofRest⟩ := ofName.cons
    obtain ⟨e', derived, last⟩ := rest.alike (bare_select same name'.span) ofRest
    exact ⟨e', .more (kind.trans dot) (selected_alike kind' name) derived, last⟩

theorem Grammar.Primary.alike : ∀ {n : Nat} {ts ts' : List Token} {e : Expr},
    Primary revision n ts e → Alike ts ts' → ∃ e', Primary revision n ts' e' ∧ e.bare = e'.bare
  | _, _, _, _, .leaf leaf => fun alike => by
    obtain ⟨t', rfl, kind⟩ := alike.single
    obtain ⟨e', leaf', same⟩ := leaf_alike kind leaf
    exact ⟨e', .leaf leaf', same⟩
  | _, _, _, _, .struct opens areCommas each separated closes => fun alike => by
    obtain ⟨_, _, rfl, inside, last⟩ := alike.append
    obtain ⟨closing, rfl, closed⟩ := last.single
    obtain ⟨_, _, rfl, head, ofPieces⟩ := inside.append
    obtain ⟨opening, commas, rfl, opened, ofCommas⟩ := head.cons
    obtain ⟨pieces', rfl, all, pairs⟩ := exists_pieces (f := Decl.bare) ofPieces fun p member ts alike =>
      (each p member).alike alike
    exact ⟨_, .struct (opened.trans opens) (ofCommas.commas areCommas) all
      (separated_alike pairs (.refl _) separated) (closed.trans closes),
      by simp only [Expr.bare, Decl.bareAll_eq_map, trees_alike pairs]⟩
  | _, _, _, _, .list opens areCommas each separated closes => fun alike => by
    obtain ⟨_, _, rfl, inside, last⟩ := alike.append
    obtain ⟨closing, rfl, closed⟩ := last.single
    obtain ⟨_, _, rfl, head, ofPieces⟩ := inside.append
    obtain ⟨opening, commas, rfl, opened, ofCommas⟩ := head.cons
    obtain ⟨pieces', rfl, all, pairs⟩ := exists_pieces (f := Expr.bare) ofPieces fun p member ts alike =>
      (each p member).alike alike
    exact ⟨_, .list (opened.trans opens) (ofCommas.commas areCommas) all
      (separated_alike pairs (.refl _) separated) (closed.trans closes),
      by simp only [Expr.bare, Expr.bareAll_eq_map, trees_alike pairs]⟩
  | _, _, _, _, .paren opens inner closes => fun alike => by
    obtain ⟨_, _, rfl, inside, last⟩ := alike.append
    obtain ⟨closing, rfl, closed⟩ := last.single
    obtain ⟨opening, _, rfl, opened, ofInner⟩ := inside.cons
    obtain ⟨e', derived, same⟩ := inner.alike ofInner
    exact ⟨_, .paren (opened.trans opens) derived (closed.trans closes), by simp only [Expr.bare, same]⟩

theorem Grammar.Declaration.alike : ∀ {n : Nat} {ts ts' : List Token} {decl : Decl},
    Declaration revision n ts decl → Alike ts ts' → ∃ decl', Declaration revision n ts' decl' ∧ decl.bare = decl'.bare
  | _, _, _, _, .field field => fun alike => by
    obtain ⟨decl', derived, same⟩ := field.alike alike
    exact ⟨decl', .field derived, same⟩
  | _, _, _, _, .embed value => fun alike => by
    obtain ⟨e', derived, same⟩ := value.alike alike
    exact ⟨_, .embed derived, by simp only [Decl.bare, same]⟩

theorem Grammar.FieldDecl.alike : ∀ {n : Nat} {ts ts' : List Token} {decl : Decl},
    FieldDecl revision n ts decl → Alike ts ts' → ∃ decl', FieldDecl revision n ts' decl' ∧ decl.bare = decl'.bare
  | _, _, _, _, .field labels mark colon value => fun alike => by
    obtain ⟨_, _, rfl, head, tail⟩ := alike.append
    obtain ⟨name, mark', rfl, kind, ofMark⟩ := head.cons
    obtain ⟨colon', _, rfl, kind', ofValue⟩ := tail.cons
    obtain ⟨label', labels', sameName, sameKind⟩ := labels_alike kind labels
    obtain ⟨e', derived, same⟩ := value.alike ofValue
    exact ⟨_, .field labels' (mark_alike ofMark mark) (colon_alike kind' (sameKind ▸ colon)) derived,
      by simp only [Decl.bare, Label.bare, sameName, same]⟩

theorem Grammar.FieldValue.alike : ∀ {n : Nat} {ts ts' : List Token} {e : Expr},
    FieldValue revision n ts e → Alike ts ts' → ∃ e', FieldValue revision n ts' e' ∧ e.bare = e'.bare
  | _, _, _, _, .expression value => fun alike => by
    obtain ⟨e', derived, same⟩ := value.alike alike
    exact ⟨e', .expression derived, same⟩
  | _, _, _, _, .field field => fun alike => by
    obtain ⟨decl', derived, same⟩ := field.alike alike
    exact ⟨_, .field derived, by simp only [Expr.bare, Decl.bareAll, same]⟩

end

end Trees

section Files

def Import.bare (i : Import) : Import := ⟨i.path, i.localAs.map Ident.bare, default⟩

theorem importClause_alike {ts ts' : List Token} {i : Import} (h : ImportClause ts i) (alike : Alike ts ts') :
    ∃ i', ImportClause ts' i' ∧ i.bare = i'.bare := by
  cases h with
  | plain is =>
    obtain ⟨path, rfl, kind⟩ := alike.single
    exact ⟨_, .plain (kind.trans is), rfl⟩
  | named isName isPath =>
    obtain ⟨name, _, rfl, kind, rest⟩ := alike.cons
    obtain ⟨path, rfl, kind'⟩ := rest.single
    exact ⟨_, .named (kind.trans isName) (kind'.trans isPath), rfl⟩

theorem importDecl_alike {ts ts' : List Token} {is : List Import} (h : ImportDecl ts is) (alike : Alike ts ts') :
    ∃ is', ImportDecl ts' is' ∧ is.map Import.bare = is'.map Import.bare := by
  cases h with
  | single importing clause =>
    obtain ⟨word, _, rfl, kind, rest⟩ := alike.cons
    obtain ⟨i', derived, same⟩ := importClause_alike clause rest
    exact ⟨[i'], .single (kind.trans importing) derived, by rw [List.map_singleton, List.map_singleton, same]⟩
  | group importing opens areCommas clauses separated closes =>
    obtain ⟨_, _, rfl, inside, last⟩ := alike.append
    obtain ⟨closing, rfl, closed⟩ := last.single
    obtain ⟨_, _, rfl, head, ofPieces⟩ := inside.append
    obtain ⟨word, _, rfl, kind, head⟩ := head.cons
    obtain ⟨opening, commas, rfl, opened, ofCommas⟩ := head.cons
    obtain ⟨pieces', rfl, all, pairs⟩ := exists_pieces (f := Import.bare) ofPieces fun p member ts alike =>
      importClause_alike (clauses p member) alike
    exact ⟨_, .group (kind.trans importing) (opened.trans opens) (ofCommas.commas areCommas) all
      (separated_alike pairs (.refl _) separated) (closed.trans closes), trees_alike pairs⟩

theorem packageClause_alike {ts ts' follows follows' : List Token} {name : Option Ident}
    (h : PackageClause follows ts name) (same : Alike follows follows') (alike : Alike ts ts') :
    ∃ name', PackageClause follows' ts' name' ∧ name.map Ident.bare = name'.map Ident.bare := by
  cases h with
  | absent =>
    cases alike.nil
    exact ⟨none, .absent, rfl⟩
  | present isWord isName separator =>
    obtain ⟨word, _, rfl, kind, rest⟩ := alike.cons
    obtain ⟨name, commas, rfl, kind', ofCommas⟩ := rest.cons
    exact ⟨_, .present (kind.trans isWord) (kind'.trans isName) (separator_alike ofCommas same separator), rfl⟩

/-- A file at no place and without comments. -/
def File.bare (f : File) : File := ⟨f.package.map Ident.bare, f.imports.map Import.bare, f.decls.map Decl.bare, [], []⟩

theorem Grammar.File.alike {revision : Revision} {n : Nat} {ts ts' : List Token} {f : Syntax.File}
    (h : Grammar.File revision n ts f) (alike : Alike ts ts') :
    ∃ f', Grammar.File revision n ts' f' ∧ f.bare = f'.bare := by
  cases h with
  | file areCommas isPackage areImports separated areDecls separated' eof =>
    obtain ⟨_, _, rfl, inside, last⟩ := alike.append
    obtain ⟨finish, rfl, ends⟩ := last.single
    obtain ⟨commas, _, rfl, ofCommas, parts⟩ := inside.append
    obtain ⟨_, _, rfl, head, ofDecls⟩ := parts.append
    obtain ⟨package, _, rfl, ofPackage, ofImports⟩ := head.append
    obtain ⟨imports, rfl, areImports', pairs⟩ := exists_pieces (f := (·.map Import.bare)) ofImports
      fun p member ts alike => importDecl_alike (areImports p member) alike
    obtain ⟨decls, rfl, areDecls', pairs'⟩ := exists_pieces (f := Decl.bare) ofDecls
      fun p member ts alike => (areDecls p member).alike alike
    obtain ⟨name, isPackage', same⟩ := packageClause_alike isPackage (ofImports.both ofDecls) ofPackage
    refine ⟨_, .file (ofCommas.commas areCommas) isPackage' areImports' (separated_alike pairs ofDecls separated)
      areDecls' (separated_alike pairs' (.refl _) separated') (ends.trans eof), ?_⟩
    simp only [File.bare, same, trees_alike pairs', List.map_flatten]
    rw [trees_alike pairs]

end Files

end StackLattice.Syntax
