import Mathlib.Data.List.Forall2
import StackLattice.Proofs.Syntax.Bare
import StackLattice.Proofs.Syntax.Completeness

/-!
Ways of writing a body. A label is given two struct literals by two fields, by one field with both, or by one field
with a literal of all their declarations; and the declarations of an embedded literal may stand there without it.
-/

namespace StackLattice.Syntax

/-- Whether a struct literal is among the conjuncts that a value is split into. -/
def Expr.hasLiteral : Expr → Bool
  | .struct _ _ => true
  | .paren inner _ => inner.hasLiteral
  | .binary .unify left right => left.hasLiteral || right.hasLiteral
  | _ => false

mutual

/-- Whether declarations, or those of a literal that is embedded among them, give a label a struct literal. -/
def Decl.openAny (name : String) : List Decl → Bool
  | [] => false
  | .field label _ _ _ value :: decls => (label.name == name && value.hasLiteral) || Decl.openAny name decls
  | .embed value :: decls => value.opens name || Decl.openAny name decls

def Expr.opens (name : String) : Expr → Bool
  | .struct decls _ => Decl.openAny name decls
  | .paren inner _ => inner.opens name
  | .binary .unify left right => left.opens name || right.opens name
  | _ => false

end

mutual

/-- The same expression but for places, with bodies in it written in other ways. -/
inductive Expr.Recast : Expr → Expr → Prop
  | null (span span' : Span) : Expr.Recast (.null span) (.null span')
  | bool (b : Bool) (span span' : Span) : Expr.Recast (.bool b span) (.bool b span')
  | int (n : Nat) (span span' : Span) : Expr.Recast (.int n span) (.int n span')
  | float (x : Decimal.Binary64) (span span' : Span) : Expr.Recast (.float x span) (.float x span')
  | string (s : String) (span span' : Span) : Expr.Recast (.string s span) (.string s span')
  | ident (name : String) (span span' : Span) : Expr.Recast (.ident ⟨name, span⟩) (.ident ⟨name, span'⟩)
  | select {base base' : Expr} (field : String) (span span' : Span) (h : Expr.Recast base base') :
    Expr.Recast (.select base ⟨field, span⟩) (.select base' ⟨field, span'⟩)
  | struct {decls decls' : List Decl} (span span' : Span) (h : Decl.RecastAll decls decls') :
    Expr.Recast (.struct decls span) (.struct decls' span')
  | list {items items' : List Expr} (span span' : Span) (h : Expr.RecastAll items items') :
    Expr.Recast (.list items span) (.list items' span')
  | unary {operand operand' : Expr} (op : UnaryOp) (span span' : Span) (h : Expr.Recast operand operand') :
    Expr.Recast (.unary op operand span) (.unary op operand' span')
  | binary {left left' right right' : Expr} (op : BinaryOp) (h : Expr.Recast left left')
    (h' : Expr.Recast right right') : Expr.Recast (.binary op left right) (.binary op left' right')
  | paren {inner inner' : Expr} (span span' : Span) (h : Expr.Recast inner inner') :
    Expr.Recast (.paren inner span) (.paren inner' span')

inductive Expr.RecastAll : List Expr → List Expr → Prop
  | nil : Expr.RecastAll [] []
  | cons {e e' : Expr} {es es' : List Expr} (first : Expr.Recast e e') (rest : Expr.RecastAll es es') :
    Expr.RecastAll (e :: es) (e' :: es')

/-- The same declarations but for places and comments, with bodies in them and these themselves written in other
    ways. -/
inductive Decl.RecastAll : List Decl → List Decl → Prop
  | nil : Decl.RecastAll [] []
  | field {decls decls' : List Decl} {value value' : Expr} (name : String) (kind : LabelKind) (optional : Bool)
    (at_ at_' span span' : Span) (doc doc' : List Comment) (first : Expr.Recast value value')
    (rest : Decl.RecastAll decls decls') :
    Decl.RecastAll (.field ⟨name, kind, at_⟩ optional doc span value :: decls)
      (.field ⟨name, kind, at_'⟩ optional doc' span' value' :: decls')
  | embed {decls decls' : List Decl} {value value' : Expr} (first : Expr.Recast value value')
    (rest : Decl.RecastAll decls decls') : Decl.RecastAll (.embed value :: decls) (.embed value' :: decls')
  /-- The declarations of an embedded literal stand for it. -/
  | spliced {inside decls decls' : List Decl} (span : Span) (rest : Decl.RecastAll (inside ++ decls) decls') :
    Decl.RecastAll (.embed (.struct inside span) :: decls) decls'
  /-- One literal with the declarations of both stands for two literals. -/
  | merged {first last decls decls' : List Decl} {label : Label} {optional : Bool} {doc : List Comment}
    {span span₁ span₂ : Span} (all : Span)
    (rest : Decl.RecastAll (.field label optional doc span (.struct (first ++ last) all) :: decls) decls') :
    Decl.RecastAll
      (.field label optional doc span (.binary .unify (.struct first span₁) (.struct last span₂)) :: decls) decls'
  /-- One field with both literals stands for two fields, in the place of the first. The second field may be further
      down if no literal for the label stands between them, whose declarations would come between theirs. -/
  | joined {first last decls decls' : List Decl} {label label' : Label} {optional : Bool}
    {doc doc' : List Comment} {span span' span₁ span₂ : Span} (between : List Decl) (again : label'.name = label.name)
    (closed : Decl.openAny label.name between = false)
    (rest : Decl.RecastAll
      (.field label optional doc span (.binary .unify (.struct first span₁) (.struct last span₂)) ::
        (between ++ decls)) decls') :
    Decl.RecastAll
      (.field label optional doc span (.struct first span₁) ::
        (between ++ .field label' optional doc' span' (.struct last span₂) :: decls)) decls'

end

mutual

theorem Expr.Recast.refl (e : Expr) : e.Recast e := by
  match e with
  | .null _ => exact .null _ _
  | .bool b _ => exact .bool b _ _
  | .int n _ => exact .int n _ _
  | .float x _ => exact .float x _ _
  | .string s _ => exact .string s _ _
  | .ident name => exact .ident name.name _ _
  | .select base field => exact .select field.name _ _ (.refl base)
  | .struct decls _ => exact .struct _ _ (.refl decls)
  | .list items _ => exact .list _ _ (.refl items)
  | .unary op operand _ => exact .unary op _ _ (.refl operand)
  | .binary op left right => exact .binary op (.refl left) (.refl right)
  | .paren inner _ => exact .paren _ _ (.refl inner)

theorem Expr.RecastAll.refl (es : List Expr) : Expr.RecastAll es es := by
  match es with
  | [] => exact .nil
  | e :: es => exact .cons (.refl e) (.refl es)

theorem Decl.RecastAll.refl (decls : List Decl) : Decl.RecastAll decls decls := by
  match decls with
  | [] => exact .nil
  | .field label optional _ _ value :: decls =>
    exact .field label.name label.kind optional _ _ _ _ _ _ (.refl value) (.refl decls)
  | .embed value :: decls => exact .embed (.refl value) (.refl decls)

end

mutual

/-- What differs in places only is written in the same way. -/
theorem Expr.recast_of_bare {e e' : Expr} (same : e.bare = e'.bare) : e.Recast e' := by
  match e with
  | .null _ =>
    cases e' with
    | null => exact .null _ _
    | _ => cases same
  | .bool _ _ =>
    cases e' with
    | bool =>
      cases same
      exact .bool _ _ _
    | _ => cases same
  | .int _ _ =>
    cases e' with
    | int =>
      cases same
      exact .int _ _ _
    | _ => cases same
  | .float _ _ =>
    cases e' with
    | float =>
      cases same
      exact .float _ _ _
    | _ => cases same
  | .string _ _ =>
    cases e' with
    | string =>
      cases same
      exact .string _ _ _
    | _ => cases same
  | .ident ⟨name, _⟩ =>
    cases e' with
    | ident i =>
      obtain ⟨name', _⟩ := i
      cases same
      exact .ident _ _ _
    | _ => cases same
  | .select base ⟨field, _⟩ =>
    cases e' with
    | select base' i =>
      obtain ⟨field', _⟩ := i
      obtain ⟨inner, named⟩ := Expr.select.inj same
      cases named
      exact .select _ _ _ (Expr.recast_of_bare inner)
    | _ => cases same
  | .struct decls _ =>
    cases e' with
    | struct decls' _ => exact .struct _ _ (Decl.recastAll_of_bare (Expr.struct.inj same).1)
    | _ => cases same
  | .list items _ =>
    cases e' with
    | list items' _ => exact .list _ _ (Expr.recastAll_of_bare (Expr.list.inj same).1)
    | _ => cases same
  | .unary op operand _ =>
    cases e' with
    | unary op' operand' _ =>
      obtain ⟨rfl, inner, -⟩ := Expr.unary.inj same
      exact .unary _ _ _ (Expr.recast_of_bare inner)
    | _ => cases same
  | .binary op left right =>
    cases e' with
    | binary op' left' right' =>
      obtain ⟨rfl, first, last⟩ := Expr.binary.inj same
      exact .binary _ (Expr.recast_of_bare first) (Expr.recast_of_bare last)
    | _ => cases same
  | .paren inner _ =>
    cases e' with
    | paren inner' _ => exact .paren _ _ (Expr.recast_of_bare (Expr.paren.inj same).1)
    | _ => cases same

theorem Expr.recastAll_of_bare {es es' : List Expr} (same : Expr.bareAll es = Expr.bareAll es') :
    Expr.RecastAll es es' := by
  match es with
  | [] =>
    cases es' with
    | nil => exact .nil
    | cons => cases same
  | e :: es =>
    cases es' with
    | nil => cases same
    | cons e' es' =>
      obtain ⟨first, rest⟩ := List.cons.inj same
      exact .cons (Expr.recast_of_bare first) (Expr.recastAll_of_bare rest)

theorem Decl.recastAll_of_bare {decls decls' : List Decl} (same : Decl.bareAll decls = Decl.bareAll decls') :
    Decl.RecastAll decls decls' := by
  match decls with
  | [] =>
    cases decls' with
    | nil => exact .nil
    | cons => cases same
  | .field ⟨name, kind, _⟩ optional _ _ value :: decls =>
    cases decls' with
    | nil => cases same
    | cons decl' decls' =>
      cases decl' with
      | embed => cases (List.cons.inj same).1
      | field label' =>
        obtain ⟨first, rest⟩ := List.cons.inj same
        obtain ⟨name', kind', _⟩ := label'
        obtain ⟨named, rfl, -, -, inner⟩ := Decl.field.inj first
        cases named
        exact .field _ _ _ _ _ _ _ _ _ (Expr.recast_of_bare inner) (Decl.recastAll_of_bare rest)
  | .embed value :: decls =>
    cases decls' with
    | nil => cases same
    | cons decl' decls' =>
      cases decl' with
      | field => cases (List.cons.inj same).1
      | embed value' =>
        obtain ⟨first, rest⟩ := List.cons.inj same
        exact .embed (Expr.recast_of_bare (Decl.embed.inj first)) (Decl.recastAll_of_bare rest)

end
theorem Expr.RecastAll.forall₂ {es es' : List Expr} (h : Expr.RecastAll es es') : List.Forall₂ Expr.Recast es es' := by
  match h with
  | .nil => exact .nil
  | .cons first rest => exact .cons first (forall₂ rest)

section Nested

open Grammar

variable {revision : Revision}

/-- The tokens of a field are read as one field only. -/
theorem Grammar.FieldDecl.unique {n n' : Nat} {ts : List Token} {d d' : Decl} (h : FieldDecl revision n ts d)
    (h' : FieldDecl revision n' ts d') : d = d' := by
  let c : Cursor := ⟨[], ⟨.eof, default, []⟩⟩
  have first := (Level.complete revision n (max n n')).field (c := c) h rfl
  have last := (Level.complete revision n' (max n n')).field (c := c) h' rfl
  rcases first with read | ⟨impossible, _⟩
  · rcases last with again | ⟨impossible, _⟩
    · exact congrArg Prod.fst (Except.ok.inj (read.symm.trans again))
    · exact absurd impossible (Nat.not_lt_of_le (Nat.le_max_right n n'))
  · exact absurd impossible (Nat.not_lt_of_le (Nat.le_max_left n n'))

/-- What a field starts with, its colon included. -/
inductive FieldHead (revision : Revision) : List Token → Prop
  | intro {name colon : Token} {mark : List Token} {label : Label} {optional : Bool} {kind : LabelKind} :
    Labels name label → Mark mark optional → Colon revision label.kind colon kind →
    FieldHead revision (name :: mark ++ [colon])

/-- The same tokens in braces, perhaps on lines of their own. -/
inductive Braced (ts : List Token) : List Token → Prop
  | intro {opening closing : Token} {before after : List Token} : opening.kind = .leftBrace → Commas before →
    Commas after → closing.kind = .rightBrace → Braced ts (opening :: before ++ (ts ++ after) ++ [closing])

/-- `a: b: v` and `a: { b: v }` are fields that differ in places only, in front of whatever declarations. -/
theorem recastAll_braced {n n' k : Nat} {head ts us : List Token} {inner d d' : Decl} (starts : FieldHead revision head)
    (field : FieldDecl revision k ts inner) (braced : Braced ts us) (h : FieldDecl revision n (head ++ ts) d)
    (h' : FieldDecl revision n' (head ++ us) d') {decls decls' : List Decl} (rest : Decl.RecastAll decls decls') :
    Decl.RecastAll (d :: decls) (d' :: decls') := by
  obtain ⟨labels, mark, colon⟩ := starts
  obtain @⟨opening, closing, before, after, opens, first, last, closes⟩ := braced
  rw [List.append_assoc] at h h'
  have pieces : ∀ p ∈ [(⟨ts, after, inner⟩ : Piece Decl)], Declaration revision (k + 1) p.tokens p.tree :=
    List.forall_mem_singleton.mpr (.field field)
  have struct := Primary.struct opens first pieces ⟨⟨last, fun _ => rfl⟩, trivial⟩ closes
  have value : FieldValue revision _ _ _ :=
    .expression (.disjunction (.unification (.postfixed struct .done) .done) .done)
  simp only [written, List.flatMap_cons, List.flatMap_nil, List.append_nil] at value
  rw [h.unique (.field labels mark colon (.field field)), h'.unique (.field labels mark colon value)]
  exact .field _ _ _ _ _ _ _ _ _ (.struct _ _ (.refl [inner])) rest

end Nested

end StackLattice.Syntax
