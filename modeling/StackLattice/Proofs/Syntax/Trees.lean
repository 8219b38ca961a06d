import StackLattice.Syntax.Tree

/-!
Syntax trees as a whole: without comments and with their spans moved, and conditions on every expression and every label.
-/

namespace StackLattice.Syntax

def Ident.redrawn (move : Span → Span) (i : Ident) : Ident := { i with span := move i.span }

def Label.redrawn (move : Span → Span) (l : Label) : Label := { l with span := move l.span }

mutual

def Expr.redrawn (move : Span → Span) : Expr → Expr
  | .null span => .null (move span)
  | .bool b span => .bool b (move span)
  | .int n span => .int n (move span)
  | .float x span => .float x (move span)
  | .string s span => .string s (move span)
  | .ident name => .ident (name.redrawn move)
  | .select base field => .select (base.redrawn move) (field.redrawn move)
  | .struct decls span => .struct (Decl.redrawnAll move decls) (move span)
  | .list items span => .list (Expr.redrawnAll move items) (move span)
  | .unary op operand span => .unary op (operand.redrawn move) (move span)
  | .binary op left right => .binary op (left.redrawn move) (right.redrawn move)
  | .paren inner span => .paren (inner.redrawn move) (move span)

def Expr.redrawnAll (move : Span → Span) : List Expr → List Expr
  | [] => []
  | e :: es => e.redrawn move :: Expr.redrawnAll move es

/-- A declaration without comments and with its spans moved. -/
def Decl.redrawn (move : Span → Span) : Decl → Decl
  | .field label optional _ span value => .field (label.redrawn move) optional [] (move span) (value.redrawn move)
  | .embed value => .embed (value.redrawn move)

def Decl.redrawnAll (move : Span → Span) : List Decl → List Decl
  | [] => []
  | decl :: decls => decl.redrawn move :: Decl.redrawnAll move decls

end

variable (p : Expr → Prop) (q : Label → Prop)

mutual

def Expr.Everywhere : Expr → Prop
  | .select base field => p (.select base field) ∧ Expr.Everywhere base
  | .struct decls span => p (.struct decls span) ∧ Decl.EverywhereAll decls
  | .list items span => p (.list items span) ∧ Expr.EverywhereAll items
  | .unary op operand span => p (.unary op operand span) ∧ Expr.Everywhere operand
  | .binary op left right => p (.binary op left right) ∧ Expr.Everywhere left ∧ Expr.Everywhere right
  | .paren inner span => p (.paren inner span) ∧ Expr.Everywhere inner
  | e => p e

def Expr.EverywhereAll : List Expr → Prop
  | [] => True
  | e :: es => Expr.Everywhere e ∧ Expr.EverywhereAll es

def Decl.Everywhere : Decl → Prop
  | .field label _ _ _ value => q label ∧ Expr.Everywhere value
  | .embed value => Expr.Everywhere value

def Decl.EverywhereAll : List Decl → Prop
  | [] => True
  | decl :: decls => Decl.Everywhere decl ∧ Decl.EverywhereAll decls

end

variable {p : Expr → Prop} {q : Label → Prop}

theorem Expr.everywhereAll_iff (es : List Expr) :
    Expr.EverywhereAll p q es ↔ ∀ e ∈ es, e.Everywhere p q := by
  induction es with
  | nil => simp [Expr.EverywhereAll]
  | cons e es ih => rw [Expr.EverywhereAll, ih, List.forall_mem_cons]

section Families

variable {ι : Type} {P : ι → Expr → Prop} {Q : ι → Label → Prop}

mutual

/-- What follows from conditions holds everywhere if each of them does. -/
theorem Expr.everywhere_of_family (expr : ∀ e, (∀ i, P i e) → p e) (label : ∀ l, (∀ i, Q i l) → q l)
    {e : Expr} (h : ∀ i, e.Everywhere (P i) (Q i)) : e.Everywhere p q := by
  match e with
  | .select _ _ => exact ⟨expr _ fun i => (h i).1, Expr.everywhere_of_family expr label fun i => (h i).2⟩
  | .struct _ _ => exact ⟨expr _ fun i => (h i).1, Decl.everywhereAll_of_family expr label fun i => (h i).2⟩
  | .list _ _ => exact ⟨expr _ fun i => (h i).1, Expr.everywhereAll_of_family expr label fun i => (h i).2⟩
  | .unary _ _ _ => exact ⟨expr _ fun i => (h i).1, Expr.everywhere_of_family expr label fun i => (h i).2⟩
  | .binary _ _ _ =>
    exact ⟨expr _ fun i => (h i).1, Expr.everywhere_of_family expr label fun i => (h i).2.1,
      Expr.everywhere_of_family expr label fun i => (h i).2.2⟩
  | .paren _ _ => exact ⟨expr _ fun i => (h i).1, Expr.everywhere_of_family expr label fun i => (h i).2⟩
  | .null _ | .bool _ _ | .int _ _ | .float _ _ | .string _ _ | .ident _ => exact expr _ h

theorem Expr.everywhereAll_of_family (expr : ∀ e, (∀ i, P i e) → p e) (label : ∀ l, (∀ i, Q i l) → q l)
    {es : List Expr} (h : ∀ i, Expr.EverywhereAll (P i) (Q i) es) : Expr.EverywhereAll p q es := by
  match es with
  | [] => trivial
  | _ :: _ =>
    exact ⟨Expr.everywhere_of_family expr label fun i => (h i).1,
      Expr.everywhereAll_of_family expr label fun i => (h i).2⟩

theorem Decl.everywhere_of_family (expr : ∀ e, (∀ i, P i e) → p e) (label : ∀ l, (∀ i, Q i l) → q l)
    {decl : Decl} (h : ∀ i, decl.Everywhere (P i) (Q i)) : decl.Everywhere p q := by
  match decl with
  | .field _ _ _ _ _ => exact ⟨label _ fun i => (h i).1, Expr.everywhere_of_family expr label fun i => (h i).2⟩
  | .embed _ => exact Expr.everywhere_of_family expr label h

theorem Decl.everywhereAll_of_family (expr : ∀ e, (∀ i, P i e) → p e) (label : ∀ l, (∀ i, Q i l) → q l)
    {decls : List Decl} (h : ∀ i, Decl.EverywhereAll (P i) (Q i) decls) : Decl.EverywhereAll p q decls := by
  match decls with
  | [] => trivial
  | _ :: _ =>
    exact ⟨Decl.everywhere_of_family expr label fun i => (h i).1,
      Decl.everywhereAll_of_family expr label fun i => (h i).2⟩

end

end Families

end StackLattice.Syntax
