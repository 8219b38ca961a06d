import StackLattice.Proofs.Evaluation.Merged

/-!
An expression as the value of a field and as a part of a value. A field takes the chain of conjunctions apart and
joins the struct literals of it; elsewhere the operands are evaluated one by one.
-/

namespace StackLattice

namespace Syntax

/-- The operands of a chain of conjunctions, from left to right. -/
def Expr.conjuncts : Expr → List Expr
  | .binary .unify left right => left.conjuncts ++ right.conjuncts
  | .paren inner _ => inner.conjuncts
  | e => [e]

def Expr.literal? : Expr → Option (List Decl)
  | .struct decls _ => some decls
  | _ => none

def Expr.literals (e : Expr) : List (List Decl) := e.conjuncts.filterMap Expr.literal?

def Expr.IsOperand : Expr → Prop
  | .binary .unify _ _ | .paren _ _ => False
  | _ => True

theorem Expr.isOperand_of_mem {e c : Expr} (member : c ∈ e.conjuncts) : c.IsOperand := by
  fun_induction Expr.conjuncts e with
  | case1 left right ihLeft ihRight => exact (List.mem_append.mp member).elim ihLeft ihRight
  | case2 inner span ih => exact ih member
  | case3 e notUnify notParen =>
    rw [List.mem_singleton.mp member]
    unfold IsOperand
    split
    · exact notUnify _ _ rfl
    · exact notParen _ _ rfl
    · trivial

theorem Expr.everywhere_of_mem {p : Expr → Prop} {q : Label → Prop} {e c : Expr} (h : e.Everywhere p q)
    (member : c ∈ e.conjuncts) : c.Everywhere p q := by
  fun_induction Expr.conjuncts e with
  | case1 left right ihLeft ihRight => exact (List.mem_append.mp member).elim (ihLeft h.2.1) (ihRight h.2.2)
  | case2 inner span ih => exact ih h.2 member
  | case3 e notUnify notParen =>
    rw [List.mem_singleton.mp member]
    exact h

end Syntax

namespace Evaluation

open Syntax (Expr Decl Label LabelKind ParsedFile)
open Value

variable {kinds : String → LabelKind} {file : ParsedFile}

theorem valueMentions_conjuncts (here : Trail) (label : String) (e : Expr) :
    valueMentions here label file e = e.conjuncts.flatMap (valueMentions here label file) := by
  fun_induction Expr.conjuncts e with
  | case1 left right ihLeft ihRight => rw [valueMentions, List.flatMap_append, ← ihLeft, ← ihRight]
  | case2 inner span ih => rw [valueMentions, ih]
  | case3 e notUnify notParen => rw [List.flatMap_singleton]

theorem valueMentions_operand {here : Trail} {label : String} {c : Expr} (operand : c.IsOperand)
    (plain : c.literal? = none) : valueMentions here label file c = [(here, .conjunct label c file)] := by
  cases c with
  | struct decls _ => cases plain
  | paren inner _ => cases operand
  | binary op left right =>
    cases op with
    | unify => cases operand
    | disjoin => rw [valueMentions] <;> simp
  | _ => rw [valueMentions] <;> simp

/-- What an operand of the value of a field says in the body that the field stands in. -/
def operandMention (label : String) (file : ParsedFile) (c : Expr) : Mention :=
  if c.literal?.isSome then .literal label else .conjunct label c file

section OperandMention

variable {label name : String} {c : Expr}

theorem about_operandMention : (operandMention label file c).about name = (label == name) := by
  unfold operandMention
  split <;> rfl

theorem conjunct?_operandMention :
    (operandMention label file c).conjunct? label = if c.literal?.isSome then none else some ⟨c, file⟩ := by
  unfold operandMention
  split
  · rfl
  · exact if_pos (beq_self_eq_true label)

theorem opens_operandMention : (operandMention label file c).opens label = c.literal?.isSome := by
  unfold operandMention
  split
  · rename_i literal
    exact (beq_self_eq_true label).trans literal.symm
  · rename_i plain
    exact (Bool.not_eq_true _ ▸ plain).symm

end OperandMention

theorem mentionsAt_operand_here {here : Trail} {label : String} {c : Expr} (operand : c.IsOperand) :
    mentionsAt here (valueMentions here label file c) = [operandMention label file c] := by
  unfold operandMention
  cases literal : c.literal? with
  | none =>
    rw [valueMentions_operand operand literal]
    exact mentionsAt_cons_self here _ []
  | some decls =>
    cases c <;> cases literal
    rw [valueMentions, mentionsAt_cons_self, ← List.nil_append (label :: here), (mentions_shifted file _).1]
    have none : mentionsAt here ((declsMentions [] file decls).map (shifted (label :: here))) = [] := by
      refine List.eq_nil_iff_forall_not_mem.mpr fun m member => ?_
      obtain ⟨m, _, same⟩ := List.mem_map.mp (mem_mentionsAt.mp member)
      have lengths := congrArg (List.length ·.1) same
      simp [shifted] at lengths
      omega
    rw [none]
    rfl

theorem mentionsAt_operand_inside {here : Trail} {label : String} {c : Expr} (operand : c.IsOperand) (trail : Trail) :
    mentionsAt (trail ++ label :: here) (valueMentions here label file c) =
      (c.literal?.map fun decls => mentionsAt trail (declsMentions [] file decls)).getD [] := by
  have longer : here ≠ trail ++ label :: here := by
    intro same
    have lengths := congrArg List.length same
    rw [List.length_append, List.length_cons] at lengths
    omega
  cases literal : c.literal? with
  | none =>
    rw [valueMentions_operand operand literal]
    exact mentionsAt_cons_of_ne longer _ []
  | some decls =>
    cases c <;> cases literal
    rw [valueMentions, mentionsAt_cons_of_ne longer, ← List.nil_append (label :: here), (mentions_shifted file _).1,
      List.nil_append, mentionsAt_shifted]
    rfl

theorem mentionsAt_flatMap {α : Type} (trail : Trail) (f : α → List (Trail × Mention)) (xs : List α) :
    mentionsAt trail (xs.flatMap f) = xs.flatMap fun x => mentionsAt trail (f x) := by
  rw [List.flatMap_def, mentionsAt_flatten, List.flatMap_map]

theorem mentionsAt_value_here (here : Trail) (label : String) (e : Expr) :
    mentionsAt here (valueMentions here label file e) = e.conjuncts.map (operandMention label file) := by
  rw [valueMentions_conjuncts, mentionsAt_flatMap, ← List.flatMap_pure_eq_map]
  exact List.flatMap_congr fun c member => mentionsAt_operand_here (Expr.isOperand_of_mem member)

theorem mentionsAt_value_inside (here : Trail) (label : String) (e : Expr) (trail : Trail) :
    mentionsAt (trail ++ label :: here) (valueMentions here label file e) =
      mentionsAt trail (e.literals.map (declsMentions [] file)).flatten := by
  rw [valueMentions_conjuncts, mentionsAt_flatMap, mentionsAt_flatten, List.flatMap_map, Expr.literals]
  have each (c : Expr) (member : c ∈ e.conjuncts) :
      mentionsAt (trail ++ label :: here) (valueMentions here label file c) = _ :=
    mentionsAt_operand_inside (Expr.isOperand_of_mem member) trail
  rw [List.flatMap_congr each]
  generalize e.conjuncts = cs
  induction cs with
  | nil => rfl
  | cons c cs ih =>
    rw [List.flatMap_cons, ih, List.filterMap_cons]
    cases c.literal? <;> rfl

section Classes

variable {env : Env}

theorem exprClass_literal {c : Expr} {decls : List Decl} (literal : c.literal? = some decls)
    (live : exprClass kinds env ⟨c, file⟩ ≠ 0) :
    exprClass kinds env ⟨c, file⟩ = bodyClass kinds (env.literal "" file decls) := by
  cases c <;> cases literal
  obtain ⟨n, v, tame, comes, same⟩ := exists_of_taskClass live
  obtain _ | n := n
  · cases comes
  · rw [bodyClass, taskClass_of_meaning tame (t := .body (env.literal "" file decls)) comes]
    exact same

/-- Where it is not the value of a field, an expression is the product of its operands. -/
theorem class_conjuncts (alike : env.Alike kinds env) {e : Expr} (tame : e.Tame kinds) {n : Nat} {path : String}
    {v : Value} (comes : Closure.meaning n (.expr e ⟨env, file, path⟩) = some (.ok v)) :
    ∃ tame : v.Tame kinds, Class.of tame = (e.conjuncts.map fun c => exprClass kinds env ⟨c, file⟩).prod := by
  fun_induction Expr.conjuncts e generalizing n v with
  | case1 left right ihLeft ihRight =>
    obtain _ | n := n
    · cases comes
    obtain ⟨a, first, rest⟩ | ⟨_, _, impossible⟩ := Meaning.bind_eq_some comes
    · obtain ⟨b, second, rest⟩ | ⟨_, _, impossible⟩ := Meaning.bind_eq_some rest
      · obtain ⟨tameA, ofLeft⟩ := ihLeft tame.2.1 first
        obtain ⟨tameB, ofRight⟩ := ihRight tame.2.2 second
        obtain ⟨tameV, product⟩ := class_unifyAt tameA tameB rest
        exact ⟨tameV, by rw [product, ofLeft, ofRight, List.map_append, List.prod_append]⟩
      · cases impossible
    · cases impossible
  | case2 inner span ih =>
    obtain _ | n := n
    · cases comes
    · exact ih tame.2 comes
  | case3 e notUnify notParen =>
    obtain ⟨tameV, same⟩ := exists_taskClass (.expr tame alike rfl) comes
    refine ⟨tameV, ?_⟩
    rw [List.map_singleton, List.prod_singleton, ← same]
    exact taskClass_expr env ⟨e, file⟩ path

theorem prod_operands {M : Type} [CommMonoid M] {f : Expr → M} {g : List Decl → M} {cs : List Expr}
    (literals : ∀ c ∈ cs, ∀ decls, c.literal? = some decls → f c = g decls) :
    (cs.map f).prod = ((cs.filter (·.literal?.isNone)).map f).prod * ((cs.filterMap Expr.literal?).map g).prod := by
  induction cs with
  | nil => exact (mul_one 1).symm
  | cons c cs ih =>
    rw [List.map_cons, List.prod_cons, ih fun c member => literals c (List.mem_cons_of_mem _ member)]
    cases literal : c.literal? with
    | none =>
      rw [List.filter_cons_of_pos (by simp [literal]), List.filterMap_cons_none literal, List.map_cons, List.prod_cons,
        mul_assoc]
    | some decls =>
      rw [List.filter_cons_of_neg (by simp [literal]), List.filterMap_cons_some literal, List.map_cons, List.prod_cons,
        literals c List.mem_cons_self decls literal, mul_left_comm]

end Classes

end Evaluation

end StackLattice
