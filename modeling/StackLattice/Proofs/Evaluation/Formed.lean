import StackLattice.Proofs.Evaluation.Denotation
import StackLattice.Proofs.Evaluation.Normal

/-!
What evaluation comes to is normal, and no struct in it has a label twice.
-/

namespace StackLattice

namespace Value

structure Formed (v : Value) : Prop where
  normal : v.Normal
  wellFormed : v.WellFormed

theorem formed_leaf {v : Value} (leaf : v.isLeaf = true) : v.Formed := by
  refine ⟨normal_leaf leaf, wellFormed_of_parts_eq_nil ?_⟩
  cases v <;> first
    | rfl
    | cases leaf

theorem formed_struct {fields : List (Field Value)} (distinct : Field.Distinct fields)
    (each : ∀ f ∈ fields, f.value.Formed) : (struct fields).Formed :=
  ⟨normal_struct fun f member => (each f member).normal,
    (wellFormed_struct fields).mpr ⟨distinct, fun f member => (each f member).wellFormed⟩⟩

theorem formed_list {items : List Value} (each : ∀ item ∈ items, item.Formed) : (list items).Formed :=
  ⟨normal_list fun item member => (each item member).normal,
    (wellFormed_list items).mpr fun item member => (each item member).wellFormed⟩

theorem formed_disjoin {alternatives : List (Alternative Value)} (some : alternatives ≠ [])
    (each : ∀ a ∈ alternatives, a.value.Formed) : (disjoin alternatives).Formed :=
  ⟨normal_disjoin some fun a member => (each a member).normal,
    everywhere_disjoin (fun _ => trivial) fun a member => (each a member).wellFormed⟩

theorem formed_unify {a b v : Value} (left : a.Formed) (right : b.Formed) (h : a.unify b = .ok v) : v.Formed :=
  ⟨normal_unify left.normal right.normal h, wellFormed_unify left.wellFormed right.wellFormed h⟩

theorem single_of_mem_flatMap {alternatives : List (Alternative Value)} (each : ∀ a ∈ alternatives, a.value.Formed) :
    ∀ i ∈ alternatives.flatMap Alternative.flatten, i.value.isDisjunction = false ∧ i.value.WellFormed := by
  intro i member
  obtain ⟨a, inside, flat⟩ := List.mem_flatMap.mp member
  exact ⟨Alternative.isDisjunction_of_mem_flatten (each a inside).normal flat,
    everywhere_of_mem_flatten (each a inside).wellFormed flat⟩

end Value

namespace Evaluation

open Syntax (Expr)

/-- Whatever value an evaluation comes to has the form that evaluation gives to values. -/
def Forms (m : Meaning Value) : Prop := ∀ v, m = some (.ok v) → v.Formed

namespace Forms

theorem pure {v : Value} (formed : v.Formed) : Forms (Pure.pure v) := by
  intro w h
  cases h
  exact formed

theorem error (e : EvalError) : Forms (throw e) := by
  intro w h
  cases h

theorem bind {α : Type} {m : Meaning α} {k : α → Meaning Value} (next : ∀ a, m = some (.ok a) → Forms (k a)) :
    Forms (m >>= k) := by
  intro w h
  rcases Meaning.bind_eq_some h with ⟨a, found, rest⟩ | ⟨e, _, impossible⟩
  · exact next a found w rest
  · cases impossible

theorem unifyAt {a b : Value} (left : a.Formed) (right : b.Formed) (path : String) (fallback : Option Position) :
    Forms (Closure.unifyAt path fallback a b) := by
  unfold Closure.unifyAt
  cases unified : a.unify b with
  | ok v => exact pure (Value.formed_unify left right unified)
  | error c => exact error _

/-- What is unified step by step has the form if what it starts from has it. -/
theorem fold {fold : List Written → Value → Meaning Value} {step : Written → Meaning Value}
    (nil : ∀ v, fold [] v = Pure.pure v)
    (cons : ∀ w ws v, ∃ path fallback, fold (w :: ws) v = do
      let next ← step w
      fold ws (← Closure.unifyAt path fallback v next))
    (each : ∀ w, Forms (step w)) (ws : List Written) {v : Value} (start : v.Formed) : Forms (fold ws v) := by
  induction ws generalizing v with
  | nil =>
    rw [nil]
    exact pure start
  | cons w ws ih =>
    obtain ⟨path, fallback, equation⟩ := cons w ws v
    rw [equation]
    exact bind fun next found => bind fun u unified => ih (unifyAt start (each w next found) path fallback u unified)

end Forms

section Rules

variable {parts : Closure.Parts} (tasks : ∀ t, Forms (parts.task t)) (fields : ∀ env label, Forms (parts.field env label))

include tasks in
theorem fieldValue_forms (env : Env) (label : String) : Forms (Closure.fieldValue parts.task env label) := by
  unfold Closure.fieldValue
  cases env.find? label with
  | none => exact .error _
  | some d =>
    refine .bind fun v found => ?_
    have conjuncts := Forms.fold (fun _ => rfl) (fun _ _ _ => ⟨joinPath env.path label, some d.position, rfl⟩)
      (fun w => tasks (.expr w.expr ⟨env, w.file, joinPath env.path label⟩)) d.conjuncts (Value.formed_leaf rfl) v found
    cases d.opened with
    | true => exact .bind fun u inner => .unifyAt conjuncts (tasks _ u inner) _ _
    | false => exact .pure conjuncts

include fields in
theorem nameValue_forms (site : Closure.Site) (name : Syntax.Ident) : Forms (Closure.nameValue parts site name) := by
  unfold Closure.nameValue
  cases site.env.lookup name.name with
  | some env => exact fields env _
  | none =>
    cases site.file.tree.imports.find? (·.localName == name.name) with
    | some i => exact .error _
    | none =>
      simp only []
      split
      · exact .pure (Value.formed_leaf rfl)
      · cases Kind.ofName? name.name with
        | some k => exact .pure (Value.formed_leaf rfl)
        | none => exact .error _

include tasks in
/-- Operands have alternatives of this form, or else a conflict. -/
theorem alternatives_form {site : Closure.Site} {es : List Expr} {found : List (Alternative Value)}
    {conflict : Option EvalError} (h : Closure.alternatives parts site es = some (.ok (found, conflict))) :
    (∀ a ∈ found, a.value.Formed) ∧ (es ≠ [] → found = [] → conflict ≠ none) := by
  induction es generalizing found conflict with
  | nil =>
    cases h
    exact ⟨fun _ impossible => absurd impossible List.not_mem_nil, fun some => absurd rfl some⟩
  | cons e es ih =>
    rw [Closure.alternatives] at h
    rcases Meaning.bind_eq_some h with ⟨result, tried, h⟩ | ⟨_, _, impossible⟩
    · rcases Meaning.bind_eq_some h with ⟨⟨others, dropped⟩, rest, h⟩ | ⟨_, _, impossible⟩
      · rcases Meaning.attempt_eq_some tried with ⟨v, value, same⟩ | ⟨err, _, _, same⟩ | ⟨_, _, _, impossible⟩
        · cases same
          cases h
          exact ⟨List.forall_mem_cons.mpr ⟨tasks _ v value, (ih rest).1⟩, fun _ impossible => by cases impossible⟩
        · cases same
          cases h
          exact ⟨(ih rest).1, fun _ _ impossible => by cases impossible⟩
        · cases impossible
      · cases impossible
    · cases impossible

include tasks in
theorem disjunctionValue_forms (site : Closure.Site) (e : Expr) : Forms (Closure.disjunctionValue parts site e) := by
  refine .bind fun ⟨found, conflict⟩ result => ?_
  obtain ⟨formed, reason⟩ := alternatives_form tasks result
  rcases found with _ | ⟨a, found⟩
  · cases conflict with
    | none => exact absurd rfl (reason (operands_ne_nil e) rfl)
    | some err => exact .error err
  · exact .pure (Value.formed_disjoin (List.cons_ne_nil _ _) formed)

include tasks fields in
theorem exprValue_forms (site : Closure.Site) (e : Expr) : Forms (Closure.exprValue parts site e) := by
  have leaf {v : Value} (is : v.isLeaf = true) : Forms (Pure.pure v) := .pure (Value.formed_leaf is)
  match e with
  | .null _ | .bool _ _ | .int _ _ | .float _ _ | .string _ _ => exact leaf rfl
  | .paren inner _ => exact tasks _
  | .ident name => exact nameValue_forms fields site name
  | .select base field =>
    simp only [Closure.exprValue]
    cases Closure.reference? site.env (.select base field) with
    | some key => exact fields key.1 key.2
    | none =>
      refine .bind fun v found => ?_
      have formed := tasks _ v found
      cases selected : Closure.selected field.name v with
      | ok w =>
        exact .pure ⟨everywhere_of_selected formed.normal selected, everywhere_of_selected formed.wellFormed selected⟩
      | error problem => exact .error _
  | .struct decls _ => exact tasks _
  | .list items _ =>
    refine .bind fun vs found => .pure (Value.formed_list fun v member => ?_)
    obtain ⟨item, _, result⟩ := Value.exists_left_of_mem (Meaning.mapM_eq_some found) member
    exact tasks _ v result
  | .unary .negate operand span =>
    refine .bind fun v found => ?_
    cases negated : negate v with
    | some w => exact leaf (PartsKeep.isLeaf_negate negated)
    | none => exact .error _
  | .unary .mark operand _ => exact tasks _
  | .binary .unify left right =>
    exact .bind fun a first => .bind fun b second => .unifyAt (tasks _ a first) (tasks _ b second) _ _
  | .binary .disjoin _ _ => exact disjunctionValue_forms tasks site _

include tasks fields in
theorem bodyValue_forms (env : Env) : Forms (Closure.bodyValue parts env) := by
  refine .bind fun found result => ?_
  have realized := bodyFields_eq_some result
  refine Forms.fold (fun _ => rfl) (fun w _ _ => ⟨env.path, some (w.file.source.position w.expr.span), rfl⟩)
    (fun w => tasks (.expr w.expr ⟨env, w.file, env.path⟩)) env.embeds ?_
  split
  · refine Value.formed_struct ?_ fun f member => ?_
    · rw [Field.Distinct, labels_of_realized realized]
      exact env.nodup_declared
    · obtain ⟨d, _, v, value, rfl⟩ := Value.exists_left_of_mem realized member
      exact fields env d.label v value
  · exact Value.formed_leaf rfl

end Rules

/-- Evaluation with any amount of fuel comes to values of this form. -/
theorem meaning_forms (n : Nat) (t : Closure.Task) : Forms (Closure.meaning n t) := by
  induction n generalizing t with
  | zero => exact fun v impossible => by cases impossible
  | succ n ih =>
    have tasks (t : Closure.Task) : Forms ((Closure.partsAt n).task t) := ih t
    have fields (env : Env) (label : String) : Forms ((Closure.partsAt n).field env label) :=
      fieldValue_forms tasks env label
    cases t with
    | body env => exact bodyValue_forms tasks fields env
    | expr e site => exact exprValue_forms tasks fields site e

end Evaluation

end StackLattice
