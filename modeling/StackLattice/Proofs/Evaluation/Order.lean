import StackLattice.Proofs.Evaluation.Rearranged

/-!
Evaluation in bodies whose declarations stand in another order, for any amount of fuel.
-/

namespace StackLattice.Evaluation

open Syntax (Expr Decl Label LabelKind ParsedFile)
open Value

variable {kinds : String → LabelKind}

/-- Whether two evaluations denote the same branches. -/
def Agree (kinds : String → LabelKind) (m m' : Meaning Value) : Prop :=
  ∃ F, Denotes kinds m F ∧ Denotes kinds m' F

inductive Closure.Task.Alike (kinds : String → LabelKind) : Closure.Task → Closure.Task → Prop
  | body {env env' : Env} (alike : env.Alike kinds env') : Alike kinds (.body env) (.body env')
  | expr {e : Expr} (tame : e.Tame kinds) {site site' : Closure.Site} (alike : site.env.Alike kinds site'.env)
      (file : site.file = site'.file) : Alike kinds (.expr e site) (.expr e site')

namespace Agree

variable {m m' : Meaning Value}

theorem pure {v : Value} (tame : v.Tame kinds) : Agree kinds (Pure.pure v) (Pure.pure v) :=
  ⟨v.branches, .pure tame, .pure tame⟩

theorem dead {e e' : EvalError} (other : e.kind ≠ .conflict) (other' : e'.kind ≠ .conflict) :
    Agree kinds (throw e) (throw e') := ⟨∅, .dead other ∅, .dead other' ∅⟩

/-- Evaluations that agree denote the same branches, chosen for all of them at once. -/
theorem exists_branches {α : Type} {xs : List α} {m m' : α → Meaning Value}
    (each : ∀ x ∈ xs, Agree kinds (m x) (m' x)) :
    ∃ F : α → Set (Set Value), ∀ x ∈ xs, Denotes kinds (m x) (F x) ∧ Denotes kinds (m' x) (F x) := by
  have total : ∀ x, ∃ F, x ∈ xs → Denotes kinds (m x) F ∧ Denotes kinds (m' x) F := by
    intro x
    by_cases member : x ∈ xs
    · obtain ⟨F, both⟩ := each x member
      exact ⟨F, fun _ => both⟩
    · exact ⟨∅, fun inside => absurd inside member⟩
  choose F both using total
  exact ⟨F, both⟩

end Agree

section Fields

variable {task : Closure.Task → Meaning Value} {env env' : Env}

theorem fieldBranches_congr {S : Written → Set (Set Value)} {body : Set (Set Value)} {d d' : Declared}
    (alike : d.Alike d') : fieldBranches S body d = fieldBranches S body d' := by
  unfold fieldBranches
  rw [alike.opened, meetAll_perm alike.conjuncts]

theorem fieldValue_agree (tasks : ∀ t t', t.Alike kinds t' → Agree kinds (task t) (task t'))
    (alike : env.Alike kinds env') (label : String) :
    Agree kinds (Closure.fieldValue task env label) (Closure.fieldValue task env' label) := by
  have related := alike.find? label
  cases found : env.find? label with
  | none =>
    rw [found] at related
    cases found' : env'.find? label with
    | some d' =>
      rw [found'] at related
      cases related
    | none =>
      unfold Closure.fieldValue
      simp only [found, found']
      exact .dead (by simp [EvalError.kind, Problem.kind]) (by simp [EvalError.kind, Problem.kind])
  | some d =>
    rw [found] at related
    cases found' : env'.find? label with
    | none =>
      rw [found'] at related
      cases related
    | some d' =>
      rw [found'] at related
      cases related with
      | some agree =>
        have each : ∀ w ∈ d.conjuncts, Agree kinds
            (task (.expr w.expr ⟨env, w.file, joinPath env.path label⟩))
            (task (.expr w.expr ⟨env', w.file, joinPath env'.path label⟩)) := by
          intro w member
          exact tasks _ _ (.expr (alike.tame_conjuncts found member) alike rfl)
        obtain ⟨S, conjuncts⟩ := Agree.exists_branches each
        obtain ⟨body, inside, inside'⟩ := tasks _ _ (.body (alike.inner label))
        refine ⟨fieldBranches S body d, ?_, ?_⟩
        · exact denotes_fieldValue found (fun w member => (conjuncts w member).1) fun _ => inside
        · rw [fieldBranches_congr agree]
          refine denotes_fieldValue found' (fun w member => ?_) fun _ => inside'
          exact (conjuncts w (agree.conjuncts.mem_iff.mpr member)).2

end Fields

theorem tame_operands {e : Expr} (tame : e.Tame kinds) : ∀ o ∈ operands e, o.Tame kinds := by
  match e with
  | .binary .disjoin left right =>
    rw [operands, List.forall_mem_append]
    exact ⟨tame_operands tame.2.1, tame_operands tame.2.2⟩
  | .null _ | .bool _ _ | .int _ _ | .float _ _ | .string _ _ | .ident _ | .select _ _ | .struct _ _ | .list _ _
  | .unary _ _ _ | .binary .unify _ _ | .paren _ _ =>
    rw [operands]
    · exact List.forall_mem_singleton.mpr tame
    all_goals simp

theorem unmarked_of_tame {e : Expr} (tame : e.Tame kinds) : Closure.unmarked e = (false, e) := by
  cases e with
  | unary op operand span =>
    cases op with
    | mark => exact absurd tame.1 id
    | negate => rfl
  | _ => rfl

section Parts

variable {parts : Closure.Parts}
  (fields : ∀ env env' label, env.Alike kinds env' → Agree kinds (parts.field env label) (parts.field env' label))

include fields

theorem nameValue_agree {site site' : Closure.Site} (alike : site.env.Alike kinds site'.env)
    (file : site.file = site'.file) (name : Syntax.Ident) :
    Agree kinds (Closure.nameValue parts site name) (Closure.nameValue parts site' name) := by
  have related := alike.lookup name.name
  unfold Closure.nameValue
  generalize site.env.lookup name.name = r, site'.env.lookup name.name = r' at related
  cases related with
  | some inside => exact fields _ _ _ inside
  | none =>
    simp only [file]
    cases site'.file.tree.imports.find? (·.localName == name.name) with
    | some i => exact .dead (by simp [EvalError.kind, Problem.kind]) (by simp [EvalError.kind, Problem.kind])
    | none =>
      simp only []
      split
      · exact .pure tame_top
      · cases Kind.ofName? name.name with
        | some k => exact .pure (tame_of_here rfl trivial)
        | none => exact .dead (by simp [EvalError.kind, Problem.kind]) (by simp [EvalError.kind, Problem.kind])

variable (tasks : ∀ t t', t.Alike kinds t' → Agree kinds (parts.task t) (parts.task t'))

include tasks

theorem bodyValue_agree {env env' : Env} (alike : env.Alike kinds env') :
    Agree kinds (Closure.bodyValue parts env) (Closure.bodyValue parts env') := by
  choose F ofField ofField' using fun label => fields env env' label alike
  have each : ∀ w ∈ env.embeds, Agree kinds (parts.task (.expr w.expr ⟨env, w.file, env.path⟩))
      (parts.task (.expr w.expr ⟨env', w.file, env'.path⟩)) := by
    intro w member
    exact tasks _ _ (.expr (alike.tame_embeds member) alike rfl)
  obtain ⟨S, embeds⟩ := Agree.exists_branches each
  refine ⟨bodyBranches F S env.declared env.embeds, ?_, ?_⟩
  · exact denotes_bodyValue alike.kind_declared (fun d _ => ofField d.label)
      fun w member => (embeds w member).1
  · rw [alike.bodyBranches_eq]
    exact denotes_bodyValue alike.symm.kind_declared (fun d _ => ofField' d.label)
      fun w member => (embeds w (alike.embeds.mem_iff.mpr member)).2

theorem select_agree {base : Expr} (tame : base.Tame kinds) {site site' : Closure.Site}
    (alike : site.env.Alike kinds site'.env) (file : site.file = site'.file) (field : Syntax.Ident) :
    Agree kinds (Closure.exprValue parts site (.select base field))
      (Closure.exprValue parts site' (.select base field)) := by
  have related := alike.reference (.select base field)
  simp only [Closure.exprValue]
  generalize Closure.reference? site.env (.select base field) = r,
    Closure.reference? site'.env (.select base field) = r' at related
  cases related with
  | @some r r' inside =>
    obtain ⟨env, label⟩ := r
    obtain ⟨env', label'⟩ := r'
    obtain ⟨inside, same⟩ := inside
    cases same
    exact fields _ _ _ inside
  | none =>
    obtain ⟨F, left, right⟩ := tasks _ _ (.expr tame alike file)
    refine ⟨selections field.name F, ?_, ?_⟩
    · exact denotes_select left field.name (e := fun _ p => ⟨site.path, p, some (site.file.source.position field.span)⟩)
        fun _ _ => rfl
    · exact denotes_select right field.name
        (e := fun _ p => ⟨site'.path, p, some (site'.file.source.position field.span)⟩) fun _ _ => rfl

theorem exprValue_agree {e : Expr} (tame : e.Tame kinds) {site site' : Closure.Site}
    (alike : site.env.Alike kinds site'.env) (file : site.file = site'.file) :
    Agree kinds (Closure.exprValue parts site e) (Closure.exprValue parts site' e) := by
  have value {part : Expr} (tame : part.Tame kinds) :
      Agree kinds (parts.task (.expr part site)) (parts.task (.expr part site')) := tasks _ _ (.expr tame alike file)
  cases e with
  | null _ | bool _ _ | int _ _ | string _ _ => exact .pure (tame_of_here rfl trivial)
  | float x _ => exact .pure (tame_of_here rfl tame)
  | paren inner _ => exact value tame.2
  | ident name => exact nameValue_agree fields alike file name
  | select base field => exact select_agree fields tasks tame.2 alike file field
  | struct decls span => exact tasks _ _ (.body (file ▸ alike.literal tame.2 _ _ _))
  | list items _ =>
    have inside := (Expr.everywhereAll_iff items).mp tame.2
    obtain ⟨F, each⟩ := Agree.exists_branches fun item member => value (inside item member)
    exact ⟨listBranches F items, denotes_list fun item member => (each item member).1,
      denotes_list fun item member => (each item member).2⟩
  | unary op operand span =>
    cases op with
    | mark => exact absurd tame.1 id
    | negate =>
      obtain ⟨F, left, right⟩ := value tame.2
      exact ⟨negations F, denotes_negate left, denotes_negate right⟩
  | binary op left right =>
    cases op with
    | unify =>
      obtain ⟨F, ofLeft, ofLeft'⟩ := value tame.2.1
      obtain ⟨G, ofRight, ofRight'⟩ := value tame.2.2
      exact ⟨meet F G, denotes_unify ofLeft ofRight _ _, denotes_unify ofLeft' ofRight' _ _⟩
    | disjoin =>
      have inside := tame_operands tame
      obtain ⟨F, each⟩ := Agree.exists_branches fun o member => value (inside o member)
      have unmarked := fun o member => unmarked_of_tame (inside o member)
      exact ⟨_, denotes_disjunction unmarked fun o member => (each o member).1,
        denotes_disjunction unmarked fun o member => (each o member).2⟩

end Parts

/-- Rearranged bodies come to the same, with any amount of fuel. -/
theorem meaning_agree (n : Nat) (t t' : Closure.Task) (alike : t.Alike kinds t') :
    Agree kinds (Closure.meaning n t) (Closure.meaning n t') := by
  induction n generalizing t t' with
  | zero => exact ⟨∅, .of_none rfl ∅, .of_none rfl ∅⟩
  | succ n ih =>
    have fields (env env' : Env) (label : String) (alike : env.Alike kinds env') :=
      fieldValue_agree ih alike label
    cases alike with
    | body alike => exact bodyValue_agree fields ih alike
    | expr tame alike file => exact exprValue_agree fields ih tame alike file

end StackLattice.Evaluation
