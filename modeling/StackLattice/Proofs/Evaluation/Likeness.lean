import StackLattice.Proofs.Evaluation.Denotation
import StackLattice.Proofs.Syntax.Trees

/-!
Environments in which the same is found for the names that matter. Whatever is evaluated in the one comes to the
same value in the other, with as much fuel or more; only the texts of errors may differ, since these tell paths.
-/

namespace StackLattice

namespace Syntax

def Expr.NamesHere (names : Set String) : Expr → Prop
  | .ident name => name.name ∈ names
  | _ => True

/-- Every name that an expression mentions is one of these. -/
def Expr.Names (names : Set String) (e : Expr) : Prop := e.Everywhere (NamesHere names) fun _ => True

def Decl.NamesAll (names : Set String) (decls : List Decl) : Prop :=
  Decl.EverywhereAll (Expr.NamesHere names) (fun _ => True) decls

end Syntax

namespace Evaluation

open Syntax (Expr Decl)

/-- Related results, or errors of one kind. -/
inductive Agreeing {α β : Type} (R : α → β → Prop) : Except EvalError α → Except EvalError β → Prop
  | ok {a : α} {b : β} (related : R a b) : Agreeing R (.ok a) (.ok b)
  | error {e e' : EvalError} (kind : e.kind = e'.kind) : Agreeing R (.error e) (.error e')

/-- Whatever the one evaluation comes to, the other comes to as well. -/
def Carries {α β : Type} (R : α → β → Prop) (m : Meaning α) (m' : Meaning β) : Prop :=
  ∀ r, m = some r → ∃ r', m' = some r' ∧ Agreeing R r r'

namespace Carries

variable {α β γ δ : Type} {R : α → β → Prop} {S : γ → δ → Prop} {m : Meaning α} {m' : Meaning β}

theorem pure {a : α} {b : β} (related : R a b) : Carries R (Pure.pure a) (Pure.pure b) := by
  intro r h
  cases h
  exact ⟨_, rfl, .ok related⟩

theorem error {e e' : EvalError} (kind : e.kind = e'.kind) : Carries R (throw e) (throw e') := by
  intro r h
  cases h
  exact ⟨_, rfl, .error kind⟩

theorem bind {k : α → Meaning γ} {k' : β → Meaning δ} (first : Carries R m m')
    (next : ∀ a b, R a b → Carries S (k a) (k' b)) : Carries S (m >>= k) (m' >>= k') := by
  intro r h
  rcases Meaning.bind_eq_some h with ⟨a, found, rest⟩ | ⟨e, found, rfl⟩
  · obtain ⟨r', found', agreeing⟩ := first _ found
    cases agreeing with
    | ok related =>
      rw [Meaning.bind_of_ok found']
      exact next _ _ related r rest
  · obtain ⟨r', found', agreeing⟩ := first _ found
    cases agreeing with
    | error kind => exact ⟨_, Meaning.bind_of_error found', .error kind⟩

theorem attempt {m m' : Meaning Value} (h : Carries Eq m m') :
    Carries (Agreeing Eq) (Closure.attempt m) (Closure.attempt m') := by
  intro r tried
  rcases Meaning.attempt_eq_some tried with ⟨v, found, rfl⟩ | ⟨e, found, conflict, rfl⟩ | ⟨e, found, other, rfl⟩
  · obtain ⟨r', found', agreeing⟩ := h _ found
    cases agreeing with
    | ok same => exact ⟨_, Meaning.attempt_of_live found' trivial, .ok (.ok same)⟩
  · obtain ⟨r', found', agreeing⟩ := h _ found
    cases agreeing with
    | error kind =>
      exact ⟨_, Meaning.attempt_of_live found' (kind.symm.trans conflict), .ok (.error kind)⟩
  · obtain ⟨r', found', agreeing⟩ := h _ found
    cases agreeing with
    | error kind => exact ⟨_, Meaning.attempt_of_dead found' (kind ▸ other), .error kind⟩

theorem mapM {ι : Type} {f : ι → Meaning α} {g : ι → Meaning α} {xs : List ι}
    (each : ∀ x ∈ xs, Carries Eq (f x) (g x)) : Carries Eq (xs.mapM f) (xs.mapM g) := by
  induction xs with
  | nil => exact pure rfl
  | cons x xs ih =>
    rw [List.mapM_cons, List.mapM_cons]
    refine (each x List.mem_cons_self).bind ?_
    rintro y _ rfl
    refine (ih fun x member => each x (List.mem_cons_of_mem _ member)).bind ?_
    rintro ys _ rfl
    exact pure rfl

theorem unifyAt (a b : Value) (path path' : String) (fallback fallback' : Option Position) :
    Carries Eq (Closure.unifyAt path fallback a b) (Closure.unifyAt path' fallback' a b) := by
  unfold Closure.unifyAt
  cases a.unify b with
  | ok v => exact pure rfl
  | error c => exact error rfl

end Carries

/-- A relation of environments that look-up and evaluation respect. A name that matters leads to fields that are
    declared alike, a field to conjuncts and to bodies that are. -/
structure Likeness where
  env : Set String → Env → Env → Prop
  field : String → Env → Env → Prop
  body : Env → Env → Prop
  lookup {names : Set String} {e e' : Env} {name : String} : env names e e' → name ∈ names →
    Option.Rel (field name) (e.lookup name) (e'.lookup name)
  literal {names : Set String} {e e' : Env} {decls : List Decl} (path path' : String) (file : Syntax.ParsedFile) :
    env names e e' → Decl.NamesAll names decls → body (e.literal path file decls) (e'.literal path' file decls)
  found {name : String} {e e' : Env} : field name e e' → e.find? name = e'.find? name
  conjunct {name : String} {e e' : Env} {d : Declared} {w : Written} : field name e e' → e.find? name = some d →
    w ∈ d.conjuncts → ∃ names, env names e e' ∧ w.expr.Names names
  inner {name : String} {e e' : Env} {d : Declared} : field name e e' → e.find? name = some d → d.opened = true →
    body (e.inner name) (e'.inner name)
  declared {e e' : Env} : body e e' → e.declared = e'.declared
  embeds {e e' : Env} : body e e' → e.embeds = e'.embeds
  fields {e e' : Env} (name : String) : body e e' → field name e e'
  embed {e e' : Env} {w : Written} : body e e' → w ∈ e.embeds → ∃ names, env names e e' ∧ w.expr.Names names

namespace Likeness

variable (L : Likeness)

inductive Task : Closure.Task → Closure.Task → Prop
  | body {e e' : Env} (alike : L.body e e') : Task (.body e) (.body e')
  | expr {names : Set String} {e : Expr} {site site' : Closure.Site} (alike : L.env names site.env site'.env)
      (inside : e.Names names) (file : site.file = site'.file) : Task (.expr e site) (.expr e site')

variable {L}

theorem reference {names : Set String} {env env' : Env} (alike : L.env names env env') {e : Expr}
    (inside : e.Names names) :
    Option.Rel (fun r r' => L.field r.2 r.1 r'.1 ∧ r.2 = r'.2) (Closure.reference? env e)
      (Closure.reference? env' e) := by
  match e with
  | .ident name =>
    have found := L.lookup alike inside
    rw [Closure.reference?, Closure.reference?]
    generalize env.lookup name.name = r, env'.lookup name.name = r' at found
    cases found with
    | none => exact .none
    | some here => exact .some ⟨here, rfl⟩
  | .paren inner _ =>
    rw [Closure.reference?, Closure.reference?]
    exact reference alike inside.2
  | .select base field =>
    have related := reference alike inside.2
    rw [Closure.reference?, Closure.reference?]
    generalize Closure.reference? env base = r, Closure.reference? env' base = r' at related
    cases related with
    | none => exact .none
    | @some r r' here =>
      obtain ⟨env, label⟩ := r
      obtain ⟨env', label'⟩ := r'
      obtain ⟨here, same⟩ : L.field label env env' ∧ label = label' := here
      subst same
      have found := L.found here
      show Option.Rel _ ((env.find? label).bind _) ((env'.find? label).bind _)
      rw [← found]
      cases present : env.find? label with
      | none => exact .none
      | some d =>
        rw [Option.bind_some, Option.bind_some]
        cases opened : d.opened with
        | false => exact .none
        | true =>
          have body := L.inner here present opened
          simp only [L.embeds body, L.found (L.fields field.name body)]
          split
          · exact .some ⟨L.fields field.name body, rfl⟩
          · exact .none
  | .null _ | .bool _ _ | .int _ _ | .float _ _ | .string _ _ | .struct _ _ | .list _ _ | .unary _ _ _
  | .binary _ _ _ => exact .none

theorem unmarked_names {names : Set String} {e : Expr} (inside : e.Names names) :
    (Closure.unmarked e).2.Names names := by
  cases e with
  | unary op operand span =>
    cases op with
    | mark => exact inside.2
    | negate => exact inside
  | _ => exact inside

theorem operands_names {names : Set String} {e : Expr} (inside : e.Names names) :
    ∀ o ∈ operands e, o.Names names := by
  match e with
  | .binary .disjoin left right =>
    rw [operands, List.forall_mem_append]
    exact ⟨operands_names inside.2.1, operands_names inside.2.2⟩
  | .null _ | .bool _ _ | .int _ _ | .float _ _ | .string _ _ | .ident _ | .select _ _ | .struct _ _ | .list _ _
  | .unary _ _ _ | .binary .unify _ _ | .paren _ _ =>
    rw [operands]
    · exact List.forall_mem_singleton.mpr inside
    all_goals simp

section Fields

variable {task task' : Closure.Task → Meaning Value}
  (tasks : ∀ t t', L.Task t t' → Carries Eq (task t) (task' t'))

include tasks

theorem conjoinAll_carries {env env' : Env} (path path' : String) (position position' : Position)
    {ws : List Written} (each : ∀ w ∈ ws, ∃ names, L.env names env env' ∧ w.expr.Names names) (v : Value) :
    Carries Eq (Closure.conjoinAll task env path position ws v)
      (Closure.conjoinAll task' env' path' position' ws v) := by
  induction ws generalizing v with
  | nil => exact .pure rfl
  | cons w ws ih =>
    obtain ⟨names, alike, inside⟩ := each w List.mem_cons_self
    refine (tasks (.expr w.expr ⟨env, w.file, path⟩) (.expr w.expr ⟨env', w.file, path'⟩)
      (.expr alike inside rfl)).bind ?_
    rintro next _ rfl
    refine (Carries.unifyAt v next _ _ _ _).bind ?_
    rintro u _ rfl
    exact ih (fun w member => each w (List.mem_cons_of_mem _ member)) u

theorem fieldValue_carries {env env' : Env} {name : String} (alike : L.field name env env') :
    Carries Eq (Closure.fieldValue task env name) (Closure.fieldValue task' env' name) := by
  have found := L.found alike
  unfold Closure.fieldValue
  rw [← found]
  cases present : env.find? name with
  | none => exact .error rfl
  | some d =>
    refine (conjoinAll_carries tasks _ _ _ _ (fun w member => L.conjunct alike present member) _).bind ?_
    rintro v _ rfl
    cases opened : d.opened with
    | false => exact .pure rfl
    | true =>
      refine (tasks _ _ (.body (L.inner alike present opened))).bind ?_
      rintro u _ rfl
      exact .unifyAt v u _ _ _ _

end Fields

section Parts

variable {parts parts' : Closure.Parts}
  (tasks : ∀ t t', L.Task t t' → Carries Eq (parts.task t) (parts'.task t'))
  (fields : ∀ env env' name, L.field name env env' → Carries Eq (parts.field env name) (parts'.field env' name))

include fields in
theorem bodyFields_carries {env env' : Env} (alike : L.body env env') (ds : List Declared) :
    Carries Eq (Closure.bodyFields parts env ds) (Closure.bodyFields parts' env' ds) := by
  rw [bodyFields_eq_mapM, bodyFields_eq_mapM]
  refine .mapM fun d _ => ?_
  refine (fields _ _ _ (L.fields d.label alike)).bind ?_
  rintro v _ rfl
  exact .pure rfl

include tasks in
theorem embedAll_carries {env env' : Env} {ws : List Written}
    (each : ∀ w ∈ ws, ∃ names, L.env names env env' ∧ w.expr.Names names) (v : Value) :
    Carries Eq (Closure.embedAll parts env ws v) (Closure.embedAll parts' env' ws v) := by
  induction ws generalizing v with
  | nil => exact .pure rfl
  | cons w ws ih =>
    obtain ⟨names, alike, inside⟩ := each w List.mem_cons_self
    refine (tasks (.expr w.expr ⟨env, w.file, env.path⟩) (.expr w.expr ⟨env', w.file, env'.path⟩)
      (.expr alike inside rfl)).bind ?_
    rintro next _ rfl
    refine (Carries.unifyAt v next _ _ _ _).bind ?_
    rintro u _ rfl
    exact ih (fun w member => each w (List.mem_cons_of_mem _ member)) u

include fields in
theorem nameValue_carries {names : Set String} {site site' : Closure.Site} (alike : L.env names site.env site'.env)
    (file : site.file = site'.file) {name : Syntax.Ident} (inside : name.name ∈ names) :
    Carries Eq (Closure.nameValue parts site name) (Closure.nameValue parts' site' name) := by
  have related := L.lookup alike inside
  unfold Closure.nameValue
  generalize site.env.lookup name.name = r, site'.env.lookup name.name = r' at related
  cases related with
  | some here => exact fields _ _ _ here
  | none =>
    simp only [file]
    cases site'.file.tree.imports.find? (·.localName == name.name) with
    | some i => exact .error rfl
    | none =>
      simp only []
      split
      · exact .pure rfl
      · cases Kind.ofName? name.name with
        | some k => exact .pure rfl
        | none => exact .error rfl

include tasks

include fields in
theorem bodyValue_carries {env env' : Env} (alike : L.body env env') :
    Carries Eq (Closure.bodyValue parts env) (Closure.bodyValue parts' env') := by
  unfold Closure.bodyValue
  rw [← L.declared alike, ← L.embeds alike]
  refine (bodyFields_carries fields alike _).bind ?_
  rintro found _ rfl
  exact embedAll_carries tasks (fun w member => L.embed alike member) _

include fields in
theorem select_carries {names : Set String} {base : Expr} {field : Syntax.Ident} {site site' : Closure.Site}
    (alike : L.env names site.env site'.env) (inside : (Expr.select base field).Names names)
    (file : site.file = site'.file) :
    Carries Eq (Closure.exprValue parts site (.select base field))
      (Closure.exprValue parts' site' (.select base field)) := by
  have related := L.reference alike inside
  simp only [Closure.exprValue]
  generalize Closure.reference? site.env (.select base field) = r,
    Closure.reference? site'.env (.select base field) = r' at related
  cases related with
  | @some r r' here =>
    obtain ⟨env, label⟩ := r
    obtain ⟨env', label'⟩ := r'
    obtain ⟨here, same⟩ := here
    cases same
    exact fields _ _ _ here
  | none =>
    refine (tasks _ _ (.expr alike inside.2 file)).bind ?_
    rintro v _ rfl
    cases Closure.selected field.name v with
    | ok x => exact .pure rfl
    | error p => exact .error rfl

theorem alternatives_carries {names : Set String} {site site' : Closure.Site} {operands : List Expr}
    (alike : L.env names site.env site'.env) (file : site.file = site'.file)
    (inside : ∀ o ∈ operands, (Closure.unmarked o).2.Names names) :
    Carries (fun r r' => r.1 = r'.1 ∧ Option.Rel (fun e e' => e.kind = e'.kind) r.2 r'.2)
      (Closure.alternatives parts site operands) (Closure.alternatives parts' site' operands) := by
  induction operands with
  | nil => exact .pure ⟨rfl, .none⟩
  | cons o operands ih =>
    rw [Closure.alternatives, Closure.alternatives]
    refine (Carries.attempt (tasks _ _ (.expr alike (inside o List.mem_cons_self) file))).bind ?_
    intro result result' agreeing
    refine (ih fun o member => inside o (List.mem_cons_of_mem _ member)).bind ?_
    rintro ⟨others, conflict⟩ ⟨_, conflict'⟩ ⟨rfl, related⟩
    cases agreeing with
    | ok same =>
      cases same
      exact .pure ⟨rfl, related⟩
    | error kind => exact .pure ⟨rfl, .some kind⟩

theorem disjunction_carries {names : Set String} {site site' : Closure.Site} {e : Expr}
    (alike : L.env names site.env site'.env) (file : site.file = site'.file)
    (inside : ∀ o ∈ operands e, (Closure.unmarked o).2.Names names) :
    Carries Eq (Closure.disjunctionValue parts site e) (Closure.disjunctionValue parts' site' e) := by
  refine (alternatives_carries tasks alike file inside).bind ?_
  rintro ⟨found, conflict⟩ ⟨_, conflict'⟩ ⟨rfl, related⟩
  cases found with
  | cons a found => exact .pure rfl
  | nil =>
    cases related with
    | none => exact .pure rfl
    | some kind => exact .error kind

include fields in
theorem exprValue_carries {names : Set String} {e : Expr} {site site' : Closure.Site}
    (alike : L.env names site.env site'.env) (inside : e.Names names) (file : site.file = site'.file) :
    Carries Eq (Closure.exprValue parts site e) (Closure.exprValue parts' site' e) := by
  have value {part : Expr} (inside : part.Names names) :
      Carries Eq (parts.task (.expr part site)) (parts'.task (.expr part site')) := tasks _ _ (.expr alike inside file)
  cases e with
  | null _ | bool _ _ | int _ _ | string _ _ | float _ _ => exact .pure rfl
  | paren inner _ => exact value inside.2
  | ident name => exact nameValue_carries fields alike file inside
  | select base field => exact select_carries tasks fields alike inside file
  | struct decls span =>
    have literal := L.literal site.path site'.path site.file alike inside.2
    exact tasks _ _ (.body (file ▸ literal))
  | list items _ =>
    have each := (Expr.everywhereAll_iff items).mp inside.2
    refine (Carries.mapM fun item member => value (each item member)).bind ?_
    rintro vs _ rfl
    exact .pure rfl
  | unary op operand span =>
    cases op with
    | mark => exact value inside.2
    | negate =>
      refine (value inside.2).bind ?_
      rintro v _ rfl
      cases negate v with
      | some w => exact .pure rfl
      | none => exact .error rfl
  | binary op left right =>
    cases op with
    | unify =>
      refine (value inside.2.1).bind ?_
      rintro a _ rfl
      refine (value inside.2.2).bind ?_
      rintro b _ rfl
      exact .unifyAt a b _ _ _ _
    | disjoin =>
      exact disjunction_carries tasks alike file fun o member => unmarked_names (operands_names inside o member)

end Parts

/-- In environments that are alike the same is found, with as much fuel or more. -/
theorem meaning_carries {n n' : Nat} (enough : n ≤ n') (t t' : Closure.Task) (alike : L.Task t t') :
    Carries Eq (Closure.meaning n t) (Closure.meaning n' t') := by
  induction n generalizing n' t t' with
  | zero => exact fun r impossible => by cases impossible
  | succ n ih =>
    obtain _ | n' := n'
    · exact absurd enough (Nat.not_succ_le_zero n)
    have tasks (t t' : Closure.Task) := ih (Nat.le_of_succ_le_succ enough) t t'
    have fields (env env' : Env) (name : String) (alike : L.field name env env') := fieldValue_carries tasks alike
    cases alike with
    | body alike => exact bodyValue_carries tasks fields alike
    | expr alike inside file => exact exprValue_carries tasks fields alike inside file

end Likeness

end Evaluation

end StackLattice
