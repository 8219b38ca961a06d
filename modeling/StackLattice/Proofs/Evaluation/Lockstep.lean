import Mathlib.Order.Basic
import StackLattice.Proofs.Evaluation.Linked
import StackLattice.Proofs.Evaluation.Mirrored

/-!
Evaluation side by side, over tables whose bodies are written in different ways. What both sides evaluate is related,
and so are the states that they leave. Both come to the same but for places, unless one side fails in a way that is
left open: what is claimed of that side then holds already, or does not matter.
-/

namespace StackLattice.Evaluation

open Syntax (Expr Decl Ident ParsedFile)

/-- The same failure, wherever it is found. -/
structure FailsAlike (e e' : EvalError) : Prop where
  path : e.path = e'.path
  problem : e.problem.unplaced = e'.problem.unplaced

namespace FailsAlike

variable {e e' : EvalError}

theorem kind (h : FailsAlike e e') : e.kind = e'.kind := by
  rw [EvalError.kind, ← Problem.kind_unplaced, h.problem, Problem.kind_unplaced, EvalError.kind]

theorem message (h : FailsAlike e e') : e.message = e'.message := by
  rw [EvalError.message, ← Problem.message_unplaced, h.problem, Problem.message_unplaced, h.path, EvalError.message]

end FailsAlike

inductive ResultsAlike {α β : Type} (Q : α → β → Prop) : Except EvalError α → Except EvalError β → Prop
  | ok {a : α} {b : β} (related : Q a b) : ResultsAlike Q (.ok a) (.ok b)
  | error {e e' : EvalError} (fails : FailsAlike e e') : ResultsAlike Q (.error e) (.error e')

def ValuesAlike (v v' : Value) : Prop := v.unplaced = v'.unplaced

theorem ResultsAlike.refl (r : Except EvalError Value) : ResultsAlike ValuesAlike r r := by
  cases r with
  | ok _ => exact .ok rfl
  | error _ => exact .error ⟨rfl, rfl⟩

/-- Evaluation of literals and look-up lead from related states to related states. -/
structure Lockstep where
  files : Array ParsedFile
  files' : Array ParsedFile
  Holds : Links → State → State → Prop
  /-- A failure on the left, or on the right, behind which nothing is claimed any more. -/
  Excused : EvalError → Prop
  Dead : EvalError → Prop
  linked {R : Links} {s s' : State} : Holds R s s' → Scopes.Linked R s.scopes s'.scopes
  sources {R : Links} {s s' : State} : Holds R s s' → s.scopes.files = files ∧ s'.scopes.files = files'
  literal {R : Links} {s s' : State} {id id' file file' : Nat} {decls decls' : List Decl} (path : String) :
    Holds R s s' → R id id' → FilesLinked files files' file file' → Decl.RecastAll decls decls' →
    ∃ R' : Links, R ≤ R' ∧
      Holds R' { s with scopes := (s.scopes.addStruct id path file decls).2 }
        { s' with scopes := (s'.scopes.addStruct id' path file' decls').2 } ∧
      R' (s.scopes.addStruct id path file decls).1 (s'.scopes.addStruct id' path file' decls').1
  excused {e : EvalError} : Excused e → e.kind ≠ .conflict
  dead {e : EvalError} : Dead e → e.kind ≠ .conflict

namespace Lockstep

variable (L : Lockstep) {α β γ δ : Type} {R : Links} {Q : α → β → Prop} {S : γ → δ → Prop}

inductive Outcome (Q : α → β → Prop) (R : Links) : Except EvalError α × State → Except EvalError β × State → Prop
  | both {R' : Links} {r : Except EvalError α} {r' : Except EvalError β} {t t' : State} (more : R ≤ R')
    (alike : ResultsAlike Q r r') (holds : L.Holds R' t t') : Outcome Q R (r, t) (r', t')
  | excused {e : EvalError} {t : State} {y : Except EvalError β × State} (h : L.Excused e) : Outcome Q R (.error e, t) y
  | dead {e : EvalError} {t : State} {x : Except EvalError α × State} (h : L.Dead e) : Outcome Q R x (.error e, t)

/-- From related states, however much further they have grown, both evaluations lead to related states. -/
def Paired (R : Links) (Q : α → β → Prop) (m : Eval α) (m' : Eval β) : Prop :=
  ∀ ⦃R' : Links⦄ ⦃s s' : State⦄, R ≤ R' → L.Holds R' s s' → L.Outcome Q R' (m s) (m' s')

variable {L}

theorem Outcome.of_le {R' : Links} {x : Except EvalError α × State} {y : Except EvalError β × State}
    (h : L.Outcome Q R' x y) (grown : R ≤ R') : L.Outcome Q R x y := by
  cases h with
  | both again alike holds => exact .both (le_trans grown again) alike holds
  | excused h => exact .excused h
  | dead h => exact .dead h

namespace Paired

theorem mono {R' : Links} {m : Eval α} {m' : Eval β} (h : L.Paired R Q m m') (more : R ≤ R') : L.Paired R' Q m m' :=
  fun _ _ _ again holds => h (le_trans more again) holds

theorem pure {a : α} {b : β} (related : Q a b) : L.Paired R Q (pure a) (pure b) :=
  fun _ _ _ _ holds => .both le_rfl (.ok related) holds

theorem throw {e e' : EvalError} (fails : FailsAlike e e') : L.Paired R Q (throw e) (throw e') :=
  fun _ _ _ _ holds => .both le_rfl (.error fails) holds

theorem get {m : State → Eval α} {m' : State → Eval β}
    (h : ∀ ⦃R' : Links⦄ ⦃s s' : State⦄, R ≤ R' → L.Holds R' s s' → L.Paired R' Q (m s) (m' s')) :
    L.Paired R Q (MonadState.get >>= m) (MonadState.get >>= m') :=
  fun _ _ _ more holds => h more holds le_rfl holds

theorem bind {m : Eval α} {m' : Eval β} {f : α → Eval γ} {f' : β → Eval δ} (h : L.Paired R Q m m')
    (next : ∀ a b, Q a b → L.Paired R S (f a) (f' b)) : L.Paired R S (m >>= f) (m' >>= f') := by
  intro R' s s' more holds
  have first := h more holds
  rcases result : m s with ⟨r, t⟩
  rcases result' : m' s' with ⟨r', t'⟩
  rw [result, result'] at first
  cases first with
  | both grown alike holds =>
    cases alike with
    | ok related =>
      rw [bind_of_ok result, bind_of_ok result']
      exact (next _ _ related (le_trans more grown) holds).of_le grown
    | error fails =>
      rw [bind_of_error result, bind_of_error result']
      exact .both grown (.error fails) holds
  | excused h =>
    rw [bind_of_error result]
    exact .excused h
  | dead h =>
    rw [bind_of_error result']
    exact .dead h

theorem tried {m : Eval α} {m' : Eval β} (h : L.Paired R Q m m') :
    L.Paired R (ResultsAlike Q) (tried m) (Evaluation.tried m') := by
  intro R' s s' more holds
  have first := h more holds
  rw [Evaluation.tried, Evaluation.tried]
  generalize m s = x, m' s' = y at first
  cases first with
  | both grown alike holds =>
    cases alike with
    | ok related => exact .both grown (.ok (.ok related)) holds
    | @error e e' fails =>
      simp only [fails.kind]
      split
      · exact .both grown (.ok (.error fails)) holds
      · exact .both grown (.error fails) holds
  | excused h =>
    simp only [if_neg (L.excused h)]
    exact .excused h
  | dead h =>
    simp only [if_neg (L.dead h)]
    exact .dead h

end Paired

/-- Places in scopes that stand for each other, in files with the same imports. -/
structure PlaceLinked (L : Lockstep) (R : Links) (place place' : Place) : Prop where
  scope : R place.scope place'.scope
  file : FilesLinked L.files L.files' place.file place'.file
  path : place.path = place'.path

inductive TaskLinked (L : Lockstep) (R : Links) : Task → Task → Prop
  | body {id id' : Nat} (own : R id id') : TaskLinked L R (.body id) (.body id')
  | expr {e e' : Expr} {place place' : Place} (same : e.Recast e') (at_ : L.PlaceLinked R place place') :
    TaskLinked L R (.expr e place) (.expr e' place')

theorem PlaceLinked.mono {R' : Links} {place place' : Place} (h : L.PlaceLinked R place place') (more : R ≤ R') :
    L.PlaceLinked R' place place' := { h with scope := more _ _ h.scope }

theorem TaskLinked.mono {R' : Links} {t t' : Task} (h : L.TaskLinked R t t') (more : R ≤ R') : L.TaskLinked R' t t' := by
  cases h with
  | body own => exact .body (more _ _ own)
  | expr same at_ => exact .expr same (at_.mono more)


/-- A name refers to imports of the same path. -/
theorem imports {s s' : State} (holds : L.Holds R s s') {file file' : Nat} (h : FilesLinked L.files L.files' file file')
    (name : String) : Option.Rel (fun i i' => i.path = i'.path) (s.scopes.import? file name) (s'.scopes.import? file' name) := by
  obtain ⟨files, files'⟩ := L.sources holds
  obtain ⟨f, f', source, source', imports⟩ := h
  rw [Scopes.import?, Scopes.import?, files, files', source, source']
  exact imports.find? name

section Steps

theorem paired_fail {place place' : Place} (path : place.path = place'.path) {problem problem' : Problem}
    (same : problem.unplaced = problem'.unplaced) (span span' : Span) :
    L.Paired R Q (fail place problem span) (fail place' problem' span') :=
  .get fun _ _ _ _ _ => .throw ⟨path, same⟩

theorem paired_unifyAt (path : String) (fallback fallback' : Option Position) {a a' b b' : Value}
    (left : ValuesAlike a a') (right : ValuesAlike b b') :
    L.Paired R ValuesAlike (unifyAt path fallback a b) (unifyAt path fallback' a' b') := by
  have met := Value.unify_unplaced a b
  have met' := Value.unify_unplaced a' b'
  rw [Value.Unplaced, left, right] at met
  rw [Value.Unplaced, met] at met'
  rw [unifyAt, unifyAt]
  generalize a.unify b = r, a'.unify b' = r' at met'
  cases r with
  | ok v =>
    cases r' with
    | ok v' => exact .pure (Except.ok.inj met')
    | error c' => cases met'
  | error c =>
    cases r' with
    | ok v' => cases met'
    | error c' =>
      have same : c.unplaced = c'.unplaced := Except.error.inj met'
      have labels : c.unplaced.labels = c'.unplaced.labels := congrArg Conflict.labels same
      have clash : c.unplaced.clash = c'.unplaced.clash := congrArg Conflict.clash same
      exact .throw ⟨congrArg (List.foldl joinPath path) labels, congrArg Problem.clash clash⟩

theorem paired_select {place place' : Place} (path : place.path = place'.path) (field : String) (span span' : Span)
    {base base' : Value} (same : ValuesAlike base base') :
    L.Paired R ValuesAlike (select place ⟨field, span⟩ base) (select place' ⟨field, span'⟩ base') := by
  have found := selected_unplaced field base
  rw [same, selected_unplaced] at found
  rw [select_eq, select_eq]
  simp only
  generalize Closure.selected field base = r, Closure.selected field base' = r' at found
  cases r with
  | ok v =>
    cases r' with
    | ok v' => exact .pure (Except.ok.inj found).symm
    | error _ => cases found
  | error problem =>
    cases r' with
    | ok _ => cases found
    | error problem' => exact paired_fail path (Except.error.inj found).symm _ _

end Steps

section Rules

variable {task task' : Task → Eval Value}

/-- Related tasks are evaluated side by side. -/
def TasksPaired (L : Lockstep) (task task' : Task → Eval Value) : Prop :=
  ∀ ⦃R : Links⦄ ⦃t t' : Task⦄, L.TaskLinked R t t' → L.Paired R ValuesAlike (task t) (task' t')

namespace TasksPaired

variable (tasks : L.TasksPaired task task')

include tasks

theorem conjunct {c c' : Conjunct} (h : c.Linked L.files L.files' R c') {path path' : String} (same : path = path') :
    L.Paired R ValuesAlike (task (.expr c.expr ⟨c.scope, c.file, path⟩))
      (task' (.expr c'.expr ⟨c'.scope, c'.file, path'⟩)) :=
  tasks (.expr h.expr ⟨h.scope, h.file, same⟩)

theorem conjoinAll {cs cs' : List Conjunct} (h : List.Forall₂ (Conjunct.Linked L.files L.files' R) cs cs') (path : String)
    (position position' : Position) {v v' : Value} (same : ValuesAlike v v') :
    L.Paired R ValuesAlike (conjoinAll task path position cs v) (Evaluation.conjoinAll task' path position' cs' v') := by
  induction h generalizing v v' with
  | nil => exact .pure same
  | cons first _ ih =>
    rw [Evaluation.conjoinAll, Evaluation.conjoinAll]
    refine (tasks.conjunct first rfl).bind fun next next' alike => ?_
    exact (paired_unifyAt path _ _ same alike).bind fun _ _ met => ih met

theorem fieldValue {id id' : Nat} (own : R id id') (label : String) :
    L.Paired R ValuesAlike (fieldValue task id label) (Evaluation.fieldValue task' id' label) := by
  refine .get fun R' s s' more holds => ?_
  obtain ⟨files, files'⟩ := L.sources holds
  have linked := L.linked holds
  have entry := linked.entryOf? (more _ _ own) label
  rw [files, files'] at entry
  simp only [(linked.node (more _ _ own)).path]
  generalize s.scopes.entryOf? id label = e, s'.scopes.entryOf? id' label = e' at entry
  cases entry with
  | none => exact .throw ⟨rfl, rfl⟩
  | @some e e' entry =>
    refine (tasks.conjoinAll entry.conjuncts _ _ _ rfl).bind fun v v' same => ?_
    have inner := entry.inner
    generalize e.inner = k, e'.inner = k' at inner
    cases inner with
    | none => exact .pure same
    | some inner => exact (tasks (.body inner)).bind fun body body' alike => paired_unifyAt _ _ _ same alike

end TasksPaired

variable {parts parts' : Parts}

structure PartsPaired (L : Lockstep) (parts parts' : Parts) : Prop where
  task : L.TasksPaired parts.task parts'.task
  field ⦃R : Links⦄ {id id' : Nat} (own : R id id') (label : String) :
    L.Paired R ValuesAlike (parts.field id label) (parts'.field id' label)

namespace PartsPaired

variable (paired : L.PartsPaired parts parts') {place place' : Place} (at_ : L.PlaceLinked R place place')

include paired at_

theorem nameValue (name : String) (span span' : Span) :
    L.Paired R ValuesAlike (nameValue parts place ⟨name, span⟩) (Evaluation.nameValue parts' place' ⟨name, span'⟩) := by
  refine .get fun R' s s' more holds => ?_
  have found := (L.linked holds).lookup (more _ _ at_.scope) name
  have imported := L.imports holds at_.file name
  simp only
  generalize s.scopes.lookup place.scope name = k, s'.scopes.lookup place'.scope name = k' at found
  cases found with
  | some own => exact paired.field own name
  | none =>
    simp only
    generalize s.scopes.import? place.file name = i, s'.scopes.import? place'.file name = i' at imported
    cases imported with
    | some same => exact paired_fail at_.path (by rw [same]) _ _
    | none =>
      simp only
      split
      · exact .pure rfl
      · cases Kind.ofName? name with
        | some k => exact .pure rfl
        | none => exact paired_fail at_.path rfl _ _

/-- What is found of a disjunction, and the conflict that is kept. -/
def FoundAlike (found found' : List (Alternative Value) × Option EvalError) : Prop :=
  found.1.map Alternative.unplaced = found'.1.map Alternative.unplaced ∧ Option.Rel FailsAlike found.2 found'.2

theorem alternatives {es es' : List Expr} (h : List.Forall₂ Syntax.Expr.Recast es es') :
    L.Paired R FoundAlike (alternatives parts place es) (Evaluation.alternatives parts' place' es') := by
  induction h with
  | nil => exact .pure ⟨rfl, .none⟩
  | cons first _ ih =>
    rw [alternatives_cons, alternatives_cons]
    obtain ⟨marked, same⟩ := unmarked_recast first
    refine (paired.task (.expr same at_)).tried.bind fun result result' alike => ?_
    refine ih.bind fun others others' rest => ?_
    obtain ⟨found, fails⟩ := rest
    cases alike with
    | ok same => exact .pure ⟨by simp only [List.map_cons, found, Alternative.unplaced, marked, show _ = _ from same], fails⟩
    | error conflict => exact .pure ⟨found, .some conflict⟩

theorem disjunctionValue {e e' : Expr} (same : e.Recast e') :
    L.Paired R ValuesAlike (disjunctionValue parts place e) (Evaluation.disjunctionValue parts' place' e') := by
  rw [Evaluation.disjunctionValue, Evaluation.disjunctionValue]
  refine (paired.alternatives at_ (operands_recast same)).bind fun found found' both => ?_
  obtain ⟨found, conflict⟩ := found
  obtain ⟨found', conflict'⟩ := found'
  obtain ⟨alike, fails⟩ := both
  have disjoined : L.Paired R ValuesAlike (pure (Value.disjoin found)) (pure (Value.disjoin found')) := by
    refine .pure ?_
    rw [ValuesAlike, ← Value.disjoin_unplaced, alike, Value.disjoin_unplaced]
  cases found with
  | cons _ _ =>
    cases found' with
    | cons _ _ => exact disjoined
    | nil => cases alike
  | nil =>
    cases found' with
    | cons _ _ => cases alike
    | nil =>
      cases fails with
      | none => exact disjoined
      | some fails => exact .throw fails

theorem items {es es' : List Expr} (h : List.Forall₂ Syntax.Expr.Recast es es') :
    L.Paired R (fun vs vs' => vs.map Value.unplaced = vs'.map Value.unplaced)
      (es.mapM fun e => parts.task (.expr e place)) (es'.mapM fun e => parts'.task (.expr e place')) := by
  induction h with
  | nil => exact .pure rfl
  | cons first _ ih =>
    rw [List.mapM_cons, List.mapM_cons]
    refine (paired.task (.expr first at_)).bind fun v v' same => ?_
    refine ih.bind fun vs vs' alike => .pure ?_
    rw [List.map_cons, List.map_cons, alike, show _ = _ from same]

theorem selectValue {base base' : Expr} (same : base.Recast base') (field : String) (span span' : Span) :
    L.Paired R ValuesAlike (exprValue parts place (.select base ⟨field, span⟩))
      (Evaluation.exprValue parts' place' (.select base' ⟨field, span'⟩)) := by
  refine .get fun R' s s' more holds => ?_
  have key := reference?_linked (L.linked holds) (more _ _ at_.scope) (.select field span span' same)
  generalize reference? s.scopes place.scope _ = k, reference? s'.scopes place'.scope _ = k' at key
  cases key with
  | @some key key' linked =>
    obtain ⟨id, label⟩ := key
    obtain ⟨id', _⟩ := key'
    obtain ⟨own, rfl⟩ := linked
    exact paired.field own label
  | none =>
    refine (paired.task (.expr same (at_.mono more))).bind fun v v' alike => ?_
    exact paired_select at_.path field span span' alike

theorem structValue {decls decls' : List Decl} (same : Decl.RecastAll decls decls') (span span' : Span) :
    L.Paired R ValuesAlike (exprValue parts place (.struct decls span))
      (Evaluation.exprValue parts' place' (.struct decls' span')) := by
  intro R' s s' more holds
  obtain ⟨R'', grown, holds, own⟩ := L.literal place.path holds (more _ _ at_.scope) at_.file same
  have body := (paired.task (.body own) le_rfl holds).of_le grown
  show L.Outcome ValuesAlike R' _
    (parts'.task (.body (s'.scopes.addStruct place'.scope place'.path place'.file decls').1)
      { s' with scopes := (s'.scopes.addStruct place'.scope place'.path place'.file decls').2 })
  rw [← at_.path]
  exact body

theorem exprValue {e e' : Expr} (same : e.Recast e') :
    L.Paired R ValuesAlike (exprValue parts place e) (Evaluation.exprValue parts' place' e') := by
  match same with
  | .null _ _ | .bool _ _ _ | .int _ _ _ | .float _ _ _ | .string _ _ _ => exact .pure rfl
  | .paren _ _ inner => exact paired.task (.expr inner at_)
  | .ident name _ _ => exact paired.nameValue at_ name _ _
  | .select field _ _ base => exact paired.selectValue at_ base field _ _
  | .struct _ _ body => exact paired.structValue at_ body _ _
  | .list _ _ items =>
    refine (paired.items at_ items.forall₂).bind fun vs vs' alike => .pure ?_
    rw [ValuesAlike, Value.unplaced_list, Value.unplaced_list, alike]
  | .unary .negate span span' operand =>
    refine (paired.task (.expr operand at_)).bind fun v v' alike => ?_
    have negated := negate_unplaced v
    rw [show _ = _ from alike, negate_unplaced] at negated
    generalize negate v = w, negate v' = w' at negated
    cases w with
    | some w =>
      cases w' with
      | some w' => exact .pure (Option.some.inj negated).symm
      | none => cases negated
    | none =>
      cases w' with
      | some w' => cases negated
      | none =>
        have same : (Problem.operand v).unplaced = (Problem.operand v').unplaced := congrArg Problem.operand alike
        exact paired_fail at_.path same span span'
  | .unary .mark _ _ operand => exact paired.task (.expr operand at_)
  | .binary .unify left right =>
    refine (paired.task (.expr left at_)).bind fun a a' alike => ?_
    refine (paired.task (.expr right at_)).bind fun b b' alike' => ?_
    refine .get fun _ _ _ _ _ => ?_
    rw [at_.path]
    exact paired_unifyAt _ _ _ alike alike'
  | .binary .disjoin left right => exact paired.disjunctionValue at_ (.binary .disjoin left right)

omit at_

theorem bodyFields {id id' : Nat} (own : R id id') {es es' : List Entry}
    (h : List.Forall₂ (Entry.Linked L.files L.files' R) es es') :
    L.Paired R (fun fields fields' => fields.map Field.unplaced = fields'.map Field.unplaced) (bodyFields parts id es)
      (Evaluation.bodyFields parts' id' es') := by
  induction h with
  | nil => exact .pure rfl
  | cons first _ ih =>
    rw [Evaluation.bodyFields, Evaluation.bodyFields, first.label]
    refine (paired.field own _).bind fun v v' same => ?_
    refine ih.bind fun fields fields' alike => .pure ?_
    simp only [List.map_cons, alike, Field.unplaced, first.kind, first.optional, show _ = _ from same, Option.map_some]

theorem embedAll {cs cs' : List Conjunct} (h : List.Forall₂ (Conjunct.Linked L.files L.files' R) cs cs')
    (path : String) {v v' : Value} (same : ValuesAlike v v') :
    L.Paired R ValuesAlike (embedAll parts path cs v) (Evaluation.embedAll parts' path cs' v') := by
  induction h generalizing v v' with
  | nil => exact .pure same
  | cons first _ ih =>
    rw [Evaluation.embedAll, Evaluation.embedAll]
    refine (paired.task.conjunct first rfl).bind fun embedded embedded' alike => ?_
    refine .get fun _ _ _ more _ => ?_
    exact (paired_unifyAt path _ _ same alike).bind fun _ _ met => (ih met).mono more

theorem bodyValue {id id' : Nat} (own : R id id') :
    L.Paired R ValuesAlike (bodyValue parts id) (Evaluation.bodyValue parts' id') := by
  refine .get fun R' s s' more holds => ?_
  obtain ⟨files, files'⟩ := L.sources holds
  have body := (L.linked holds).node (more _ _ own)
  rw [files, files'] at body
  refine (paired.bodyFields (more _ _ own) body.entries).bind fun fields fields' alike => ?_
  have none : fields.isEmpty = fields'.isEmpty := by
    rw [← List.isEmpty_map (f := Field.unplaced), alike, List.isEmpty_map]
  rw [body.path]
  refine paired.embedAll body.embeds _ ?_
  rw [isEmpty_of_forall₂ body.embeds, none]
  split
  · rw [ValuesAlike, Value.unplaced_struct, Value.unplaced_struct, alike]
  · rfl

/-- The rules lead from parts that are evaluated side by side to tasks that are. -/
theorem perform : L.TasksPaired (perform parts) (Evaluation.perform parts') := by
  intro R t t' linked
  cases linked with
  | body own => exact paired.bodyValue own
  | expr same at_ => exact paired.exprValue at_ same

end PartsPaired

end Rules

end Lockstep

end StackLattice.Evaluation
