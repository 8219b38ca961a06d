import StackLattice.Proofs.Evaluation.Agreement
import StackLattice.Proofs.Evaluation.UnplacedScopes

/-!
Evaluation without places. A run over scopes of files without imports is mirrored, step by step, by a run over the same
scopes without their files: both come to the same value, or to the same failure, but for places.
-/

namespace StackLattice

open Syntax (Expr Decl Ident ParsedFile)

/-- The problem with values without places. -/
def Problem.unplaced : Problem → Problem
  | clash c => clash c.unplaced
  | operand v => operand v.unplaced
  | notConcrete v => notConcrete v.unplaced
  | selectFromAmbiguous v label => selectFromAmbiguous v.unplaced label
  | selectFromIncomplete v label => selectFromIncomplete v.unplaced label
  | selectFromScalar v label => selectFromScalar v.unplaced label
  | p => p

theorem Problem.kind_unplaced (p : Problem) : p.unplaced.kind = p.kind := by
  cases p <;> rfl

theorem Problem.message_unplaced (path : String) (p : Problem) : p.unplaced.message path = p.message path := by
  unfold message
  cases p with
  | clash c => simp only [unplaced, Clash.message_unplaced]
  | operand v | notConcrete v | selectFromAmbiguous v _ | selectFromIncomplete v _ | selectFromScalar v _ =>
    simp only [unplaced, Value.render_unplaced]
  | _ => rfl

namespace Evaluation

/-- The same failure, wherever it is found. -/
structure FailsAs (e e' : EvalError) : Prop where
  path : e'.path = e.path
  problem : e'.problem = e.problem.unplaced

namespace FailsAs

variable {e e' : EvalError}

theorem kind (h : FailsAs e e') : e'.kind = e.kind := by
  rw [EvalError.kind, h.problem, Problem.kind_unplaced, EvalError.kind]

theorem message (h : FailsAs e e') : e'.message = e.message := by
  rw [EvalError.message, h.problem, Problem.message_unplaced, h.path, EvalError.message]

end FailsAs

/-- A result in one run and what mirrors it in the other. -/
inductive Mirrors {α : Type} (R : α → α → Prop) : Except EvalError α → Except EvalError α → Prop
  | ok {a a' : α} (related : R a a') : Mirrors R (.ok a) (.ok a')
  | error {e e' : EvalError} (fails : FailsAs e e') : Mirrors R (.error e) (.error e')

def IsUnplaced (v v' : Value) : Prop := v' = v.unplaced

/-- A state over files without imports, and its mirror image over no files. -/
structure Shadows (s s' : State) : Prop where
  scopes : s'.scopes = s.scopes.unplaced
  imports : ∀ file name, s.scopes.import? file name = none
  cache : List.Forall₂ (fun c c' => c'.1 = c.1 ∧ Mirrors IsUnplaced c.2 c'.2) s.cache s'.cache
  active : s'.active = s.active
  depth : s'.depth = s.depth

def Mirrored {α : Type} (R : α → α → Prop) (m m' : Eval α) : Prop :=
  ∀ s s', Shadows s s' → Mirrors R (m s).1 (m' s').1 ∧ Shadows (m s).2 (m' s').2

namespace Mirrored

variable {α β : Type} {R : α → α → Prop} {Q : β → β → Prop}

theorem pure {a a' : α} (h : R a a') : Mirrored R (pure a) (pure a') :=
  fun _ _ shadows => ⟨.ok h, shadows⟩

theorem throw {e e' : EvalError} (h : FailsAs e e') : Mirrored R (throw e) (throw e') :=
  fun _ _ shadows => ⟨.error h, shadows⟩

theorem get {m m' : State → Eval α}
    (h : ∀ s s', Shadows s s' → Mirrors R (m s s).1 (m' s' s').1 ∧ Shadows (m s s).2 (m' s' s').2) :
    Mirrored R (MonadState.get >>= m) (MonadState.get >>= m') := h

theorem bind {m m' : Eval α} {f f' : α → Eval β} (h : Mirrored R m m')
    (next : ∀ a a', R a a' → Mirrored Q (f a) (f' a')) : Mirrored Q (m >>= f) (m' >>= f') := by
  intro s s' shadows
  have first := h s s' shadows
  rcases result : m s with ⟨r, t⟩
  rcases result' : m' s' with ⟨r', t'⟩
  rw [result, result'] at first
  obtain ⟨mirrors, shadows⟩ := first
  cases mirrors with
  | ok related =>
    rw [bind_of_ok result, bind_of_ok result']
    exact next _ _ related t t' shadows
  | error fails =>
    rw [bind_of_error result, bind_of_error result']
    exact ⟨.error fails, shadows⟩

theorem tried {m m' : Eval α} (h : Mirrored R m m') : Mirrored (Mirrors R) (tried m) (Evaluation.tried m') := by
  intro s s' shadows
  have first := h s s' shadows
  rcases result : m s with ⟨r, t⟩
  rcases result' : m' s' with ⟨r', t'⟩
  rw [result, result'] at first
  rw [Evaluation.tried, Evaluation.tried, result, result']
  obtain ⟨mirrors, shadows⟩ := first
  cases mirrors with
  | ok related => exact ⟨.ok (.ok related), shadows⟩
  | @error e e' fails =>
    simp only [fails.kind]
    by_cases conflict : e.kind = .conflict
    · rw [if_pos conflict, if_pos conflict]
      exact ⟨.ok (.error fails), shadows⟩
    · rw [if_neg conflict, if_neg conflict]
      exact ⟨.error fails, shadows⟩

end Mirrored

def Place.unplaced (p : Place) : Place := { p with file := 0 }

def Task.unplaced : Task → Task
  | body id => body id
  | expr e place => expr e.bare place.unplaced

theorem fail_mirrored {α : Type} {R : α → α → Prop} (place : Place) (problem : Problem) (span span' : Span) :
    Mirrored R (fail place problem span) (fail place.unplaced problem.unplaced span') :=
  .get fun _ _ shadows => ⟨.error ⟨rfl, rfl⟩, shadows⟩

theorem unifyAt_mirrored (path : String) (fallback fallback' : Option Position) (a b : Value) :
    Mirrored IsUnplaced (unifyAt path fallback a b) (unifyAt path fallback' a.unplaced b.unplaced) := by
  rw [unifyAt, unifyAt, Value.unify_unplaced a b]
  cases a.unify b with
  | ok value => exact .pure rfl
  | error c => exact .throw ⟨rfl, rfl⟩

theorem negate_unplaced (v : Value) : negate v.unplaced = (negate v).map Value.unplaced := by
  cases v with
  | int n =>
    rw [Value.unplaced_of_isScalar rfl, negate]
    split <;> rfl
  | kind k =>
    rw [Value.unplaced_kind, negate]
    split <;> rfl
  | _ => rfl

/-- What is selected, or the problem with it, without places. -/
def selectedUnplaced : Except Problem Value → Except Problem Value
  | .ok value => .ok value.unplaced
  | .error problem => .error problem.unplaced

theorem selected_unplaced (label : String) (base : Value) :
    Closure.selected label base.unplaced = selectedUnplaced (Closure.selected label base) := by
  fun_induction Closure.selected label base with
  | case1 fields f found =>
    rw [Value.unplaced_struct, Closure.selected, Value.find?_unplaced, found]
    rfl
  | case2 fields missing =>
    rw [Value.unplaced_struct, Closure.selected, Value.find?_unplaced, missing]
    rfl
  | case3 alternatives value resolved ih =>
    have same := Value.resolved_unplaced (.disjunction alternatives)
    rw [Value.unplaced_disjunction, resolved] at same
    rw [Value.unplaced_disjunction, Closure.selected, ← ih]
    split
    · rename_i other again
      rw [again] at same
      cases same
      rfl
    · rename_i none
      rw [none] at same
      cases same
  | case4 alternatives resolved =>
    have same := Value.resolved_unplaced (.disjunction alternatives)
    rw [Value.unplaced_disjunction, resolved] at same
    rw [Value.unplaced_disjunction, Closure.selected]
    split
    · rename_i value again
      rw [again] at same
      cases same
    · rw [← Value.unplaced_disjunction]
      rfl
  | case5 => rw [Value.unplaced_top, Closure.selected]; rfl
  | case6 => rw [Value.unplaced_kind, Closure.selected]; rfl
  | case7 base noStruct noDisjunction noTop noKind =>
    cases base with
    | struct fields => exact absurd rfl (noStruct fields)
    | disjunction alternatives => exact absurd rfl (noDisjunction alternatives)
    | top => exact absurd rfl noTop
    | kind k => exact absurd rfl (noKind k)
    | _ => simp only [Value.unplaced, Closure.selected, selectedUnplaced, Problem.unplaced]

theorem select_mirrored (place : Place) (field : Ident) (base : Value) :
    Mirrored IsUnplaced (select place field base) (select place.unplaced field.bare base.unplaced) := by
  rw [select_eq, select_eq, show field.bare.name = field.name from rfl, selected_unplaced]
  cases Closure.selected field.name base with
  | ok value => exact .pure rfl
  | error problem => exact fail_mirrored place problem _ _

section Fields

variable {task task' : Task → Eval Value}

def TasksMirrored (task task' : Task → Eval Value) : Prop := ∀ t, Mirrored IsUnplaced (task t) (task' t.unplaced)

theorem TasksMirrored.conjoinAll (mirrored : TasksMirrored task task') (path : String) (position position' : Position)
    (cs : List Conjunct) (value : Value) :
    Mirrored IsUnplaced (conjoinAll task path position cs value)
      (Evaluation.conjoinAll task' path position' (cs.map Conjunct.unplaced) value.unplaced) := by
  induction cs generalizing value with
  | nil => exact .pure rfl
  | cons c cs ih =>
    rw [Evaluation.conjoinAll, List.map_cons, Evaluation.conjoinAll]
    refine (mirrored (.expr c.expr ⟨c.scope, c.file, path⟩)).bind fun next _ same => ?_
    cases same
    refine (unifyAt_mirrored path _ _ value next).bind fun met _ same => ?_
    cases same
    exact ih met

theorem TasksMirrored.fieldValue (mirrored : TasksMirrored task task') (id : ScopeId) (label : String) :
    Mirrored IsUnplaced (fieldValue task id label) (Evaluation.fieldValue task' id label) := by
  refine .get fun s s' shadows => ?_
  simp only [shadows.scopes, Scopes.node_unplaced, Scopes.entryOf?_unplaced]
  cases s.scopes.entryOf? id label with
  | none => exact ⟨.error ⟨rfl, rfl⟩, shadows⟩
  | some entry =>
    refine Mirrored.bind (mirrored.conjoinAll _ _ _ entry.conjuncts .top) (fun value _ same => ?_) s s' shadows
    cases same
    have inner : entry.unplaced.inner = entry.inner := rfl
    rw [inner]
    cases entry.inner with
    | none => exact .pure rfl
    | some inner =>
      refine (mirrored (.body inner)).bind fun body _ same => ?_
      cases same
      exact unifyAt_mirrored _ _ _ value body

end Fields

section Expressions

variable {parts parts' : Parts}

structure PartsMirrored (parts parts' : Parts) : Prop where
  task : TasksMirrored parts.task parts'.task
  field : ∀ id label, Mirrored IsUnplaced (parts.field id label) (parts'.field id label)

namespace PartsMirrored

theorem expr (mirrored : PartsMirrored parts parts') (place : Place) (e : Expr) :
    Mirrored IsUnplaced (parts.task (.expr e place)) (parts'.task (.expr e.bare place.unplaced)) :=
  mirrored.task (.expr e place)

theorem nameValue (mirrored : PartsMirrored parts parts') (place : Place) (name : Ident) :
    Mirrored IsUnplaced (nameValue parts place name) (Evaluation.nameValue parts' place.unplaced name.bare) := by
  refine .get fun s s' shadows => ?_
  have name' : name.bare.name = name.name := rfl
  have scope : place.unplaced.scope = place.scope := rfl
  simp only [shadows.scopes, name', scope, Scopes.lookup_unplaced, shadows.imports, Scopes.import?_unplaced]
  cases s.scopes.lookup place.scope name.name with
  | some id => exact mirrored.field id name.name s s' shadows
  | none =>
    by_cases any : name.name = "_"
    · simp only [any, if_true]
      exact ⟨.ok rfl, shadows⟩
    · simp only [any, if_false]
      cases Kind.ofName? name.name with
      | some k => exact ⟨.ok rfl, shadows⟩
      | none => exact fail_mirrored place (.unknownName name.name) _ _ s s' shadows

/-- What is found of a disjunction, and the conflict that is kept. -/
def IsFound (found found' : List (Alternative Value) × Option EvalError) : Prop :=
  found'.1 = found.1.map Alternative.unplaced ∧ Option.Rel FailsAs found.2 found'.2

theorem alternatives (mirrored : PartsMirrored parts parts') (place : Place) (es : List Expr) :
    Mirrored IsFound (alternatives parts place es) (Evaluation.alternatives parts' place.unplaced (es.map Expr.bare)) := by
  induction es with
  | nil => exact .pure ⟨rfl, .none⟩
  | cons operand es ih =>
    rw [alternatives_cons, List.map_cons, alternatives_cons, unmarked_bare]
    refine (mirrored.expr place _).tried.bind fun result result' mirrors => ?_
    refine ih.bind fun ⟨others, conflict⟩ ⟨others', conflict'⟩ ⟨same, fails⟩ => ?_
    cases same
    cases mirrors with
    | ok same =>
      cases same
      exact .pure ⟨rfl, fails⟩
    | error conflict => exact .pure ⟨rfl, .some conflict⟩

theorem disjunctionValue (mirrored : PartsMirrored parts parts') (place : Place) (e : Expr) :
    Mirrored IsUnplaced (disjunctionValue parts place e) (Evaluation.disjunctionValue parts' place.unplaced e.bare) := by
  rw [Evaluation.disjunctionValue, Evaluation.disjunctionValue, operands_bare]
  refine (mirrored.alternatives place (operands e)).bind fun ⟨found, conflict⟩ ⟨found', conflict'⟩ ⟨same, fails⟩ => ?_
  cases same
  have disjoined : Mirrored IsUnplaced (Pure.pure (Value.disjoin found))
      (Pure.pure (Value.disjoin (found.map Alternative.unplaced))) := .pure (Value.disjoin_unplaced found)
  cases found with
  | cons _ _ => exact disjoined
  | nil =>
    cases fails with
    | none => exact disjoined
    | some fails => exact .throw fails

theorem items (mirrored : PartsMirrored parts parts') (place : Place) (es : List Expr) :
    Mirrored (fun items items' => items' = items.map Value.unplaced) (es.mapM fun e => parts.task (.expr e place))
      ((es.map Expr.bare).mapM fun e => parts'.task (.expr e place.unplaced)) := by
  induction es with
  | nil => exact .pure rfl
  | cons e es ih =>
    rw [List.map_cons, List.mapM_cons, List.mapM_cons]
    refine (mirrored.expr place e).bind fun value _ same => ?_
    cases same
    refine ih.bind fun values _ same => ?_
    cases same
    exact .pure rfl

theorem selectValue (mirrored : PartsMirrored parts parts') (place : Place) (base : Expr) (field : Ident) :
    Mirrored IsUnplaced (exprValue parts place (.select base field))
      (Evaluation.exprValue parts' place.unplaced (Expr.select base field).bare) := by
  refine .get fun s s' shadows => ?_
  have same : reference? s'.scopes place.unplaced.scope (Expr.select base field).bare =
      reference? s.scopes place.scope (.select base field) := by
    rw [shadows.scopes]
    exact reference?_unplaced s.scopes place.scope (.select base field)
  rw [same]
  cases reference? s.scopes place.scope (.select base field) with
  | some key => exact mirrored.field key.1 key.2 s s' shadows
  | none =>
    refine Mirrored.bind (mirrored.expr place base) (fun value _ same => ?_) s s' shadows
    cases same
    exact select_mirrored place field value

theorem structValue (mirrored : PartsMirrored parts parts') (place : Place) (decls : List Decl) (span : Span) :
    Mirrored IsUnplaced (exprValue parts place (.struct decls span))
      (Evaluation.exprValue parts' place.unplaced (Expr.struct decls span).bare) := by
  intro s s' shadows
  have added := s.scopes.addStruct_unplaced place.file place.scope place.path decls
  rw [← shadows.scopes] at added
  have grown : Shadows { s with scopes := (s.scopes.addStruct place.scope place.path place.file decls).2 }
      { s' with scopes := (s'.scopes.addStruct place.scope place.path 0 (Decl.bareAll decls)).2 } := by
    refine { shadows with scopes := congrArg Prod.snd added, imports := fun file name => ?_ }
    rw [Scopes.import?, Scopes.files_addStruct]
    exact shadows.imports file name
  show Mirrors IsUnplaced _ (parts'.task (.body (s'.scopes.addStruct place.scope place.path 0 (Decl.bareAll decls)).1) _).1 ∧
    Shadows _ (parts'.task (.body (s'.scopes.addStruct place.scope place.path 0 (Decl.bareAll decls)).1) _).2
  rw [congrArg Prod.fst added]
  exact mirrored.task (.body (s.scopes.addStruct place.scope place.path place.file decls).1) _ _ grown

theorem exprValue (mirrored : PartsMirrored parts parts') (place : Place) (e : Expr) :
    Mirrored IsUnplaced (exprValue parts place e) (Evaluation.exprValue parts' place.unplaced e.bare) := by
  cases e with
  | null _ | bool _ _ | int _ _ | float _ _ | string _ _ => exact .pure rfl
  | paren inner _ => exact mirrored.expr place inner
  | ident name => exact mirrored.nameValue place name
  | select base field => exact mirrored.selectValue place base field
  | struct decls span => exact mirrored.structValue place decls span
  | list es _ =>
    rw [Expr.bare, Expr.bareAll_eq_map]
    refine (mirrored.items place es).bind fun values _ same => ?_
    cases same
    exact .pure (Value.unplaced_list values).symm
  | unary op operand span =>
    cases op with
    | negate =>
      refine (mirrored.expr place operand).bind fun value _ same => ?_
      cases same
      rw [negate_unplaced]
      cases negate value with
      | some result => exact .pure rfl
      | none => exact fail_mirrored place (.operand value) span _
    | mark => exact mirrored.expr place operand
  | binary op left right =>
    cases op with
    | unify =>
      refine (mirrored.expr place left).bind fun a _ same => ?_
      cases same
      refine (mirrored.expr place right).bind fun b _ same => ?_
      cases same
      exact .get fun s s' => unifyAt_mirrored place.path _ _ a b s s'
    | disjoin => exact mirrored.disjunctionValue place _

theorem bodyFields (mirrored : PartsMirrored parts parts') (id : ScopeId) (entries : List Entry) :
    Mirrored (fun fields fields' => fields' = fields.map Field.unplaced) (bodyFields parts id entries)
      (Evaluation.bodyFields parts' id (entries.map Entry.unplaced)) := by
  induction entries with
  | nil => exact .pure rfl
  | cons entry entries ih =>
    rw [Evaluation.bodyFields, List.map_cons, Evaluation.bodyFields]
    refine (mirrored.field id entry.label).bind fun value _ same => ?_
    cases same
    refine ih.bind fun fields _ same => ?_
    cases same
    exact .pure rfl

theorem embedAll (mirrored : PartsMirrored parts parts') (path : String) (cs : List Conjunct) (value : Value) :
    Mirrored IsUnplaced (embedAll parts path cs value)
      (Evaluation.embedAll parts' path (cs.map Conjunct.unplaced) value.unplaced) := by
  induction cs generalizing value with
  | nil => exact .pure rfl
  | cons c cs ih =>
    rw [Evaluation.embedAll, List.map_cons, Evaluation.embedAll]
    refine (mirrored.expr ⟨c.scope, c.file, path⟩ c.expr).bind fun embedded _ same => ?_
    cases same
    refine .get fun s s' shadows => ?_
    refine Mirrored.bind (unifyAt_mirrored path _ _ value embedded) (fun met _ same => ?_) s s' shadows
    cases same
    exact ih met

theorem bodyValue (mirrored : PartsMirrored parts parts') (id : ScopeId) :
    Mirrored IsUnplaced (bodyValue parts id) (Evaluation.bodyValue parts' id) := by
  refine .get fun s s' shadows => ?_
  simp only [shadows.scopes, Scopes.node_unplaced]
  refine Mirrored.bind (mirrored.bodyFields id (s.scopes.node id).entries) (fun fields _ same => ?_) s s' shadows
  cases same
  have start : (if (s.scopes.node id).unplaced.embeds.isEmpty || !(fields.map Field.unplaced).isEmpty then
        Value.struct (fields.map Field.unplaced) else .top) =
      (if (s.scopes.node id).embeds.isEmpty || !fields.isEmpty then Value.struct fields else .top).unplaced := by
    rw [apply_ite Value.unplaced, Value.unplaced_struct, Value.unplaced_top, List.isEmpty_map]
    simp only [Scope.unplaced, List.isEmpty_map]
  simp only [start]
  exact mirrored.embedAll _ _ _

theorem perform (mirrored : PartsMirrored parts parts') : TasksMirrored (perform parts) (Evaluation.perform parts') := by
  intro t
  cases t with
  | body id => exact mirrored.bodyValue id
  | expr e place => exact mirrored.exprValue place e

end PartsMirrored

end Expressions

theorem lookup_mirrored {cache cache' : List (FieldKey × Except EvalError Value)}
    (h : List.Forall₂ (fun c c' => c'.1 = c.1 ∧ Mirrors IsUnplaced c.2 c'.2) cache cache') (key : FieldKey) :
    Option.Rel (Mirrors IsUnplaced) (cache.lookup key) (cache'.lookup key) := by
  induction h with
  | nil => exact .none
  | @cons c c' _ _ first _ ih =>
    obtain ⟨k, r⟩ := c
    obtain ⟨k', r'⟩ := c'
    obtain ⟨rfl, mirrors⟩ := first
    simp only [List.lookup_cons]
    cases key == k' with
    | true => exact .some mirrors
    | false => exact ih

theorem remember_mirrored (key : FieldKey) {compute compute' : Eval Value}
    (mirrored : Mirrored IsUnplaced compute compute') :
    Mirrored IsUnplaced (remember key compute) (remember key compute') := by
  intro s s' shadows
  have remembered := lookup_mirrored shadows.cache key
  cases found : s.cache.lookup key with
  | some r =>
    rw [found] at remembered
    generalize found' : s'.cache.lookup key = again at remembered
    cases remembered with
    | some mirrors =>
      rw [remember_cached found, remember_cached found']
      exact ⟨mirrors, shadows⟩
  | none =>
    rw [found] at remembered
    generalize found' : s'.cache.lookup key = again at remembered
    cases remembered with
    | none =>
    cases active : s.active.contains key with
    | true =>
      rw [remember_active found active, remember_active found' (shadows.active ▸ active), shadows.scopes,
        Scopes.node_unplaced]
      exact ⟨.error ⟨rfl, rfl⟩, shadows⟩
    | false =>
      have entered : Shadows { s with active := key :: s.active } { s' with active := key :: s'.active } :=
        { shadows with active := congrArg (key :: ·) shadows.active }
      rcases result : compute { s with active := key :: s.active } with ⟨r, t⟩
      rcases result' : compute' { s' with active := key :: s'.active } with ⟨r', t'⟩
      have computed := mirrored _ _ entered
      rw [result, result'] at computed
      obtain ⟨mirrors, left⟩ := computed
      rw [remember_fresh found active result, remember_fresh found' (shadows.active ▸ active) result']
      exact ⟨mirrors, { left with
        cache := .cons ⟨rfl, mirrors⟩ left.cache
        active := congrArg (List.erase · key) left.active }⟩

theorem tooDeep_mirrored {s s' : State} (shadows : Shadows s s') (t : Task) :
    FailsAs (t.tooDeep s.scopes) (t.unplaced.tooDeep s'.scopes) := by
  rw [shadows.scopes]
  cases t with
  | body id =>
    rw [Task.unplaced, Task.tooDeep, Task.tooDeep, Scopes.node_unplaced]
    exact ⟨rfl, rfl⟩
  | expr e place => exact ⟨rfl, rfl⟩

theorem nest_mirrored (t : Task) {compute compute' : Eval Value} (mirrored : Mirrored IsUnplaced compute compute') :
    Mirrored IsUnplaced (nest t compute) (nest t.unplaced compute') := by
  intro s s' shadows
  rcases Nat.lt_or_ge s.depth evaluationLimit with shallow | deep
  · have inside : Shadows { s with depth := s.depth + 1 } { s' with depth := s'.depth + 1 } :=
      { shadows with depth := congrArg (· + 1) shadows.depth }
    rcases result : compute { s with depth := s.depth + 1 } with ⟨r, u⟩
    rcases result' : compute' { s' with depth := s'.depth + 1 } with ⟨r', u'⟩
    have computed := mirrored _ _ inside
    rw [result, result'] at computed
    obtain ⟨mirrors, left⟩ := computed
    rw [nest_open shallow result, nest_open (shadows.depth ▸ shallow) result']
    exact ⟨mirrors, { left with depth := congrArg (· - 1) left.depth }⟩
  · rw [nest_deep deep, nest_deep (shadows.depth ▸ deep)]
    exact ⟨.error (tooDeep_mirrored shadows t), shadows⟩

/-- Evaluation to any depth is mirrored by evaluation without places. -/
theorem evaluate_mirrored (levels : Nat) : TasksMirrored (evaluate levels) (evaluate levels) := by
  induction levels with
  | zero =>
    intro t s s' shadows
    rw [evaluate_zero, evaluate_zero]
    exact ⟨.error (tooDeep_mirrored shadows t), shadows⟩
  | succ levels ih =>
    have parts : PartsMirrored (remembering (evaluate levels)) (remembering (evaluate levels)) :=
      ⟨ih, fun id label => remember_mirrored (id, label) (ih.fieldValue id label)⟩
    exact fun t => nest_mirrored t (parts.perform t)

end Evaluation

end StackLattice
