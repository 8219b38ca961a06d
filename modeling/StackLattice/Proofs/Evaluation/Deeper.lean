import StackLattice.Proofs.Evaluation.Intact

/-!
Evaluation further down. With more tasks around it, an evaluation comes to the same and leaves the same state behind,
unless it runs out of levels.
-/

namespace StackLattice.Evaluation

open Syntax (Expr Decl Ident)

/-- The state with more tasks around what is evaluated. -/
def State.deeper (s : State) (k : Nat) : State := { s with depth := s.depth + k }

@[simp] theorem State.scopes_deeper (s : State) (k : Nat) : (s.deeper k).scopes = s.scopes := rfl

def OutOfLevels {α : Type} (r : Except EvalError α × State) : Prop := ∃ e, r.1 = .error e ∧ e.kind = .tooDeep

namespace OutOfLevels

variable {α β : Type} {m : Eval α} {s : State}

theorem bind {f : α → Eval β} (h : OutOfLevels (m s)) : OutOfLevels ((m >>= f) s) := by
  obtain ⟨e, failed, deep⟩ := h
  exact ⟨e, by rw [bind_of_error (Prod.ext failed rfl)], deep⟩

theorem tried (h : OutOfLevels (m s)) : OutOfLevels (tried m s) := by
  obtain ⟨e, failed, deep⟩ := h
  have ran : m s = (.error e, (m s).2) := Prod.ext failed rfl
  refine ⟨e, ?_, deep⟩
  rw [Evaluation.tried, ran]
  exact if_neg (by rw [deep]; decide)

end OutOfLevels

/-- Further down the second evaluation runs out of levels, or it does what the first one does. -/
def Deepens {α : Type} (k : Nat) (m m' : Eval α) : Prop :=
  ∀ s, OutOfLevels (m' (s.deeper k)) ∨ m' (s.deeper k) = ((m s).1, (m s).2.deeper k)

namespace Deepens

variable {α β : Type} {k : Nat}

theorem pure (a : α) : Deepens k (pure a) (Pure.pure a) := fun _ => .inr rfl

theorem throw (e : EvalError) : Deepens (α := α) k (throw e) (MonadExcept.throw e) := fun _ => .inr rfl

theorem get {m m' : State → Eval α} (h : ∀ s, Deepens k (m s) (m' (s.deeper k))) :
    Deepens k (MonadState.get >>= m) (MonadState.get >>= m') := fun s => h s s

theorem bind {m m' : Eval α} {f f' : α → Eval β} (h : Deepens k m m') (next : ∀ a, Deepens k (f a) (f' a)) :
    Deepens k (m >>= f) (m' >>= f') := by
  intro s
  rcases h s with out | same
  · exact .inl out.bind
  · rcases result : m s with ⟨r, t⟩
    rw [result] at same
    cases r with
    | error e => exact .inr (by rw [bind_of_error same, bind_of_error result])
    | ok a =>
      rw [bind_of_ok same, bind_of_ok result]
      exact next a t

theorem tried {m m' : Eval α} (h : Deepens k m m') : Deepens k (tried m) (Evaluation.tried m') := by
  intro s
  rcases h s with out | same
  · exact .inl out.tried
  · right
    rw [Evaluation.tried, Evaluation.tried, same]
    rcases m s with ⟨r, t⟩
    cases r <;> rfl

theorem fail (place : Place) (problem : Problem) (span : Span) :
    Deepens (α := α) k (fail place problem span) (Evaluation.fail place problem span) := fun _ => .inr rfl

theorem unifyAt (path : String) (fallback : Option Position) (a b : Value) :
    Deepens k (unifyAt path fallback a b) (Evaluation.unifyAt path fallback a b) := by
  unfold Evaluation.unifyAt
  cases a.unify b with
  | ok v => exact pure v
  | error c => exact throw _

theorem select (place : Place) (field : Ident) (base : Value) :
    Deepens k (select place field base) (Evaluation.select place field base) := by
  rw [select_eq]
  cases Closure.selected field.name base with
  | ok v => exact pure v
  | error problem => exact fail place problem field.span

theorem mapM {ι : Type} {f f' : ι → Eval α} (each : ∀ x, Deepens k (f x) (f' x)) (xs : List ι) :
    Deepens k (xs.mapM f) (xs.mapM f') := by
  induction xs with
  | nil => exact pure []
  | cons x xs ih =>
    rw [List.mapM_cons, List.mapM_cons]
    exact (each x).bind fun y => ih.bind fun ys => pure (y :: ys)

end Deepens

section Rules

variable {k : Nat}

section Fields

variable {task task' : Task → Eval Value} (tasks : ∀ t, Deepens k (task t) (task' t))

include tasks

theorem conjoinAll_deepens (path : String) (position : Position) (cs : List Conjunct) (v : Value) :
    Deepens k (conjoinAll task path position cs v) (conjoinAll task' path position cs v) := by
  induction cs generalizing v with
  | nil => exact .pure v
  | cons c cs ih => exact (tasks _).bind fun next => (Deepens.unifyAt path _ v next).bind ih

theorem fieldValue_deepens (id : ScopeId) (label : String) :
    Deepens k (fieldValue task id label) (fieldValue task' id label) := by
  refine .get fun s => ?_
  simp only [State.scopes_deeper]
  cases s.scopes.entryOf? id label with
  | none => exact .throw _
  | some entry =>
    refine (conjoinAll_deepens tasks _ _ entry.conjuncts .top).bind fun v => ?_
    cases entry.inner with
    | none => exact .pure v
    | some inner => exact (tasks (.body inner)).bind fun body => .unifyAt _ _ v body

end Fields

variable {parts parts' : Parts} (tasks : ∀ t, Deepens k (parts.task t) (parts'.task t))
  (fields : ∀ id label, Deepens k (parts.field id label) (parts'.field id label))

include fields in
theorem nameValue_deepens (place : Place) (name : Ident) :
    Deepens k (nameValue parts place name) (nameValue parts' place name) := by
  refine .get fun s => ?_
  simp only [State.scopes_deeper]
  cases s.scopes.lookup place.scope name.name with
  | some id => exact fields id name.name
  | none =>
    cases s.scopes.import? place.file name.name with
    | some i => exact .fail _ _ _
    | none =>
      by_cases any : name.name = "_"
      · simp only [any, if_true]
        exact .pure _
      · simp only [any, if_false]
        cases Kind.ofName? name.name with
        | some k => exact .pure _
        | none => exact .fail _ _ _

include tasks in
theorem alternatives_deepens (place : Place) (es : List Expr) :
    Deepens k (alternatives parts place es) (alternatives parts' place es) := by
  induction es with
  | nil => exact .pure _
  | cons e es ih =>
    rw [alternatives_cons, alternatives_cons]
    refine (tasks _).tried.bind fun result => ih.bind fun others => ?_
    cases result <;> exact .pure _

include tasks in
theorem disjunctionValue_deepens (place : Place) (e : Expr) :
    Deepens k (disjunctionValue parts place e) (disjunctionValue parts' place e) := by
  refine (alternatives_deepens tasks place (operands e)).bind fun ⟨found, conflict⟩ => ?_
  rcases found with _ | ⟨a, found⟩
  · cases conflict with
    | none => exact .pure _
    | some err => exact .throw err
  · exact .pure _

include tasks fields in
theorem exprValue_deepens (place : Place) (e : Expr) :
    Deepens k (exprValue parts place e) (exprValue parts' place e) := by
  match e with
  | .null _ | .bool _ _ | .int _ _ | .float _ _ | .string _ _ => exact .pure _
  | .paren inner _ => exact tasks _
  | .ident name => exact nameValue_deepens fields place name
  | .select base field =>
    refine .get fun s => ?_
    simp only [State.scopes_deeper]
    cases reference? s.scopes place.scope (.select base field) with
    | some key => exact fields key.1 key.2
    | none => exact (tasks _).bind fun v => .select place field v
  | .struct decls _ =>
    exact fun s => tasks (.body (s.scopes.addStruct place.scope place.path place.file decls).1)
      { s with scopes := (s.scopes.addStruct place.scope place.path place.file decls).2 }
  | .list items _ => exact (Deepens.mapM (fun item => tasks _) items).bind fun vs => .pure _
  | .unary .negate operand span =>
    refine (tasks _).bind fun v => ?_
    cases negate v with
    | some w => exact .pure w
    | none => exact .fail _ _ _
  | .unary .mark operand _ => exact tasks _
  | .binary .unify left right =>
    exact (tasks _).bind fun a => (tasks _).bind fun b => .get fun s => .unifyAt _ _ a b
  | .binary .disjoin _ _ => exact disjunctionValue_deepens tasks place _

include fields in
theorem bodyFields_deepens (id : ScopeId) (entries : List Entry) :
    Deepens k (bodyFields parts id entries) (bodyFields parts' id entries) := by
  induction entries with
  | nil => exact .pure []
  | cons entry entries ih => exact (fields id entry.label).bind fun v => ih.bind fun rest => .pure _

include tasks in
theorem embedAll_deepens (path : String) (cs : List Conjunct) (v : Value) :
    Deepens k (embedAll parts path cs v) (embedAll parts' path cs v) := by
  induction cs generalizing v with
  | nil => exact .pure v
  | cons c cs ih =>
    exact (tasks _).bind fun embedded => .get fun s => (Deepens.unifyAt path _ v embedded).bind ih

include tasks fields in
theorem perform_deepens (t : Task) : Deepens k (perform parts t) (perform parts' t) := by
  cases t with
  | expr e place => exact exprValue_deepens tasks fields place e
  | body id =>
    refine .get fun s => ?_
    refine (bodyFields_deepens fields id (s.scopes.node id).entries).bind fun found => ?_
    exact embedAll_deepens tasks _ _ _

theorem remember_deepens (key : FieldKey) {compute compute' : Eval Value} (h : Deepens k compute compute') :
    Deepens k (remember key compute) (remember key compute') := by
  intro s
  cases found : s.cache.lookup key with
  | some r => exact .inr (by rw [remember_cached found, remember_cached (s := s.deeper k) found])
  | none =>
    cases active : s.active.contains key with
    | true => exact .inr (by rw [remember_active found active, remember_active (s := s.deeper k) found active]; rfl)
    | false =>
      rcases result : compute { s with active := key :: s.active } with ⟨r, t⟩
      rcases h { s with active := key :: s.active } with ⟨e, failed, deep⟩ | same
      · have run := remember_fresh (s := s.deeper k) found active (Prod.ext failed rfl)
        exact .inl ⟨e, by rw [run], deep⟩
      · rw [result] at same
        exact .inr (by rw [remember_fresh found active result, remember_fresh (s := s.deeper k) found active same]; rfl)

theorem outOfLevels_nest {s : State} (deep : evaluationLimit ≤ s.depth) (task : Task) (compute : Eval Value) :
    OutOfLevels (nest task compute s) :=
  ⟨_, congrArg Prod.fst (nest_deep deep compute), kind_tooDeep ..⟩

theorem nest_deepens (task : Task) {compute compute' : Eval Value} (h : Deepens k compute compute')
    (level : ∀ s, (compute s).2.depth = s.depth) : Deepens k (nest task compute) (nest task compute') := by
  intro s
  rcases Nat.lt_or_ge (s.deeper k).depth evaluationLimit with shallow | deep
  · rcases result : compute { s with depth := s.depth + 1 } with ⟨r, t⟩
    have shallow' : s.depth < evaluationLimit := Nat.lt_of_le_of_lt (Nat.le_add_right s.depth k) shallow
    have inside : ({ s with depth := s.depth + 1 } : State).deeper k =
        { s.deeper k with depth := (s.deeper k).depth + 1 } := by
      simp only [State.deeper, Nat.add_right_comm]
    rcases h { s with depth := s.depth + 1 } with ⟨e, failed, deep⟩ | same
    · rw [inside] at failed
      exact .inl ⟨e, by rw [nest_open shallow (Prod.ext failed rfl)], deep⟩
    · rw [inside, result] at same
      have depth := level { s with depth := s.depth + 1 }
      rw [result] at depth
      have back : t.depth + k - 1 = t.depth - 1 + k := by
        have : t.depth = s.depth + 1 := depth
        omega
      right
      rw [nest_open shallow same, nest_open shallow' result]
      simp only [State.deeper, back]
  · exact .inl (outOfLevels_nest deep task _)

theorem depth_perform (levels : Nat) (task : Task) (s : State) :
    (perform (remembering (evaluate levels)) task s).2.depth = s.depth :=
  ((parts_kept intact levels).perform task trivial).leads.depth

theorem outOfLevels_evaluate_zero (task : Task) (s : State) : OutOfLevels (evaluate 0 task s) :=
  ⟨_, by rw [evaluate_zero], kind_tooDeep ..⟩

/-- With more tasks around it a task comes to the same as before, unless that takes more levels than there are. -/
theorem evaluate_deepens {levels levels' : Nat} (fewer : levels' ≤ levels) (task : Task) :
    Deepens k (evaluate levels task) (evaluate levels' task) := by
  induction levels' generalizing levels task with
  | zero =>
    exact fun s => .inl (outOfLevels_evaluate_zero task _)
  | succ levels' ih =>
    obtain _ | levels := levels
    · exact absurd fewer (Nat.not_succ_le_zero levels')
    have tasks (task : Task) := ih (Nat.le_of_succ_le_succ fewer) task
    have fields (id : ScopeId) (label : String) := remember_deepens (id, label) (fieldValue_deepens tasks id label)
    exact nest_deepens task (perform_deepens tasks fields task) (depth_perform levels task)

end Rules

section Levels

variable {levels : Nat} {task : Task} {s t : State} {r : Except EvalError Value}

theorem evaluate_of_perform (h : perform (remembering (evaluate levels)) task (s.deeper 1) = (r, t.deeper 1)) :
    OutOfLevels (evaluate (levels + 1) task s) ∨ evaluate (levels + 1) task s = (r, t) := by
  rcases Nat.lt_or_ge s.depth evaluationLimit with shallow | deep
  · exact .inr (nest_open shallow h)
  · exact .inl (outOfLevels_nest deep task _)

theorem outOfLevels_of_perform (h : OutOfLevels (perform (remembering (evaluate levels)) task (s.deeper 1))) :
    OutOfLevels (evaluate (levels + 1) task s) := by
  obtain ⟨e, failed, deep⟩ := h
  rcases Nat.lt_or_ge s.depth evaluationLimit with shallow | limit
  · exact ⟨e, by rw [evaluate, nest_open shallow (Prod.ext failed rfl)], deep⟩
  · exact outOfLevels_nest limit task _

end Levels

end StackLattice.Evaluation
