import StackLattice.Proofs.Evaluation.Building
import StackLattice.Proofs.Value.Structure

/-!
Evaluation with a table of scopes follows evaluation of closures, rule by rule. What it means to follow
is left open: what is remembered in between, and whether levels run out, is not the rules' business.
-/

namespace StackLattice.Evaluation

open Syntax (Expr Decl Ident ParsedFile)

/-- Whether an evaluation may go on after a result: a conflict may end no more than one alternative, and
    any other error ends everything. -/
def Live {α : Type} : Except EvalError α → Prop
  | .ok _ => True
  | .error e => e.kind = .conflict

/-- A way for results to agree with results over closures, for each amount of fuel, as long as something
    holds of the state that comes about. -/
structure Simulation where
  files : Array ParsedFile
  Holds : State → List Env → Prop
  Agrees : {α : Type} → Except EvalError α → (Nat → Meaning α) → Prop
  described : ∀ {s envs}, Holds s envs → Described s.scopes envs
  sources : ∀ {s envs}, Holds s envs → s.scopes.files = files
  grow : ∀ {s envs envs' scopes}, Holds s envs → envs <+: envs' → Described scopes envs' →
    s.scopes.Extends scopes → Holds { s with scopes } envs'
  ok : ∀ {α : Type} (a : α), Agrees (.ok a) fun _ => pure a
  error : ∀ {α : Type} {e : EvalError}, e.kind ≠ .cycle → e.kind ≠ .tooDeep →
    Agrees (α := α) (.error e) fun _ => throw e
  bindOk : ∀ {α β : Type} {a : α} {r : Except EvalError β} {m : Nat → Meaning α}
    {k : Nat → α → Meaning β}, Agrees (.ok a) m → Agrees r (fun n => k n a) →
    Agrees r fun n => m n >>= k n
  bindError : ∀ {α β : Type} {e : EvalError} {m : Nat → Meaning α} (k : Nat → α → Meaning β),
    Agrees (.error e) m → Agrees (.error e) fun n => m n >>= k n
  attempt : ∀ {α : Type} {r : Except EvalError α} {m : Nat → Meaning α}, Agrees r m → Live r →
    Agrees (.ok r) fun n => Closure.attempt (m n)
  attemptDead : ∀ {α : Type} {e : EvalError} {m : Nat → Meaning α}, Agrees (.error e) m →
    e.kind ≠ .conflict → Agrees (.error e) fun n => Closure.attempt (m n)

section Bind

variable {α β : Type} {m : Eval α} {f : α → Eval β} {s t u : State}

theorem bind_of_ok {a : α} (h : m s = (.ok a, t)) : (m >>= f) s = f a t := by
  show ExceptT.bindCont f (m s).1 (m s).2 = _
  rw [h]
  rfl

theorem bind_of_error {e : EvalError} (h : m s = (.error e, t)) : (m >>= f) s = (.error e, t) := by
  show ExceptT.bindCont f (m s).1 (m s).2 = _
  rw [h]
  rfl

theorem bind_eq_ok {b : β} (h : (m >>= f) s = (.ok b, u)) : ∃ a t, m s = (.ok a, t) ∧ f a t = (.ok b, u) := by
  rcases result : m s with ⟨r, t⟩
  cases r with
  | error e =>
    rw [bind_of_error result] at h
    cases h
  | ok a => exact ⟨a, t, rfl, (bind_of_ok result).symm.trans h⟩

end Bind

/-- An evaluation follows one over closures, and leaves no field active that was not. -/
structure Follows (S : Simulation) (s : State) (envs : List Env) {α : Type} (m : Eval α)
    (d : Nat → Meaning α) : Prop where
  agrees : S.Agrees (m s).1 d
  active : (m s).2.active = s.active
  holds : Live (m s).1 → ∃ envs', envs <+: envs' ∧ S.Holds (m s).2 envs'

structure PlaceIs (files : Array ParsedFile) (envs : List Env) (place : Place) (site : Closure.Site) :
    Prop where
  scope : envs[place.scope]? = some site.env
  file : files[place.file]? = some site.file
  path : place.path = site.path

inductive TaskIs (files : Array ParsedFile) (envs : List Env) : Task → Closure.Task → Prop
  | body {id : ScopeId} {env : Env} (found : envs[id]? = some env) :
    TaskIs files envs (.body id) (.body env)
  | expr {e : Expr} {place : Place} {site : Closure.Site} (is : PlaceIs files envs place site) :
    TaskIs files envs (.expr e place) (.expr e site)

section Follows

variable {S : Simulation} {s : State} {envs envs' : List Env} {α β : Type}

theorem PlaceIs.extend {files : Array ParsedFile} {place : Place} {site : Closure.Site}
    (h : PlaceIs files envs place site) (longer : envs <+: envs') : PlaceIs files envs' place site :=
  { h with scope := getElem?_longer longer h.scope }

theorem PlaceIs.conjunct {files : Array ParsedFile} {id : ScopeId} {c : Conjunct} {w : Written} {env : Env}
    (is : ConjunctIs files id c w) (found : envs[id]? = some env) (path : String) :
    PlaceIs files envs ⟨c.scope, c.file, path⟩ ⟨env, w.file, path⟩ where
  scope := by rw [is.scope, found]
  file := is.file
  path := rfl

namespace Follows

theorem pure (h : S.Holds s envs) (a : α) : Follows S s envs (pure a) fun _ => Pure.pure a :=
  ⟨S.ok a, rfl, fun _ => ⟨envs, List.prefix_rfl, h⟩⟩

theorem throw (h : S.Holds s envs) {e : EvalError} (kind : ErrorKind) (is : e.kind = kind)
    (ordinary : kind ≠ .cycle ∧ kind ≠ .tooDeep) :
    Follows S s envs (throw e : Eval α) fun _ => MonadExcept.throw e :=
  ⟨S.error (is ▸ ordinary.1) (is ▸ ordinary.2), rfl, fun _ => ⟨envs, List.prefix_rfl, h⟩⟩

theorem get {m : State → Eval α} {d : Nat → Meaning α} (h : Follows S s envs (m s) d) :
    Follows S s envs (MonadState.get >>= m) d := ⟨h.agrees, h.active, h.holds⟩

theorem bindOf {m : Eval α} {d : Nat → Meaning α} {f : α → Eval β} {k : Nat → α → Meaning β}
    (h : Follows S s envs m d)
    (next : ∀ a t envs', m s = (.ok a, t) → envs <+: envs' → S.Holds t envs' →
      Follows S t envs' (f a) fun n => k n a) :
    Follows S s envs (m >>= f) fun n => d n >>= k n := by
  obtain ⟨agrees, active, holds⟩ := h
  rcases result : m s with ⟨r, t⟩
  rw [result] at agrees active holds
  cases r with
  | error e =>
    constructor <;> rw [bind_of_error result]
    · exact S.bindError k agrees
    · exact active
    · exact holds
  | ok a =>
    obtain ⟨envs', longer, reached⟩ := holds trivial
    obtain ⟨agrees', active', holds'⟩ := next a _ envs' result longer reached
    constructor <;> rw [bind_of_ok result]
    · exact S.bindOk agrees agrees'
    · exact active'.trans active
    · intro live
      obtain ⟨envs'', again, last⟩ := holds' live
      exact ⟨envs'', longer.trans again, last⟩

theorem bind {m : Eval α} {d : Nat → Meaning α} {f : α → Eval β} {k : Nat → α → Meaning β}
    (h : Follows S s envs m d)
    (next : ∀ a t envs', envs <+: envs' → S.Holds t envs' → Follows S t envs' (f a) fun n => k n a) :
    Follows S s envs (m >>= f) fun n => d n >>= k n :=
  h.bindOf fun a t envs' _ => next a t envs'

end Follows

/-- The position of a span in the file of a place. -/
theorem Simulation.position (S : Simulation) (h : S.Holds s envs) {file : Nat} {f : ParsedFile}
    (source : S.files[file]? = some f) (span : Span) :
    s.scopes.position? file span = some (f.source.position span) := by
  rw [Scopes.position?, S.sources h, source]
  rfl

namespace Follows

theorem fail (h : S.Holds s envs) {place : Place} {site : Closure.Site} (is : PlaceIs S.files envs place site)
    {problem : Problem} (span : Span) (kind : ErrorKind) (of : problem.kind = kind)
    (ordinary : kind ≠ .cycle ∧ kind ≠ .tooDeep) :
    Follows S s envs (Evaluation.fail (α := α) place problem span) fun _ => Closure.fail site problem span := by
  refine Follows.get ?_
  rw [S.position h is.file, is.path]
  exact throw h kind of ordinary

theorem unifyAt (h : S.Holds s envs) (path : String) (fallback : Option Position) (a b : Value) :
    Follows S s envs (Evaluation.unifyAt path fallback a b) fun _ => Closure.unifyAt path fallback a b := by
  rw [Evaluation.unifyAt]
  simp only [Closure.unifyAt]
  cases a.unify b with
  | ok value => exact pure h value
  | error c => exact throw h .conflict rfl (by decide)

end Follows

section Fields

variable {task : Task → Eval Value} {tasks : Nat → Closure.Task → Meaning Value}

def TasksFollow (S : Simulation) (task : Task → Eval Value) (tasks : Nat → Closure.Task → Meaning Value) :
    Prop :=
  ∀ s envs t t', S.Holds s envs → TaskIs S.files envs t t' → Follows S s envs (task t) fun n => tasks n t'

theorem TasksFollow.conjoinAll (follow : TasksFollow S task tasks) {id : ScopeId} {env : Env}
    {cs : List Conjunct} {ws : List Written} (are : List.Forall₂ (ConjunctIs S.files id) cs ws)
    (path : String) (position : Position) (h : S.Holds s envs) (found : envs[id]? = some env)
    (value : Value) :
    Follows S s envs (Evaluation.conjoinAll task path position cs value) fun n =>
      Closure.conjoinAll (tasks n) env path position ws value := by
  induction are generalizing s envs value with
  | nil => exact Follows.pure h value
  | @cons c w cs ws is _ ih =>
    rw [Evaluation.conjoinAll]
    simp only [Closure.conjoinAll]
    rw [is.expr]
    refine (follow s envs _ _ h (.expr (.conjunct is found path))).bind fun next t envs' longer h => ?_
    refine (Follows.unifyAt h _ _ _ _).bind fun value t envs'' again h => ?_
    exact ih h (getElem?_longer (longer.trans again) found) value

theorem TasksFollow.fieldValue (follow : TasksFollow S task tasks) {id : ScopeId} {env : Env}
    (h : S.Holds s envs) (found : envs[id]? = some env) (label : String) :
    Follows S s envs (Evaluation.fieldValue task id label) fun n =>
      Closure.fieldValue (tasks n) env label := by
  refine Follows.get ?_
  have described := S.described h
  have body := described.body id env found
  simp only [Closure.fieldValue, described.path id env found, Scopes.entryOf?, Env.find?]
  cases declared : Declared.find? env.declared label with
  | none =>
    rw [body.find_none declared]
    exact Follows.throw h .reference rfl (by decide)
  | some d =>
    obtain ⟨e, entry, is⟩ := body.find_some declared
    rw [entry]
    simp only [is.position]
    have conjuncts := is.conjuncts
    rw [S.sources h] at conjuncts
    refine (follow.conjoinAll conjuncts _ _ h found _).bind fun value t envs' longer h => ?_
    cases opened : d.opened with
    | false =>
      rw [is.closed opened]
      exact Follows.pure h value
    | true =>
      obtain ⟨k, inner, leads⟩ := is.opened opened
      rw [Declared.label_of_find? declared] at leads
      rw [inner]
      simp only [if_true]
      refine (follow _ _ _ _ h (.body (getElem?_longer longer leads))).bind fun body t _ _ h => ?_
      exact Follows.unifyAt h _ _ _ _

end Fields

theorem isEmpty_of_forall₂ {R : α → β → Prop} {xs : List α} {ys : List β} (h : List.Forall₂ R xs ys) :
    xs.isEmpty = ys.isEmpty := by
  cases h <;> rfl

theorem isSome_of_rel {R : α → β → Prop} {x : Option α} {y : Option β} (h : Option.Rel R x y) :
    x.isSome = y.isSome := by
  cases h <;> rfl

theorem described_find {scopes : Scopes} {id : ScopeId} {env : Env} (h : Described scopes envs)
    (found : envs[id]? = some env) (label : String) :
    Option.Rel (EntryIs scopes.files id fun name k => envs[k]? = some (env.inner name))
      (scopes.entryOf? id label) (env.find? label) := (h.body id env found).find label

theorem Env.lookup_eq (env : Env) (label : String) :
    env.lookup label = if (env.find? label).isSome then some env else env.outer.lookup label := by
  cases env with
  | nil => rfl
  | cons spot rest =>
    obtain ⟨b, trail⟩ := spot
    simp only [Env.find?, Env.declared]
    by_cases here : (Declared.find? (b.declared trail) label).isSome = true <;>
      cases trail <;>
      simp [Env.lookup, Block.lookup, Env.outer, here]

theorem described_lookup {scopes : Scopes} (h : Described scopes envs) (label : String) (id : ScopeId)
    {env : Env} (found : envs[id]? = some env) :
    Option.Rel (fun k env => envs[k]? = some env) (scopes.lookup id label) (env.lookup label) := by
  induction id using Nat.strongRecOn generalizing env with
  | ind id ih =>
    have entries := described_find h found label
    rw [Scopes.lookup, Env.lookup_eq]
    generalize scopes.entryOf? id label = e at entries
    generalize env.find? label = d at entries
    cases entries with
    | some _ => exact .some found
    | none =>
      rw [if_neg (by simp), if_neg (by simp)]
      rcases h.parent id env found with ⟨top, outer⟩ | ⟨p, earlier, parent, outer⟩
      · rw [top, outer]
        exact .none
      · rw [parent]
        simp only [earlier, if_true]
        exact ih p earlier outer

theorem described_reference {scopes : Scopes} (h : Described scopes envs) {id : ScopeId} {env : Env}
    (found : envs[id]? = some env) (e : Expr) :
    Option.Rel (fun k k' => envs[k.1]? = some k'.1 ∧ k.2 = k'.2) (reference? scopes id e)
      (Closure.reference? env e) := by
  match e with
  | .ident name =>
    rw [reference?, Closure.reference?]
    have both := described_lookup h name.name id found
    generalize scopes.lookup id name.name = k at both
    generalize env.lookup name.name = k' at both
    cases both with
    | none => exact .none
    | some leads => exact .some ⟨leads, rfl⟩
  | .paren inner _ =>
    rw [reference?, Closure.reference?]
    exact described_reference h found inner
  | .select base field =>
    rw [reference?, Closure.reference?]
    have both := described_reference h found base
    generalize reference? scopes id base = k at both
    generalize Closure.reference? env base = k' at both
    cases both with
    | none => exact .none
    | @some k k' leads =>
      obtain ⟨k, label⟩ := k
      obtain ⟨env', label'⟩ := k'
      obtain ⟨leads, rfl⟩ := leads
      simp only [Option.bind_eq_bind, Option.bind_some]
      have entries := described_find h leads label
      generalize scopes.entryOf? k label = e at entries
      cases declared : env'.find? label with
      | none =>
        rw [declared] at entries
        cases entries
        exact .none
      | some d =>
        rw [declared] at entries
        cases entries with
        | @some e _ is =>
          have same := Declared.label_of_find? declared
          simp only [Option.bind_some]
          cases opened : d.opened with
          | false =>
            rw [is.closed opened]
            simp only [Bool.false_and, Bool.false_eq_true, if_false]
            exact .none
          | true =>
            obtain ⟨inner, eq, leads⟩ := is.opened opened
            rw [same] at leads
            have body := h.body inner _ leads
            have emptyConjuncts : e.conjuncts.isEmpty = d.conjuncts.isEmpty :=
              isEmpty_of_forall₂ is.conjuncts
            have emptyEmbeds : (scopes.node inner).embeds.isEmpty = (env'.inner label).embeds.isEmpty :=
              isEmpty_of_forall₂ body.embeds
            have declares : ((scopes.node inner).entryOf? field.name).isSome =
                ((env'.inner label).find? field.name).isSome := isSome_of_rel (body.find field.name)
            rw [eq]
            simp only [Option.bind_some, Bool.true_and, emptyConjuncts, emptyEmbeds, declares]
            split
            · exact .some ⟨leads, rfl⟩
            · exact .none
  | .null _ | .bool _ _ | .int _ _ | .float _ _ | .string _ _ | .struct _ _ | .list _ _ | .unary _ _ _
  | .binary _ _ _ =>
    exact .none

/-- Selecting from a value is selecting from it as it stands, and failing at the label if that fails. -/
theorem select_eq (place : Place) (field : Ident) (base : Value) :
    select place field base = match Closure.selected field.name base with
      | .ok value => pure value
      | .error problem => fail place problem field.span := by
  fun_induction Closure.selected field.name base with
  | case1 fields f found =>
    rw [select]
    simp only [found]
  | case2 fields missing =>
    rw [select]
    simp only [missing]
  | case3 alternatives value resolved ih =>
    rw [select, ← ih]
    split
    · rename_i other again
      rw [again] at resolved
      cases resolved
      rfl
    · rename_i none
      rw [none] at resolved
      cases resolved
  | case4 alternatives resolved =>
    rw [select]
    split
    · rename_i value again
      rw [again] at resolved
      cases resolved
    · rfl
  | case5 => rw [select]
  | case6 => rw [select]
  | case7 base noStruct noDisjunction noTop noKind => rw [select] <;> assumption

/-- Selecting never fails for want of levels or because of a cycle. -/
theorem selected_kind {label : String} {base : Value} {problem : Problem}
    (h : Closure.selected label base = .error problem) :
    problem.kind = .reference ∨ problem.kind = .incomplete := by
  fun_induction Closure.selected label base with
  | case1 => cases h
  | case3 _ _ _ ih => exact ih h
  | case2 | case7 =>
    cases h
    exact .inl rfl
  | case4 | case5 | case6 =>
    cases h
    exact .inr rfl

theorem operands_ne_nil (e : Expr) : operands e ≠ [] := by
  fun_induction operands e with
  | case1 left right ihLeft _ => simp [ihLeft]
  | case2 => simp

/-- What is selected from a value is inside it. -/
theorem everywhere_of_selected {p : Value → Prop} {base v : Value} {label : String} (h : base.Everywhere p)
    (selected : Closure.selected label base = .ok v) : v.Everywhere p := by
  fun_induction Closure.selected label base with
  | case1 fields f found =>
    cases selected
    exact h.field (Field.mem_of_find? found)
  | case3 alternatives value resolved ih => exact ih (h.resolved resolved) selected
  | case2 | case4 | case5 | case6 | case7 => cases selected

/-- The result of an evaluation, or the conflict it ends in. -/
def tried {α : Type} (m : Eval α) : Eval (Except EvalError α) := fun s =>
  match m s with
  | (.ok a, t) => (.ok (.ok a), t)
  | (.error e, t) => (if e.kind = .conflict then .ok (.error e) else .error e, t)

theorem try_eq_tried (m : Eval Value) : (do
      try
        let value ← m
        return .ok value
      catch err => if err.kind = .conflict then return .error err else throw err :
        Eval (Except EvalError Value)) = tried m := by
  funext s
  rcases result : m s with ⟨r, t⟩
  simp only [tried, result, tryCatch, tryCatchThe, MonadExceptOf.tryCatch, ExceptT.tryCatch, bind,
    ExceptT.bind, ExceptT.bindCont, StateT.bind, ExceptT.mk]
  cases r with
  | ok value => rfl
  | error err =>
    have still {β : Type} (x : β) : (pure x : StateM State β) t = (x, t) := rfl
    by_cases conflict : err.kind = .conflict <;>
      simp only [still, conflict, if_true, if_false] <;>
      rfl

theorem kind_of_tried {α : Type} {m : Eval α} {s t : State} {e : EvalError} (h : tried m s = (.ok (.error e), t)) :
    e.kind = .conflict := by
  rw [tried] at h
  split at h
  · cases h
  · split at h
    · cases h
      assumption
    · cases h

/-- A conflict does not end the evaluation around what is tried. -/
theorem kind_ne_of_tried {α : Type} {m : Eval α} {s t : State} {e : EvalError} (h : tried m s = (.error e, t)) :
    e.kind ≠ .conflict := by
  rw [tried] at h
  split at h
  · cases h
  · split at h
    · cases h
    · cases h
      assumption

theorem alternatives_cons (parts : Parts) (place : Place) (operand : Expr) (operands : List Expr) :
    alternatives parts place (operand :: operands) = (do
      let result ← tried (parts.task (.expr (Closure.unmarked operand).2 place))
      let (others, conflict) ← alternatives parts place operands
      match result with
      | .ok value => return (⟨value, (Closure.unmarked operand).1⟩ :: others, conflict)
      | .error err => return (others, some err)) := by
  rw [← try_eq_tried]
  cases operand with
  | unary op _ _ => cases op <;> rfl
  | _ => rfl

/-- What a disjunction keeps of its failed operands is a conflict. -/
theorem kind_of_alternatives {parts : Parts} {place : Place} {es : List Expr} {s t : State}
    {found : List (Alternative Value)} {err : EvalError}
    (h : alternatives parts place es s = (.ok (found, some err), t)) : err.kind = .conflict := by
  induction es generalizing s t found err with
  | nil => cases h
  | cons operand es ih =>
    rw [alternatives_cons] at h
    obtain ⟨result, s, tried, h⟩ := bind_eq_ok h
    obtain ⟨⟨others, conflict⟩, s', others_eq, h⟩ := bind_eq_ok h
    cases result with
    | ok value =>
      cases h
      exact ih others_eq
    | error e =>
      cases h
      exact kind_of_tried tried

section Expressions

variable {parts : Parts} {closures : Nat → Closure.Parts}

structure PartsFollow (S : Simulation) (parts : Parts) (closures : Nat → Closure.Parts) : Prop where
  task : TasksFollow S parts.task fun n => (closures n).task
  field : ∀ s envs id env label, S.Holds s envs → envs[id]? = some env →
    Follows S s envs (parts.field id label) fun n => (closures n).field env label

namespace PartsFollow

variable {place : Place} {site : Closure.Site}

theorem expr (follow : PartsFollow S parts closures) (h : S.Holds s envs)
    (is : PlaceIs S.files envs place site) (e : Expr) :
    Follows S s envs (parts.task (.expr e place)) fun n => (closures n).task (.expr e site) :=
  follow.task s envs _ _ h (.expr is)

theorem nameValue (follow : PartsFollow S parts closures) (h : S.Holds s envs)
    (is : PlaceIs S.files envs place site) (name : Ident) :
    Follows S s envs (Evaluation.nameValue parts place name) fun n =>
      Closure.nameValue (closures n) site name := by
  refine Follows.get ?_
  have both := described_lookup (S.described h) name.name place.scope is.scope
  have imports : s.scopes.import? place.file name.name =
      site.file.tree.imports.find? (·.localName == name.name) := by
    rw [Scopes.import?, S.sources h, is.file]
    rfl
  simp only [Closure.nameValue, imports]
  generalize s.scopes.lookup place.scope name.name = k at both
  generalize site.env.lookup name.name = env at both
  cases both with
  | some leads => exact follow.field s envs _ _ _ h leads
  | none =>
    cases site.file.tree.imports.find? (·.localName == name.name) with
    | some i => exact Follows.fail h is _ .unsupported rfl (by decide)
    | none =>
      by_cases any : name.name = "_"
      · simp only [any, if_true]
        exact Follows.pure h _
      · simp only [any, if_false]
        cases Kind.ofName? name.name with
        | some k => exact Follows.pure h _
        | none => exact Follows.fail h is _ .reference rfl (by decide)

theorem attempt {m : Eval α} {d : Nat → Meaning α} (follows : Follows S s envs m d) :
    Follows S s envs (tried m) fun n => Closure.attempt (d n) := by
  obtain ⟨agrees, active, holds⟩ := follows
  rcases result : m s with ⟨r, t⟩
  rw [result] at agrees active holds
  cases r with
  | ok a =>
    have run : tried m s = (.ok (.ok a), t) := by rw [tried, result]
    constructor <;> rw [run]
    · exact S.attempt agrees trivial
    · exact active
    · exact fun _ => holds trivial
  | error e =>
    have run : tried m s = (if e.kind = .conflict then .ok (.error e) else .error e, t) := by
      rw [tried, result]
    by_cases conflict : e.kind = .conflict
    · rw [if_pos conflict] at run
      constructor <;> rw [run]
      · exact S.attempt agrees conflict
      · exact active
      · exact fun _ => holds conflict
    · rw [if_neg conflict] at run
      constructor <;> rw [run]
      · exact S.attemptDead agrees conflict
      · exact active
      · exact holds

theorem alternatives (follow : PartsFollow S parts closures) (h : S.Holds s envs)
    (is : PlaceIs S.files envs place site) (es : List Expr) :
    Follows S s envs (Evaluation.alternatives parts place es) fun n =>
      Closure.alternatives (closures n) site es := by
  induction es generalizing s envs with
  | nil => exact Follows.pure h _
  | cons operand es ih =>
    rw [alternatives_cons]
    simp only [Closure.alternatives]
    refine (attempt (follow.expr h is _)).bind fun result t envs' longer h => ?_
    refine (ih h (is.extend longer)).bind fun others t envs' longer h => ?_
    obtain ⟨others, conflict⟩ := others
    cases result with
    | ok value => exact Follows.pure h _
    | error err => exact Follows.pure h _

theorem disjunctionValue (follow : PartsFollow S parts closures) (h : S.Holds s envs)
    (is : PlaceIs S.files envs place site) (e : Expr) :
    Follows S s envs (Evaluation.disjunctionValue parts place e) fun n =>
      Closure.disjunctionValue (closures n) site e := by
  refine (follow.alternatives h is (operands e)).bindOf fun found t envs' result longer h => ?_
  obtain ⟨found, conflict⟩ := found
  cases conflict with
  | none => cases found <;> exact Follows.pure h _
  | some err =>
    cases found with
    | nil => exact Follows.throw h .conflict (kind_of_alternatives result) (by decide)
    | cons _ _ => exact Follows.pure h _

theorem items (follow : PartsFollow S parts closures) (h : S.Holds s envs)
    (is : PlaceIs S.files envs place site) (es : List Expr) :
    Follows S s envs (es.mapM fun e => parts.task (.expr e place)) fun n =>
      es.mapM fun e => (closures n).task (.expr e site) := by
  induction es generalizing s envs with
  | nil => exact Follows.pure h _
  | cons e es ih =>
    simp only [List.mapM_cons]
    refine (follow.expr h is e).bind fun value t envs' longer h => ?_
    refine (ih h (is.extend longer)).bind fun values t envs' longer h => ?_
    exact Follows.pure h _

theorem selectValue (follow : PartsFollow S parts closures) (h : S.Holds s envs)
    (is : PlaceIs S.files envs place site) (base : Expr) (field : Ident) :
    Follows S s envs (Evaluation.exprValue parts place (.select base field)) fun n =>
      Closure.exprValue (closures n) site (.select base field) := by
  refine Follows.get ?_
  have both := described_reference (S.described h) is.scope (.select base field)
  simp only [Closure.exprValue]
  generalize reference? s.scopes place.scope (.select base field) = k at both
  generalize Closure.reference? site.env (.select base field) = k' at both
  cases both with
  | @some k k' leads =>
    obtain ⟨id, label⟩ := k
    obtain ⟨env, _⟩ := k'
    obtain ⟨leads, rfl⟩ := leads
    exact follow.field s envs id env label h leads
  | none =>
    refine (follow.expr h is base).bind fun value t envs' longer h => ?_
    rw [select_eq]
    cases found : Closure.selected field.name value with
    | ok value => exact Follows.pure h _
    | error problem =>
      rcases selected_kind found with kind | kind
      · exact Follows.fail h (is.extend longer) _ _ kind (by decide)
      · exact Follows.fail h (is.extend longer) _ _ kind (by decide)

theorem structValue (follow : PartsFollow S parts closures) (h : S.Holds s envs)
    (is : PlaceIs S.files envs place site) (decls : List Decl) (span : Span) :
    Follows S s envs (Evaluation.exprValue parts place (.struct decls span)) fun n =>
      Closure.exprValue (closures n) site (.struct decls span) := by
  have source := is.file
  rw [← S.sources h] at source
  obtain ⟨extended, envs', longer, described, literal⟩ :=
    (S.described h).addStruct is.scope source place.path decls
  rw [is.path] at literal
  have grown := S.grow h longer described extended
  obtain ⟨agrees, active, holds⟩ := follow.task _ envs' _ _ grown (.body literal)
  refine ⟨agrees, active, fun live => ?_⟩
  obtain ⟨envs'', again, reached⟩ := holds live
  exact ⟨envs'', longer.trans again, reached⟩

theorem exprValue (follow : PartsFollow S parts closures) (h : S.Holds s envs)
    (is : PlaceIs S.files envs place site) (e : Expr) :
    Follows S s envs (Evaluation.exprValue parts place e) fun n =>
      Closure.exprValue (closures n) site e := by
  cases e with
  | null _ => exact Follows.pure h _
  | bool b _ => exact Follows.pure h _
  | int n _ => exact Follows.pure h _
  | float x _ => exact Follows.pure h _
  | string s _ => exact Follows.pure h _
  | paren inner _ => exact follow.expr h is inner
  | ident name => exact follow.nameValue h is name
  | select base field => exact follow.selectValue h is base field
  | struct decls span => exact follow.structValue h is decls span
  | list es _ => exact (follow.items h is es).bind fun values t envs' longer h => Follows.pure h _
  | unary op operand span =>
    cases op with
    | negate =>
      refine (follow.expr h is operand).bind fun value t envs' longer h => ?_
      cases negate value with
      | some result => exact Follows.pure h _
      | none => exact Follows.fail h (is.extend longer) span .conflict rfl (by decide)
    | mark => exact follow.expr h is operand
  | binary op left right =>
    cases op with
    | unify =>
      refine (follow.expr h is left).bind fun a t envs' longer h => ?_
      refine (follow.expr h (is.extend longer) right).bind fun b t envs'' again h => ?_
      refine Follows.get ?_
      rw [S.position h is.file, is.path]
      exact Follows.unifyAt h _ _ _ _
    | disjoin => exact follow.disjunctionValue h is _

theorem bodyFields (follow : PartsFollow S parts closures) {id : ScopeId} {env : Env} {es : List Entry}
    {ds : List Declared} {inner : String → ScopeId → Prop}
    (are : List.Forall₂ (EntryIs S.files id inner) es ds) (h : S.Holds s envs) (found : envs[id]? = some env) :
    Follows S s envs (Evaluation.bodyFields parts id es) fun n =>
      Closure.bodyFields (closures n) env ds := by
  induction are generalizing s envs with
  | nil => exact Follows.pure h _
  | @cons e d es ds is _ ih =>
    rw [Evaluation.bodyFields]
    simp only [Closure.bodyFields, is.label, is.kind, is.optional, is.position]
    refine (follow.field s envs _ _ _ h found).bind fun value t envs' longer h => ?_
    refine (ih h (getElem?_longer longer found)).bind fun fields t envs' longer h => ?_
    exact Follows.pure h _

theorem embedAll (follow : PartsFollow S parts closures) {id : ScopeId} {env : Env} {cs : List Conjunct}
    {ws : List Written} (are : List.Forall₂ (ConjunctIs S.files id) cs ws) (h : S.Holds s envs)
    (found : envs[id]? = some env) (value : Value) :
    Follows S s envs (Evaluation.embedAll parts env.path cs value) fun n =>
      Closure.embedAll (closures n) env ws value := by
  induction are generalizing s envs value with
  | nil => exact Follows.pure h _
  | @cons c w cs ws is _ ih =>
    rw [Evaluation.embedAll]
    simp only [Closure.embedAll]
    rw [is.expr]
    refine (follow.expr h (.conjunct is found env.path) _).bind fun embedded t envs' longer h => ?_
    refine Follows.get ?_
    rw [S.position h is.file]
    refine (Follows.unifyAt h _ _ _ _).bind fun value t envs'' again h => ?_
    exact ih h (getElem?_longer (longer.trans again) found) value

theorem bodyValue (follow : PartsFollow S parts closures) {id : ScopeId} {env : Env} (h : S.Holds s envs)
    (found : envs[id]? = some env) :
    Follows S s envs (Evaluation.bodyValue parts id) fun n => Closure.bodyValue (closures n) env := by
  refine Follows.get ?_
  have body := (S.described h).body id env found
  rw [S.sources h] at body
  have path := (S.described h).path id env found
  have empty := isEmpty_of_forall₂ body.embeds
  refine (follow.bodyFields body.entries h found).bind fun fields t envs' longer h => ?_
  rw [path, empty]
  exact follow.embedAll body.embeds h (getElem?_longer longer found) _

theorem perform (follow : PartsFollow S parts closures) :
    TasksFollow S (Evaluation.perform parts) fun n => Closure.perform (closures n) := by
  intro s envs t t' h is
  cases is with
  | body found => exact follow.bodyValue h found
  | expr is => exact follow.exprValue h is _

end PartsFollow

end Expressions

end Follows

end StackLattice.Evaluation
