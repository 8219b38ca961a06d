import StackLattice.Proofs.Evaluation.Agreement
import StackLattice.Proofs.Value.Structure

/-!
What evaluation keeps to. A discipline says which states are allowed, what they may lead to, and what the values in
them are like. The rules keep to it when their parts do, and evaluation that remembers fields keeps to it in every call.
-/

namespace StackLattice.Evaluation

open Syntax (Expr Decl Ident)

def State.leave (s : State) (key : FieldKey) (r : Except EvalError Value) : State :=
  { s with active := s.active.erase key, cache := (key, r) :: s.cache }

theorem mem_of_lookup {key : FieldKey} {r : Except EvalError Value} {cache : List (FieldKey × Except EvalError Value)}
    (found : cache.lookup key = some r) : (key, r) ∈ cache := by
  obtain ⟨before, after, rfl, _⟩ := List.lookup_eq_some_iff.mp found
  exact List.mem_append_right _ List.mem_cons_self

/-- Allowed states, where they may lead, and the values that a task finds in one of them (parts) or makes of what it
    finds (wholes). A whole is a part for the task one level up. -/
structure Discipline where
  Holds : State → Prop
  Leads : State → State → Prop
  Part : State → Value → Prop
  Whole : State → Value → Prop
  refl : ∀ s, Leads s s
  trans : ∀ {s t u}, Leads s t → Leads t u → Leads s u
  part_mono : ∀ {s t v}, Leads s t → Part s v → Part t v
  whole_mono : ∀ {s t v}, Leads s t → Whole s v → Whole t v
  whole_of_part : ∀ {s v}, Part s v → Whole s v
  leaf : ∀ {s v}, v.isLeaf = true → Part s v
  struct : ∀ {s} {fields : List (Field Value)}, (∀ f ∈ fields, Part s f.value) → Whole s (.struct fields)
  list : ∀ {s items}, (∀ item ∈ items, Part s item) → Whole s (.list items)
  disjoin : ∀ {s} {alternatives : List (Alternative Value)}, alternatives ≠ [] →
    (∀ a ∈ alternatives, Part s a.value) → Whole s (.disjoin alternatives)
  unify_part : ∀ {s a b v}, Part s a → Part s b → a.unify b = .ok v → Part s v
  unify_whole : ∀ {s a b v}, Whole s a → Whole s b → a.unify b = .ok v → Whole s v
  selected : ∀ {s base label v}, Part s base → Closure.selected label base = .ok v → Part s v
  gather : ∀ {s} (place : Place) (decls : List Decl), Holds s →
    let scopes := (s.scopes.addStruct place.scope place.path place.file decls).2
    Leads s { s with scopes } ∧ Holds { s with scopes }
  cached : ∀ {s key v}, Holds s → s.cache.lookup key = some (.ok v) → Part s v
  enter : ∀ {s} (key : FieldKey), Holds s → Holds { s with active := key :: s.active }
  leave : ∀ {s t key r}, Holds s → s.cache.lookup key = none → Leads { s with active := key :: s.active } t →
    Holds t → (∀ v, r = .ok v → Part t v) →
    Leads s (t.leave key r) ∧ Holds (t.leave key r) ∧ ∀ v, Part t v → Part (t.leave key r) v
  descend : ∀ {s}, Holds s → s.depth < evaluationLimit → Holds { s with depth := s.depth + 1 }
  ascend : ∀ {s t}, Holds s → s.depth < evaluationLimit → Leads { s with depth := s.depth + 1 } t → Holds t →
    Leads s { t with depth := t.depth - 1 } ∧ Holds { t with depth := t.depth - 1 } ∧
      ∀ v, Whole t v → Part { t with depth := t.depth - 1 } v

/-- What comes of an evaluation in a state keeps to a discipline, and a result is good where it is found. -/
structure Kept (D : Discipline) {α : Type} (Good : State → α → Prop) (s : State) (r : Except EvalError α × State) :
    Prop where
  leads : D.Leads s r.2
  holds : D.Holds r.2
  good : ∀ a, r.1 = .ok a → Good r.2 a

section Kept

variable {D : Discipline} {α β : Type} {P : State → α → Prop} {Q : State → β → Prop} {s t : State}

namespace Kept

theorem pure (h : D.Holds s) {a : α} (good : P s a) : Kept D P s ((Pure.pure a : Eval α) s) :=
  ⟨D.refl s, h, fun _ same => by cases same; exact good⟩

theorem error (h : D.Holds s) (e : EvalError) : Kept D P s (.error e, s) :=
  ⟨D.refl s, h, fun _ impossible => by cases impossible⟩

theorem bind {m : Eval α} {f : α → Eval β} (h : Kept D P s (m s))
    (next : ∀ a t, D.Leads s t → D.Holds t → P t a → Kept D Q t (f a t)) : Kept D Q s ((m >>= f) s) := by
  obtain ⟨leads, holds, good⟩ := h
  rcases result : m s with ⟨r, t⟩
  rw [result] at leads holds good
  cases r with
  | error e =>
    rw [bind_of_error result]
    exact ⟨leads, holds, fun _ impossible => by cases impossible⟩
  | ok a =>
    rw [bind_of_ok result]
    obtain ⟨further, holds, good⟩ := next a t leads holds (good a rfl)
    exact ⟨D.trans leads further, holds, good⟩

theorem tried {m : Eval α} (h : Kept D P s (m s)) :
    Kept D (fun t r => ∀ a, r = .ok a → P t a) s (tried m s) := by
  obtain ⟨leads, holds, good⟩ := h
  rcases result : m s with ⟨r, t⟩
  rw [result] at leads holds good
  rw [Evaluation.tried, result]
  cases r with
  | ok a => exact ⟨leads, holds, fun _ same => by cases same; exact good⟩
  | error e =>
    refine ⟨leads, holds, fun r same => ?_⟩
    dsimp only at same
    split at same <;> cases same
    exact fun _ impossible => by cases impossible

theorem get {m : State → Eval α} (h : Kept D P s (m s s)) : Kept D P s ((MonadState.get >>= m) s) := h

theorem fail (h : D.Holds s) (place : Place) (problem : Problem) (span : Span) :
    Kept D P s ((Evaluation.fail place problem span : Eval α) s) := error h _

theorem of_ok {m : Eval α} {a : α} (h : Kept D P s (m s)) (result : m s = (.ok a, t)) :
    D.Leads s t ∧ D.Holds t ∧ P t a := by
  rw [result] at h
  exact ⟨h.leads, h.holds, h.good a rfl⟩

theorem weaken {P' : State → α → Prop} {r : Except EvalError α × State} (h : Kept D P s r)
    (less : ∀ t a, P t a → P' t a) : Kept D P' s r :=
  ⟨h.leads, h.holds, fun a found => less _ a (h.good a found)⟩

theorem unifyPart (h : D.Holds s) (path : String) (fallback : Option Position) {a b : Value}
    (left : D.Part s a) (right : D.Part s b) : Kept D D.Part s (unifyAt path fallback a b s) := by
  rw [unifyAt]
  cases unified : a.unify b with
  | ok v => exact pure h (D.unify_part left right unified)
  | error c => exact error h _

theorem unifyWhole (h : D.Holds s) (path : String) (fallback : Option Position) {a b : Value}
    (left : D.Whole s a) (right : D.Whole s b) : Kept D D.Whole s (unifyAt path fallback a b s) := by
  rw [unifyAt]
  cases unified : a.unify b with
  | ok v => exact pure h (D.unify_whole left right unified)
  | error c => exact error h _

end Kept

end Kept

section Rules

variable {D : Discipline} {s : State}

def TasksKeep (D : Discipline) (task : Task → Eval Value) : Prop :=
  ∀ t s, D.Holds s → Kept D D.Part s (task t s)

section Fields

variable {task : Task → Eval Value} (keep : TasksKeep D task)

include keep

theorem TasksKeep.conjoinAll (path : String) (position : Position) (conjuncts : List Conjunct) {value : Value}
    (h : D.Holds s) (start : D.Part s value) :
    Kept D D.Part s (conjoinAll task path position conjuncts value s) := by
  induction conjuncts generalizing s value with
  | nil => exact .pure h start
  | cons conjunct conjuncts ih =>
    refine (keep _ s h).bind fun next t leads h found => ?_
    refine (Kept.unifyPart h _ _ (D.part_mono leads start) found).bind fun value t _ h whole => ih h whole

theorem TasksKeep.fieldValue (id : ScopeId) (label : String) (h : D.Holds s) :
    Kept D D.Part s (fieldValue task id label s) := by
  apply Kept.get
  cases s.scopes.entryOf? id label with
  | none => exact .error h _
  | some entry =>
    refine (keep.conjoinAll _ _ entry.conjuncts h (D.leaf rfl)).bind fun value t _ h whole => ?_
    cases entry.inner with
    | none => exact .pure h whole
    | some inner =>
      refine (keep _ t h).bind fun body u leads h inside => ?_
      exact .unifyPart h _ _ (D.part_mono leads whole) inside

end Fields

/-- A disjunction of operands finds an alternative or keeps a conflict. -/
theorem found_of_alternatives {parts : Parts} {place : Place} {operand : Expr} {es : List Expr} {s t : State}
    {found : List (Alternative Value)} {conflict : Option EvalError}
    (h : alternatives parts place (operand :: es) s = (.ok (found, conflict), t)) :
    found ≠ [] ∨ conflict.isSome = true := by
  rw [alternatives_cons] at h
  obtain ⟨result, s, _, h⟩ := bind_eq_ok h
  obtain ⟨⟨others, rest⟩, s', _, h⟩ := bind_eq_ok h
  cases result with
  | ok value =>
    cases h
    exact .inl (List.cons_ne_nil _ _)
  | error err =>
    cases h
    exact .inr rfl

structure PartsKeep (D : Discipline) (parts : Parts) : Prop where
  task : TasksKeep D parts.task
  field : ∀ id label s, D.Holds s → Kept D D.Part s (parts.field id label s)

namespace PartsKeep

variable {parts : Parts} (keep : PartsKeep D parts) (place : Place)

include keep

theorem nameValue (name : Ident) (h : D.Holds s) : Kept D D.Part s (nameValue parts place name s) := by
  apply Kept.get
  cases s.scopes.lookup place.scope name.name with
  | some id => exact keep.field id name.name s h
  | none =>
    cases s.scopes.import? place.file name.name with
    | some i => exact .fail h _ _ _
    | none =>
      by_cases any : name.name = "_"
      · simp only [any, if_true]
        exact .pure h (D.leaf rfl)
      · simp only [any, if_false]
        cases Kind.ofName? name.name with
        | some k => exact .pure h (D.leaf rfl)
        | none => exact .fail h _ _ _

theorem alternatives (es : List Expr) (h : D.Holds s) :
    Kept D (fun t r => ∀ a ∈ r.1, D.Part t a.value) s (alternatives parts place es s) := by
  induction es generalizing s with
  | nil => exact .pure h fun _ impossible => absurd impossible List.not_mem_nil
  | cons operand es ih =>
    rw [alternatives_cons]
    refine (keep.task _ s h).tried.bind fun result t _ h found => (ih h).bind fun others u leads h rest => ?_
    obtain ⟨others, conflict⟩ := others
    cases result with
    | ok v => exact .pure h (List.forall_mem_cons.mpr ⟨D.part_mono leads (found v rfl), rest⟩)
    | error e => exact .pure h rest

theorem disjunctionValue (e : Expr) (h : D.Holds s) : Kept D D.Whole s (disjunctionValue parts place e s) := by
  obtain ⟨operand, es, are⟩ := List.exists_cons_of_ne_nil (operands_ne_nil e)
  rw [Evaluation.disjunctionValue, are]
  have ran := keep.alternatives place (operand :: es) h
  rcases result : Evaluation.alternatives parts place (operand :: es) s with ⟨r, t⟩
  rw [result] at ran
  cases r with
  | error err =>
    rw [bind_of_error result]
    exact ⟨ran.leads, ran.holds, fun _ impossible => by cases impossible⟩
  | ok both =>
    obtain ⟨found, conflict⟩ := both
    rw [bind_of_ok result]
    dsimp only
    split
    · exact ⟨ran.leads, ran.holds, fun _ impossible => by cases impossible⟩
    · rename_i _ _ notBoth
      have some : found ≠ [] := by
        rintro rfl
        rcases found_of_alternatives result with none | kept
        · exact none rfl
        · obtain ⟨err, rfl⟩ := Option.isSome_iff_exists.mp kept
          exact notBoth err rfl rfl
      exact ⟨ran.leads, ran.holds, fun _ same => by cases same; exact D.disjoin some (ran.good _ rfl)⟩

theorem items (es : List Expr) (h : D.Holds s) :
    Kept D (fun t vs => ∀ v ∈ vs, D.Part t v) s ((es.mapM fun e => parts.task (.expr e place)) s) := by
  induction es generalizing s with
  | nil => exact .pure h fun _ impossible => absurd impossible List.not_mem_nil
  | cons e es ih =>
    rw [List.mapM_cons]
    refine (keep.task _ s h).bind fun v t _ h first => (ih h).bind fun vs u leads h rest => ?_
    exact .pure h (List.forall_mem_cons.mpr ⟨D.part_mono leads first, rest⟩)

omit keep in
theorem select (field : Ident) {base : Value} (h : D.Holds s) (inside : D.Part s base) :
    Kept D D.Part s (select place field base s) := by
  rw [select_eq]
  split
  · exact .pure h (D.selected inside ‹_›)
  · exact .fail h _ _ _

omit keep in
theorem isLeaf_negate {v w : Value} (negated : negate v = some w) : w.isLeaf = true := by
  unfold negate at negated
  split at negated
  · split at negated <;> cases negated
    rfl
  · cases negated
    rfl
  · split at negated <;> cases negated
    rfl
  · cases negated

theorem exprValue (e : Expr) (h : D.Holds s) : Kept D D.Whole s (exprValue parts place e s) := by
  have value (part : Expr) {s : State} (h : D.Holds s) := keep.task (.expr part place) s h
  have whole {s : State} {r : Except EvalError Value × State} (part : Kept D D.Part s r) : Kept D D.Whole s r :=
    part.weaken fun _ _ => D.whole_of_part
  have constant {v : Value} (is : v.isLeaf = true) : Kept D D.Whole s ((Pure.pure v : Eval Value) s) :=
    .pure h (D.whole_of_part (D.leaf is))
  match e with
  | .null _ | .bool _ _ | .int _ _ | .float _ _ | .string _ _ => exact constant rfl
  | .paren inner _ => exact whole (value inner h)
  | .ident name => exact whole (keep.nameValue place name h)
  | .select base field =>
    apply whole
    apply Kept.get
    cases reference? s.scopes place.scope (.select base field) with
    | some key => exact keep.field key.1 key.2 s h
    | none => exact (value base h).bind fun v t _ h inside => select place field h inside
  | .struct decls _ =>
    obtain ⟨leads, grown⟩ := D.gather place decls h
    have body := keep.task (.body (s.scopes.addStruct place.scope place.path place.file decls).1) _ grown
    exact whole ⟨D.trans leads body.leads, body.holds, body.good⟩
  | .list items _ => exact (keep.items place items h).bind fun vs t _ h all => .pure h (D.list all)
  | .unary .negate operand span =>
    refine (value operand h).bind fun v t _ h _ => ?_
    cases negated : negate v with
    | some result => exact .pure h (D.whole_of_part (D.leaf (isLeaf_negate negated)))
    | none => exact .fail h _ _ _
  | .unary .mark operand _ => exact whole (value operand h)
  | .binary .unify left right =>
    apply whole
    refine (value left h).bind fun a t _ h first => (value right h).bind fun b u leads h second => ?_
    exact .unifyPart h _ _ (D.part_mono leads first) second
  | .binary .disjoin _ _ => exact keep.disjunctionValue place _ h

theorem bodyFields (id : ScopeId) (entries : List Entry) (h : D.Holds s) :
    Kept D (fun t fields => ∀ f ∈ fields, D.Part t f.value) s (bodyFields parts id entries s) := by
  induction entries generalizing s with
  | nil => exact .pure h fun _ impossible => absurd impossible List.not_mem_nil
  | cons entry entries ih =>
    refine (keep.field id entry.label s h).bind fun v t _ h first => (ih h).bind fun fields u leads h rest => ?_
    exact .pure h (List.forall_mem_cons.mpr ⟨D.part_mono leads first, rest⟩)

theorem embedAll (path : String) (embeds : List Conjunct) {value : Value} (h : D.Holds s)
    (start : D.Whole s value) : Kept D D.Whole s (embedAll parts path embeds value s) := by
  induction embeds generalizing s value with
  | nil => exact .pure h start
  | cons embed embeds ih =>
    refine (keep.task _ s h).bind fun embedded t leads h inner => ?_
    apply Kept.get
    refine (Kept.unifyWhole h _ _ (D.whole_mono leads start) (D.whole_of_part inner)).bind fun v u _ h whole => ?_
    exact ih h whole

theorem bodyValue (id : ScopeId) (h : D.Holds s) : Kept D D.Whole s (bodyValue parts id s) := by
  apply Kept.get
  refine (keep.bodyFields id (s.scopes.node id).entries h).bind fun fields t _ h inside => ?_
  apply keep.embedAll _ _ h
  split
  · exact D.struct inside
  · exact D.whole_of_part (D.leaf rfl)

theorem perform (t : Task) (h : D.Holds s) : Kept D D.Whole s (perform parts t s) := by
  cases t with
  | body id => exact keep.bodyValue id h
  | expr e place => exact keep.exprValue place e h

end PartsKeep

theorem remember_kept {key : FieldKey} {compute : Eval Value}
    (keep : ∀ s, D.Holds s → Kept D D.Part s (compute s)) (h : D.Holds s) :
    Kept D D.Part s (remember key compute s) := by
  cases found : s.cache.lookup key with
  | some r =>
    rw [remember_cached found]
    exact ⟨D.refl s, h, fun v same => D.cached h (found.trans (congrArg some same))⟩
  | none =>
    cases active : s.active.contains key with
    | true =>
      rw [remember_active found active]
      exact .error h _
    | false =>
      obtain ⟨leads, holds, good⟩ := keep _ (D.enter key h)
      rcases result : compute { s with active := key :: s.active } with ⟨r, t⟩
      rw [result] at leads holds good
      rw [remember_fresh found active result]
      obtain ⟨leads, holds, still⟩ := D.leave h found leads holds good
      exact ⟨leads, holds, fun v same => still v (good v same)⟩

theorem nest_kept {task : Task} {compute : Eval Value} (keep : ∀ s, D.Holds s → Kept D D.Whole s (compute s))
    (h : D.Holds s) : Kept D D.Part s (nest task compute s) := by
  rcases Nat.lt_or_ge s.depth evaluationLimit with shallow | deep
  · obtain ⟨leads, holds, good⟩ := keep _ (D.descend h shallow)
    rcases result : compute { s with depth := s.depth + 1 } with ⟨r, t⟩
    rw [result] at leads holds good
    rw [nest_open shallow result]
    obtain ⟨leads, holds, part⟩ := D.ascend h shallow leads holds
    exact ⟨leads, holds, fun v same => part v (good v same)⟩
  · rw [nest_deep deep]
    exact .error h _

/-- Evaluation to any depth keeps to a discipline, in every state in which it holds. -/
theorem evaluate_kept (D : Discipline) (levels : Nat) : TasksKeep D (evaluate levels) := by
  induction levels with
  | zero =>
    intro t s h
    rw [evaluate_zero]
    exact .error h _
  | succ levels ih =>
    intro t s h
    have keep : PartsKeep D (remembering (evaluate levels)) :=
      ⟨ih, fun id label s h => remember_kept (fun s h => ih.fieldValue id label h) h⟩
    exact nest_kept (fun s h => keep.perform t h) h

theorem parts_kept (D : Discipline) (levels : Nat) : PartsKeep D (remembering (evaluate levels)) :=
  ⟨evaluate_kept D levels, fun id label _ h =>
    remember_kept (fun _ h => (evaluate_kept D levels).fieldValue id label h) h⟩

end Rules

end StackLattice.Evaluation
