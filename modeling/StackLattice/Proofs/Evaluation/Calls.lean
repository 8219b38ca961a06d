import StackLattice.Proofs.Evaluation.Discipline

/-!
The calls of a run: which tasks and fields a task asks for, in the states that it does so in. Whatever a discipline says
of the state at the start holds in all of them.
-/

namespace StackLattice.Evaluation

open Syntax (Expr Decl Ident UnaryOp)

/-- A selector refers to a field of a body that nothing else contributes to. -/
theorem reference?_select {scopes : Scopes} {scope : ScopeId} {base : Expr} {field : Ident} {id : ScopeId}
    {label : String} (found : reference? scopes scope (.select base field) = some (id, label)) :
    ∃ key entry, reference? scopes scope base = some key ∧ scopes.entryOf? key.1 key.2 = some entry ∧
      entry.conjuncts = [] ∧ entry.inner = some id ∧ (scopes.node id).embeds = [] ∧ label = field.name ∧
      ((scopes.node id).entryOf? label).isSome = true := by
  rw [reference?] at found
  simp only [Option.bind_eq_bind, Option.bind_eq_some_iff] at found
  obtain ⟨key, refers, entry, declared, inner, opened, found⟩ := found
  split at found
  · rename_i open_
    cases found
    simp only [Bool.and_eq_true, List.isEmpty_iff] at open_
    exact ⟨key, entry, refers, declared, open_.1.1, opened, open_.1.2, rfl, open_.2⟩
  · cases found

inductive Call
  | task (t : Task)
  | field (id : ScopeId) (label : String)

/-- The calls that one step makes, each in the state that is left by what comes before it in the step. -/
inductive Asks (parts : Parts) : Task → State → Call → State → Prop
  | inner {inner span place s} : Asks parts (.expr (.paren inner span) place) s (.task (.expr inner place)) s
  | unary {op operand span place s} :
    Asks parts (.expr (.unary op operand span) place) s (.task (.expr operand place)) s
  | name {name : Ident} {place : Place} {s : State} {id} (declared : s.scopes.lookup place.scope name.name = some id) :
    Asks parts (.expr (.ident name) place) s (.field id name.name) s
  | reference {base field} {place : Place} {s : State} {id label}
    (found : reference? s.scopes place.scope (.select base field) = some (id, label)) :
    Asks parts (.expr (.select base field) place) s (.field id label) s
  | base {base field} {place : Place} {s : State} (none : reference? s.scopes place.scope (.select base field) = none) :
    Asks parts (.expr (.select base field) place) s (.task (.expr base place)) s
  | literal {decls span} {place : Place} {s : State} :
    Asks parts (.expr (.struct decls span) place) s
      (.task (.body (s.scopes.addStruct place.scope place.path place.file decls).1))
      { s with scopes := (s.scopes.addStruct place.scope place.path place.file decls).2 }
  | item {before : List Expr} {item after span place s t values}
    (first : (before.mapM fun e => parts.task (.expr e place)) s = (.ok values, t)) :
    Asks parts (.expr (.list (before ++ item :: after) span) place) s (.task (.expr item place)) t
  | left {left right place s} : Asks parts (.expr (.binary .unify left right) place) s (.task (.expr left place)) s
  | right {left right place s t value} (first : parts.task (.expr left place) s = (.ok value, t)) :
    Asks parts (.expr (.binary .unify left right) place) s (.task (.expr right place)) t
  | operand {left right place before operand after s t found}
    (are : operands (.binary .disjoin left right) = before ++ operand :: after)
    (first : alternatives parts place before s = (.ok found, t)) :
    Asks parts (.expr (.binary .disjoin left right) place) s (.task (.expr (Closure.unmarked operand).2 place)) t
  | declared {id before entry after} {s t : State} {fields} (are : (s.scopes.node id).entries = before ++ entry :: after)
    (first : bodyFields parts id before s = (.ok fields, t)) : Asks parts (.body id) s (.field id entry.label) t
  | embedded {id before embed after} {s t u : State} {fields value}
    (own : bodyFields parts id (s.scopes.node id).entries s = (.ok fields, t))
    (are : (s.scopes.node id).embeds = before ++ embed :: after)
    (first : embedAll parts (s.scopes.node id).path before
      (if (s.scopes.node id).embeds.isEmpty || !fields.isEmpty then .struct fields else .top) t = (.ok value, u)) :
    Asks parts (.body id) s (.task (.expr embed.expr ⟨embed.scope, embed.file, (s.scopes.node id).path⟩)) u

/-- The tasks of a field that is not remembered. -/
inductive AsksOf (task : Task → Eval Value) (id : ScopeId) (label : String) (s : State) : Task → State → Prop
  | conjunct {entry : Entry} {before conjunct after t value} (declared : s.scopes.entryOf? id label = some entry)
    (are : entry.conjuncts = before ++ conjunct :: after)
    (first : conjoinAll task (joinPath (s.scopes.node id).path label) entry.position before .top s = (.ok value, t)) :
    AsksOf task id label s
      (.expr conjunct.expr ⟨conjunct.scope, conjunct.file, joinPath (s.scopes.node id).path label⟩) t
  | body {entry : Entry} {inner t value} (declared : s.scopes.entryOf? id label = some entry)
    (first : conjoinAll task (joinPath (s.scopes.node id).path label) entry.position entry.conjuncts .top s =
      (.ok value, t)) (opened : entry.inner = some inner) :
    AsksOf task id label s (.body inner) t

/-- The calls that are made in the course of one, those of a task with one level less. -/
inductive Visits : Nat → Call → State → Nat → Call → State → Prop
  | self {levels call s} : Visits levels call s levels call s
  | task {levels n : Nat} {t s call call' u u'} (shallow : s.depth < evaluationLimit)
    (asks : Asks (remembering (evaluate levels)) t { s with depth := s.depth + 1 } call u)
    (visits : Visits levels call u n call' u') : Visits (levels + 1) (.task t) s n call' u'
  | field {levels n : Nat} {id label s t call' u u'} (new : s.cache.lookup (id, label) = none)
    (inactive : s.active.contains (id, label) = false)
    (asks : AsksOf (evaluate levels) id label { s with active := (id, label) :: s.active } t u)
    (visits : Visits levels (.task t) u n call' u') : Visits levels (.field id label) s n call' u'

/-- The values that one step unifies, in the state that is left when both are there. -/
inductive Unites (parts : Parts) : Task → State → Value → Value → State → Prop
  | operands {left right place s t u a b} (first : parts.task (.expr left place) s = (.ok a, t))
    (second : parts.task (.expr right place) t = (.ok b, u)) :
    Unites parts (.expr (.binary .unify left right) place) s a b u
  | embedded {id before embed after} {s t u w : State} {fields value inner}
    (own : bodyFields parts id (s.scopes.node id).entries s = (.ok fields, t))
    (are : (s.scopes.node id).embeds = before ++ embed :: after)
    (first : embedAll parts (s.scopes.node id).path before
      (if (s.scopes.node id).embeds.isEmpty || !fields.isEmpty then .struct fields else .top) t = (.ok value, u))
    (next : parts.task (.expr embed.expr ⟨embed.scope, embed.file, (s.scopes.node id).path⟩) u = (.ok inner, w)) :
    Unites parts (.body id) s value inner w

inductive UnitesOf (task : Task → Eval Value) (id : ScopeId) (label : String) (s : State) :
    Value → Value → State → Prop
  | conjunct {entry : Entry} {before conjunct after t u value found} (declared : s.scopes.entryOf? id label = some entry)
    (are : entry.conjuncts = before ++ conjunct :: after)
    (first : conjoinAll task (joinPath (s.scopes.node id).path label) entry.position before .top s = (.ok value, t))
    (next : task (.expr conjunct.expr ⟨conjunct.scope, conjunct.file, joinPath (s.scopes.node id).path label⟩) t =
      (.ok found, u)) :
    UnitesOf task id label s value found u
  | body {entry : Entry} {inner t u value found} (declared : s.scopes.entryOf? id label = some entry)
    (first : conjoinAll task (joinPath (s.scopes.node id).path label) entry.position entry.conjuncts .top s =
      (.ok value, t)) (opened : entry.inner = some inner) (next : task (.body inner) t = (.ok found, u)) :
    UnitesOf task id label s value found u

/-- The values that are unified in a call itself. -/
inductive Meets : Nat → Call → State → Value → Value → State → Prop
  | task {levels t s a b u} (shallow : s.depth < evaluationLimit)
    (unites : Unites (remembering (evaluate levels)) t { s with depth := s.depth + 1 } a b u) :
    Meets (levels + 1) (.task t) s a b u
  | field {levels id label s a b u} (new : s.cache.lookup (id, label) = none)
    (inactive : s.active.contains (id, label) = false)
    (unites : UnitesOf (evaluate levels) id label { s with active := (id, label) :: s.active } a b u) :
    Meets levels (.field id label) s a b u

section Disciplined

variable {D : Discipline} {s t : State} {call : Call}

/-- What a body comes to with some of its embeddings. -/
theorem kept_embeddings {parts : Parts} (keep : PartsKeep D parts) {id : ScopeId} {before : List Conjunct}
    {u : State} {path : String} {fields : List (Field Value)} {embeds : Bool} {value : Value} (h : D.Holds s)
    (own : bodyFields parts id (s.scopes.node id).entries s = (.ok fields, t))
    (first : embedAll parts path before (if embeds || !fields.isEmpty then .struct fields else .top) t = (.ok value, u)) :
    D.Holds u ∧ D.Whole u value := by
  obtain ⟨_, holds, inside⟩ := (keep.bodyFields id (s.scopes.node id).entries h).of_ok own
  refine ((keep.embedAll path before holds ?_).of_ok first).2
  split
  · exact D.struct inside
  · exact D.whole_of_part (D.leaf rfl)

theorem Asks.holds {parts : Parts} (keep : PartsKeep D parts) {task : Task} (asks : Asks parts task s call t)
    (h : D.Holds s) : D.Holds t := by
  cases asks with
  | inner | unary | name | reference | base | left => exact h
  | literal => exact (D.gather _ _ h).2
  | item first => exact ((keep.items _ _ h).of_ok first).2.1
  | right first => exact ((keep.task _ s h).of_ok first).2.1
  | operand are first => exact ((keep.alternatives _ _ h).of_ok first).2.1
  | declared are first => exact ((keep.bodyFields _ _ h).of_ok first).2.1
  | embedded own are first => exact (kept_embeddings keep h own first).1

theorem AsksOf.holds {task : Task → Eval Value} (keep : TasksKeep D task) {id : ScopeId} {label : String} {asked : Task}
    (asks : AsksOf task id label s asked t) (h : D.Holds s) : D.Holds t := by
  cases asks with
  | conjunct declared are first => exact ((keep.conjoinAll _ _ _ h (D.leaf rfl)).of_ok first).2.1
  | body declared first opened => exact ((keep.conjoinAll _ _ _ h (D.leaf rfl)).of_ok first).2.1

/-- A discipline holds wherever a call is made, if it holds at the start. -/
theorem Visits.holds {levels n : Nat} {call' : Call} (visits : Visits levels call s n call' t) (h : D.Holds s) :
    D.Holds t := by
  induction visits with
  | self => exact h
  | task shallow asks _ ih => exact ih (asks.holds (parts_kept D _) (D.descend h shallow))
  | field new inactive asks _ ih => exact ih (asks.holds (evaluate_kept D _) (D.enter _ h))

variable {a b : Value}

theorem Unites.wholes {parts : Parts} (keep : PartsKeep D parts) {task : Task} (unites : Unites parts task s a b t)
    (h : D.Holds s) : D.Whole t a ∧ D.Whole t b := by
  cases unites with
  | operands first second =>
    obtain ⟨_, h, left⟩ := (keep.task _ s h).of_ok first
    obtain ⟨leads, _, right⟩ := (keep.task _ _ h).of_ok second
    exact ⟨D.whole_of_part (D.part_mono leads left), D.whole_of_part right⟩
  | embedded own are first next =>
    obtain ⟨h, value⟩ := kept_embeddings keep h own first
    obtain ⟨leads, _, inner⟩ := (keep.task _ _ h).of_ok next
    exact ⟨D.whole_mono leads value, D.whole_of_part inner⟩

theorem UnitesOf.wholes {task : Task → Eval Value} (keep : TasksKeep D task) {id : ScopeId} {label : String}
    (unites : UnitesOf task id label s a b t) (h : D.Holds s) : D.Whole t a ∧ D.Whole t b := by
  cases unites with
  | conjunct _ _ first next | body _ first _ next =>
    obtain ⟨_, h, value⟩ := (keep.conjoinAll _ _ _ h (D.leaf rfl)).of_ok first
    obtain ⟨leads, _, found⟩ := (keep _ _ h).of_ok next
    exact ⟨D.whole_of_part (D.part_mono leads value), D.whole_of_part found⟩

/-- What is unified in a call are wholes. -/
theorem Meets.wholes {levels : Nat} (meets : Meets levels call s a b t) (h : D.Holds s) : D.Whole t a ∧ D.Whole t b := by
  cases meets with
  | task shallow unites => exact unites.wholes (parts_kept D _) (D.descend h shallow)
  | field new inactive unites => exact unites.wholes (evaluate_kept D _) (D.enter _ h)

end Disciplined

end StackLattice.Evaluation
