import StackLattice.Proofs.Evaluation.Calls
import StackLattice.Proofs.Evaluation.WellFormed

/-!
The tables that evaluation comes to. Each task is about scopes that are in the table, and each field that is asked for
is declared there, so that the tables which come about are well formed and no field is found to be missing.
-/

namespace StackLattice

open Syntax (Expr Decl Ident ParsedFile)

namespace Scopes

variable {s t : Scopes} {id : ScopeId} {label : String}

theorem Declares.inside (h : s.Declares id label) : id < s.nodes.size := by
  obtain ⟨e, found⟩ := Option.isSome_iff_exists.mp h
  exact lt_of_entryOf? found

theorem Extends.entryOf? (h : s.Extends t) (inside : id < s.nodes.size) : t.entryOf? id label = s.entryOf? id label := by
  rw [Scopes.entryOf?, h.old id inside, Scopes.entryOf?]

theorem Extends.declares (h : s.Extends t) (declared : s.Declares id label) : t.Declares id label := by
  rw [Declares, h.entryOf? declared.inside]
  exact declared

theorem Appended.extends (h : s.Appended t) : s.Extends t := ⟨h.files, h.size, h.old⟩

theorem declares_of_member {e : Entry} (member : e ∈ (s.node id).entries) : s.Declares id e.label := by
  rw [Declares, Scopes.entryOf?, Scope.entryOf?, List.find?_isSome]
  exact ⟨e, member, beq_self_eq_true _⟩

theorem Shaped.declares_of_lookup (h : s.Shaped) {scope : ScopeId} (found : s.lookup scope label = some id) :
    s.Declares id label := (h.lookup_eq_some_iff.mp found).2.1

end Scopes

namespace Evaluation

/-- The field that a selector refers to is declared. -/
theorem declares_of_reference {s : Scopes} {scope : ScopeId} {base : Expr} {field : Ident} {key : FieldKey}
    (found : reference? s scope (.select base field) = some key) : s.Declares key.1 key.2 := by
  obtain ⟨_, _, _, _, _, _, _, _, declared⟩ := reference?_select found
  exact declared

/-- The scope that a task is about is in the table. -/
def Task.Within (s : Scopes) : Task → Prop
  | body id => id < s.nodes.size
  | expr _ place => place.scope < s.nodes.size

/-- The scopes that a call is about are in the table, and a field that it asks for is declared there. -/
def Call.Within (s : Scopes) : Call → Prop
  | task t => t.Within s
  | field id label => s.Declares id label

variable {files : List ParsedFile}

/-- The table comes about by evaluation of the files, and no field was found to be missing. -/
structure State.Reached (files : List ParsedFile) (s : State) : Prop where
  arises : s.scopes.Arises files
  cached : ∀ entry ∈ s.cache, ∀ e, entry.2 = .error e → e.problem ≠ .undeclared

/-- What runs from one reached state to another, and does not find a field missing. -/
structure Stays (files : List ParsedFile) {α : Type} (Good : α → Prop) (s : State) (r : Except EvalError α × State) :
    Prop where
  reached : r.2.Reached files
  grown : s.scopes.Extends r.2.scopes
  good : ∀ a, r.1 = .ok a → Good a
  declared : ∀ e, r.1 = .error e → e.problem ≠ .undeclared

namespace Stays

variable {α β : Type} {P : α → Prop} {Q : β → Prop} {s t : State} {m : Eval α}

theorem pure (h : s.Reached files) {a : α} (good : P a) : Stays files P s ((Pure.pure a : Eval α) s) :=
  ⟨h, .refl _, fun _ same => (by cases same; exact good), fun _ impossible => by cases impossible⟩

theorem error (h : s.Reached files) {e : EvalError} (other : e.problem ≠ .undeclared) :
    Stays files P s (.error e, s) :=
  ⟨h, .refl _, fun _ impossible => (by cases impossible), fun _ same => by cases same; exact other⟩

theorem fail (h : s.Reached files) (place : Place) {problem : Problem} (other : problem ≠ .undeclared) (span : Span) :
    Stays files P s ((Evaluation.fail place problem span : Eval α) s) := error h other

theorem bind {f : α → Eval β} (first : Stays files P s (m s))
    (next : ∀ a t, t.Reached files → s.scopes.Extends t.scopes → P a → Stays files Q t (f a t)) :
    Stays files Q s ((m >>= f) s) := by
  obtain ⟨reached, grown, good, declared⟩ := first
  rcases result : m s with ⟨r, t⟩
  rw [result] at reached grown good declared
  cases r with
  | error e =>
    rw [bind_of_error result]
    exact ⟨reached, grown, fun _ impossible => (by cases impossible), fun _ same => declared _ (by cases same; rfl)⟩
  | ok a =>
    rw [bind_of_ok result]
    have last := next a t reached grown (good a rfl)
    exact { last with grown := grown.trans last.grown }

theorem tried (h : Stays files P s (m s)) :
    Stays files (fun r => ∀ e, r = .error e → e.problem ≠ .undeclared) s (tried m s) := by
  obtain ⟨reached, grown, good, declared⟩ := h
  rcases result : m s with ⟨r, t⟩
  rw [result] at reached grown good declared
  rw [Evaluation.tried, result]
  cases r with
  | ok a => exact ⟨reached, grown, fun _ same => (by cases same; exact declared), fun _ impossible => by cases impossible⟩
  | error e =>
    refine ⟨reached, grown, fun r same => ?_, fun e' same => ?_⟩
    · dsimp only at same
      split at same <;> cases same
      exact declared
    · dsimp only at same
      split at same <;> cases same
      exact declared e rfl

theorem unifyAt (h : s.Reached files) (path : String) (fallback : Option Position) (a b : Value) :
    Stays files (fun _ => True) s (unifyAt path fallback a b s) := by
  rw [Evaluation.unifyAt]
  cases a.unify b with
  | ok v => exact pure h trivial
  | error c => exact error h fun impossible => by cases impossible

theorem of_ok {a : α} (h : Stays files P s (m s)) (result : m s = (.ok a, t)) :
    t.Reached files ∧ s.scopes.Extends t.scopes := by
  rw [result] at h
  exact ⟨h.reached, h.grown⟩

end Stays

section Rules

variable {s : State}

def TasksStay (files : List ParsedFile) (task : Task → Eval Value) : Prop :=
  ∀ t s, s.Reached files → t.Within s.scopes → Stays files (fun _ => True) s (task t s)

structure PartsStay (files : List ParsedFile) (parts : Parts) : Prop where
  task : TasksStay files parts.task
  field : ∀ id label s, s.Reached files → s.scopes.Declares id label →
    Stays files (fun _ => True) s (parts.field id label s)

/-- Expressions of a scope are looked up in a scope of the table. -/
theorem State.Reached.conjuncts_inside (h : s.Reached files) {id : ScopeId} {e : Entry}
    (member : e ∈ (s.scopes.node id).entries) : ∀ c ∈ e.conjuncts, c.scope < s.scopes.nodes.size := by
  intro c own
  rw [((h.arises.wellFormed.nodes id).entries e member).conjuncts c own]
  exact Scopes.lt_of_mem_entries member

theorem State.Reached.inner_inside (h : s.Reached files) {id inner : ScopeId} {e : Entry}
    (member : e ∈ (s.scopes.node id).entries) (opened : e.inner = some inner) : inner < s.scopes.nodes.size :=
  (((h.arises.wellFormed.nodes id).entries e member).inner inner opened).1

theorem TasksStay.conjoinAll {task : Task → Eval Value} (stay : TasksStay files task) (path : String)
    (position : Position) {conjuncts : List Conjunct} (value : Value) (h : s.Reached files)
    (inside : ∀ c ∈ conjuncts, c.scope < s.scopes.nodes.size) :
    Stays files (fun _ => True) s (conjoinAll task path position conjuncts value s) := by
  induction conjuncts generalizing s value with
  | nil => exact .pure h trivial
  | cons conjunct conjuncts ih =>
    rw [List.forall_mem_cons] at inside
    refine (stay (.expr conjunct.expr ⟨conjunct.scope, conjunct.file, path⟩) s h inside.1).bind fun next t h grown _ => ?_
    refine (Stays.unifyAt h path (some position) value next).bind fun value u h more _ => ih value h fun c member => ?_
    exact Nat.lt_of_lt_of_le (inside.2 c member) (grown.trans more).size

/-- A declared field is never found to be missing. -/
theorem TasksStay.fieldValue {task : Task → Eval Value} (stay : TasksStay files task) {id : ScopeId} {label : String}
    (h : s.Reached files) (declared : s.scopes.Declares id label) :
    Stays files (fun _ => True) s (fieldValue task id label s) := by
  obtain ⟨entry, found⟩ := Option.isSome_iff_exists.mp declared
  have member := List.mem_of_find?_eq_some found
  rw [Evaluation.fieldValue, bind_of_ok (get_run s), found]
  refine (stay.conjoinAll _ entry.position .top h (h.conjuncts_inside member)).bind fun value t h' grown _ => ?_
  cases opened : entry.inner with
  | none => exact .pure h' trivial
  | some inner =>
    refine (stay (.body inner) t h' (Nat.lt_of_lt_of_le (h.inner_inside member opened) grown.size)).bind fun body u h _ _ => ?_
    exact .unifyAt h _ _ _ _

namespace PartsStay

variable {parts : Parts} (stay : PartsStay files parts) {place : Place}

include stay

theorem nameValue (name : Ident) (h : s.Reached files) :
    Stays files (fun _ => True) s (nameValue parts place name s) := by
  rw [Evaluation.nameValue, bind_of_ok (get_run s)]
  cases found : s.scopes.lookup place.scope name.name with
  | some id => exact stay.field id name.name s h (h.arises.wellFormed.declares_of_lookup found)
  | none =>
    cases s.scopes.import? place.file name.name with
    | some i => exact .fail h _ (fun impossible => by cases impossible) _
    | none =>
      by_cases any : name.name = "_"
      · simp only [any, if_true]
        exact .pure h trivial
      · simp only [any, if_false]
        cases Kind.ofName? name.name with
        | some k => exact .pure h trivial
        | none => exact .fail h _ (fun impossible => by cases impossible) _

theorem alternatives (es : List Expr) (h : s.Reached files) (inside : place.scope < s.scopes.nodes.size) :
    Stays files (fun r => ∀ e ∈ r.2, e.problem ≠ .undeclared) s (alternatives parts place es s) := by
  induction es generalizing s with
  | nil => exact .pure h fun _ impossible => by cases impossible
  | cons operand es ih =>
    rw [alternatives_cons]
    refine (stay.task (.expr _ place) s h inside).tried.bind fun result t h grown attempted => ?_
    refine (ih h (Nat.lt_of_lt_of_le inside grown.size)).bind fun others u h _ rest => ?_
    obtain ⟨found, conflict⟩ := others
    cases result with
    | ok v => exact .pure h rest
    | error e => exact .pure h fun _ same => by cases same; exact attempted e rfl

theorem disjunctionValue (e : Expr) (h : s.Reached files) (inside : place.scope < s.scopes.nodes.size) :
    Stays files (fun _ => True) s (disjunctionValue parts place e s) := by
  refine (stay.alternatives (operands e) h inside).bind fun found t h _ conflicts => ?_
  obtain ⟨found, conflict⟩ := found
  dsimp only
  split
  · exact .error h (conflicts _ rfl)
  · exact .pure h trivial

theorem items (es : List Expr) (h : s.Reached files) (inside : place.scope < s.scopes.nodes.size) :
    Stays files (fun _ => True) s ((es.mapM fun e => parts.task (.expr e place)) s) := by
  induction es generalizing s with
  | nil => exact .pure h trivial
  | cons e es ih =>
    rw [List.mapM_cons]
    refine (stay.task (.expr e place) s h inside).bind fun v t h grown _ => ?_
    exact (ih h (Nat.lt_of_lt_of_le inside grown.size)).bind fun vs u h _ _ => .pure h trivial

omit stay in
theorem select (field : Ident) (base : Value) (h : s.Reached files) :
    Stays files (fun _ => True) s (select place field base s) := by
  have other {problem : Problem} (failed : Closure.selected field.name base = .error problem) :
      problem ≠ .undeclared := by
    fun_induction Closure.selected field.name base with
    | case1 => cases failed
    | case3 _ _ _ ih => exact ih failed
    | case2 | case4 | case5 | case6 | case7 =>
      cases failed
      exact fun impossible => by cases impossible
  rw [select_eq]
  split
  · exact .pure h trivial
  · exact .fail h _ (other ‹_›) _

theorem exprValue (e : Expr) (h : s.Reached files) (inside : place.scope < s.scopes.nodes.size) :
    Stays files (fun _ => True) s (exprValue parts place e s) := by
  have value (part : Expr) {s : State} (h : s.Reached files) (inside : place.scope < s.scopes.nodes.size) :=
    stay.task (.expr part place) s h inside
  match e with
  | .null _ | .bool _ _ | .int _ _ | .float _ _ | .string _ _ => exact .pure h trivial
  | .paren inner _ => exact value inner h inside
  | .ident name => exact stay.nameValue name h
  | .select base field =>
    rw [Evaluation.exprValue, bind_of_ok (get_run s)]
    cases found : reference? s.scopes place.scope (.select base field) with
    | some key => exact stay.field key.1 key.2 s h (declares_of_reference found)
    | none => exact (value base h inside).bind fun v t h _ _ => select field v h
  | .struct decls _ =>
    -- The place is in the table, so that the scope of the literal is inside one that is there.
    have grown := (s.scopes.appended_addStruct place.scope place.path place.file decls).extends
    have within := (h.arises.wellFormed.addStruct inside place.path place.file decls).2
    have body := stay.task (.body _) { s with scopes := _ }
      ⟨h.arises.literal inside place.path place.file decls, h.cached⟩ within
    exact { body with grown := grown.trans body.grown }
  | .list items _ => exact (stay.items items h inside).bind fun vs t h _ _ => .pure h trivial
  | .unary .negate operand span =>
    refine (value operand h inside).bind fun v t h _ _ => ?_
    cases negate v with
    | some result => exact .pure h trivial
    | none => exact .fail h _ (fun impossible => by cases impossible) _
  | .unary .mark operand _ => exact value operand h inside
  | .binary .unify left right =>
    refine (value left h inside).bind fun a t h grown _ => ?_
    exact (value right h (Nat.lt_of_lt_of_le inside grown.size)).bind fun b u h _ _ => .unifyAt h _ _ _ _
  | .binary .disjoin _ _ => exact stay.disjunctionValue _ h inside

theorem bodyFields (id : ScopeId) {entries : List Entry} (h : s.Reached files)
    (declared : ∀ e ∈ entries, s.scopes.Declares id e.label) :
    Stays files (fun _ => True) s (bodyFields parts id entries s) := by
  induction entries generalizing s with
  | nil => exact .pure h trivial
  | cons entry entries ih =>
    rw [List.forall_mem_cons] at declared
    -- Later fields stay declared while this one is evaluated, since tables only grow.
    refine (stay.field id entry.label s h declared.1).bind fun v t h grown _ => ?_
    exact (ih h fun e member => grown.declares (declared.2 e member)).bind fun fields u h _ _ => .pure h trivial

theorem embedAll (path : String) {embeds : List Conjunct} (value : Value) (h : s.Reached files)
    (inside : ∀ c ∈ embeds, c.scope < s.scopes.nodes.size) :
    Stays files (fun _ => True) s (embedAll parts path embeds value s) := by
  induction embeds generalizing s value with
  | nil => exact .pure h trivial
  | cons embed embeds ih =>
    rw [List.forall_mem_cons] at inside
    refine (stay.task (.expr embed.expr ⟨embed.scope, embed.file, path⟩) s h inside.1).bind fun embedded t h grown _ => ?_
    rw [bind_of_ok (get_run t)]
    refine (Stays.unifyAt h path _ value embedded).bind fun v u h more _ => ih v h fun c member => ?_
    exact Nat.lt_of_lt_of_le (inside.2 c member) (grown.trans more).size

theorem bodyValue {id : ScopeId} (h : s.Reached files) (inside : id < s.scopes.nodes.size) :
    Stays files (fun _ => True) s (bodyValue parts id s) := by
  rw [Evaluation.bodyValue, bind_of_ok (get_run s)]
  refine (stay.bodyFields id h fun e => Scopes.declares_of_member).bind fun fields t h' grown _ => ?_
  refine stay.embedAll _ _ h' fun c member => ?_
  rw [(h.arises.wellFormed.nodes id).embeds c member]
  exact Nat.lt_of_lt_of_le inside grown.size

theorem perform {t : Task} (h : s.Reached files) (within : t.Within s.scopes) :
    Stays files (fun _ => True) s (perform parts t s) := by
  cases t with
  | body id => exact stay.bodyValue h within
  | expr e place => exact stay.exprValue e h within

end PartsStay

theorem remember_stays {key : FieldKey} {compute : Eval Value}
    (stay : ∀ s : State, s.Reached files → s.scopes.Declares key.1 key.2 → Stays files (fun _ => True) s (compute s))
    (h : s.Reached files) (declared : s.scopes.Declares key.1 key.2) :
    Stays files (fun _ => True) s (remember key compute s) := by
  cases found : s.cache.lookup key with
  | some r =>
    rw [remember_cached found]
    exact ⟨h, .refl _, fun _ _ => trivial, h.cached (key, r) (mem_of_lookup found)⟩
  | none =>
    cases active : s.active.contains key with
    | true =>
      rw [remember_active found active]
      exact .error h fun impossible => by cases impossible
    | false =>
      have ran := stay { s with active := key :: s.active } ⟨h.arises, h.cached⟩ declared
      rcases result : compute { s with active := key :: s.active } with ⟨r, t⟩
      rw [result] at ran
      rw [remember_fresh found active result]
      exact { ran with reached := ⟨ran.reached.arises, List.forall_mem_cons.mpr ⟨ran.declared, ran.reached.cached⟩⟩ }

theorem tooDeep_ne_undeclared (task : Task) (s : Scopes) : (task.tooDeep s).problem ≠ .undeclared := by
  cases task <;> exact fun impossible => by cases impossible

theorem nest_stays {task : Task} {compute : Eval Value}
    (stay : ∀ s : State, s.Reached files → task.Within s.scopes → Stays files (fun _ => True) s (compute s))
    (h : s.Reached files) (within : task.Within s.scopes) : Stays files (fun _ => True) s (nest task compute s) := by
  rcases Nat.lt_or_ge s.depth evaluationLimit with shallow | deep
  · have ran := stay { s with depth := s.depth + 1 } ⟨h.arises, h.cached⟩ within
    rcases result : compute { s with depth := s.depth + 1 } with ⟨r, t⟩
    rw [result] at ran
    rw [nest_open shallow result]
    exact { ran with reached := ⟨ran.reached.arises, ran.reached.cached⟩ }
  · rw [nest_deep deep]
    exact .error h (tooDeep_ne_undeclared task _)

theorem remembering_stays {task : Task → Eval Value} (stay : TasksStay files task) :
    PartsStay files (remembering task) :=
  ⟨stay, fun _ _ _ h declared => remember_stays (fun _ h declared => stay.fieldValue h declared) h declared⟩

theorem evaluate_stays (levels : Nat) : TasksStay files (evaluate levels) := by
  induction levels with
  | zero =>
    intro t s h _
    rw [evaluate_zero]
    exact .error h (tooDeep_ne_undeclared t _)
  | succ levels ih =>
    exact fun t s h within => nest_stays (fun s h within => (remembering_stays ih).perform h within) h within

end Rules

section Calls

variable {s t : State} {call : Call}

/-- What is made of a call. -/
def Call.value (levels : Nat) : Call → Eval Value
  | task t => evaluate levels t
  | field id label => (remembering (evaluate levels)).field id label

theorem Call.stays (levels : Nat) (h : s.Reached files) (within : call.Within s.scopes) :
    Stays files (fun _ => True) s (call.value levels s) := by
  cases call with
  | task t => exact evaluate_stays levels t s h within
  | field id label => exact (remembering_stays (evaluate_stays levels)).field id label s h within

/-- One step asks for what is in the table. -/
theorem Asks.within {parts : Parts} (stay : PartsStay files parts) {task : Task} (asks : Asks parts task s call t)
    (h : s.Reached files) (within : task.Within s.scopes) : t.Reached files ∧ call.Within t.scopes := by
  have wellFormed := h.arises.wellFormed
  cases asks with
  | inner | unary | base | left => exact ⟨h, within⟩
  | name found => exact ⟨h, wellFormed.declares_of_lookup found⟩
  | reference found => exact ⟨h, declares_of_reference found⟩
  | @literal decls _ place _ =>
    exact ⟨⟨h.arises.literal within place.path place.file decls, h.cached⟩,
      (wellFormed.addStruct within place.path place.file decls).2⟩
  | item first =>
    obtain ⟨reached, grown⟩ := (stay.items _ h within).of_ok first
    exact ⟨reached, Nat.lt_of_lt_of_le within grown.size⟩
  | @right left right place _ _ _ first =>
    obtain ⟨reached, grown⟩ := (stay.task (.expr left place) s h within).of_ok first
    exact ⟨reached, Nat.lt_of_lt_of_le within grown.size⟩
  | operand are first =>
    obtain ⟨reached, grown⟩ := (stay.alternatives _ h within).of_ok first
    exact ⟨reached, Nat.lt_of_lt_of_le within grown.size⟩
  | @declared id before entry after _ _ _ are first =>
    have all : ∀ e ∈ before ++ entry :: after, s.scopes.Declares id e.label := are ▸ fun e => Scopes.declares_of_member
    obtain ⟨reached, grown⟩ := (stay.bodyFields id h fun e member => all e (List.mem_append_left _ member)).of_ok first
    exact ⟨reached, grown.declares (all entry (List.mem_append_right _ List.mem_cons_self))⟩
  | @embedded id before embed after _ u _ _ _ own are first =>
    obtain ⟨reached, grown⟩ := (stay.bodyFields id h fun e => Scopes.declares_of_member).of_ok own
    have inside : ∀ c ∈ before ++ embed :: after, c.scope < u.scopes.nodes.size := fun c member => by
      rw [(wellFormed.nodes id).embeds c (are ▸ member)]
      exact Nat.lt_of_lt_of_le within grown.size
    obtain ⟨reached, more⟩ :=
      (stay.embedAll _ _ reached fun c member => inside c (List.mem_append_left _ member)).of_ok first
    exact ⟨reached, Nat.lt_of_lt_of_le (inside embed (List.mem_append_right _ List.mem_cons_self)) more.size⟩

/-- A field asks for expressions and struct literals in the table. -/
theorem AsksOf.within {task : Task → Eval Value} (stay : TasksStay files task) {id : ScopeId} {label : String}
    {asked : Task} (asks : AsksOf task id label s asked t) (h : s.Reached files) :
    t.Reached files ∧ asked.Within t.scopes := by
  cases asks with
  | @conjunct entry before conjunct after _ _ declared are first =>
    have inside : ∀ c ∈ before ++ conjunct :: after, c.scope < s.scopes.nodes.size :=
      are ▸ h.conjuncts_inside (List.mem_of_find?_eq_some declared)
    obtain ⟨reached, grown⟩ :=
      (stay.conjoinAll _ _ _ h fun c member => inside c (List.mem_append_left _ member)).of_ok first
    exact ⟨reached, Nat.lt_of_lt_of_le (inside conjunct (List.mem_append_right _ List.mem_cons_self)) grown.size⟩
  | @body entry inner _ _ declared first opened =>
    have member := List.mem_of_find?_eq_some declared
    obtain ⟨reached, grown⟩ := (stay.conjoinAll _ _ _ h (h.conjuncts_inside member)).of_ok first
    exact ⟨reached, Nat.lt_of_lt_of_le (h.inner_inside member opened) grown.size⟩

/-- All calls that are made in the course of one are about what is in the table. -/
theorem Visits.within {levels n : Nat} {call' : Call} (visits : Visits levels call s n call' t) (h : s.Reached files)
    (within : call.Within s.scopes) : t.Reached files ∧ call'.Within t.scopes := by
  induction visits with
  | self => exact ⟨h, within⟩
  | @task levels _ _ s _ _ _ _ _ asks _ ih =>
    obtain ⟨reached, within⟩ := asks.within (s := { s with depth := s.depth + 1 })
      (remembering_stays (evaluate_stays levels)) ⟨h.arises, h.cached⟩ within
    exact ih reached within
  | @field levels _ id label s _ _ _ _ _ _ asks _ ih =>
    obtain ⟨reached, within⟩ := asks.within (s := { s with active := (id, label) :: s.active })
      (evaluate_stays levels) ⟨h.arises, h.cached⟩
    exact ih reached within

end Calls

end Evaluation

open Evaluation in
/-- The tables that a package comes to are trees in which names are looked up from the inside out. All calls in the
    course of its evaluation are about scopes and fields of these, before and after; so none fails for a field that is
    missing. -/
theorem Package.tables_wellFormed (files : List ParsedFile) :
    (∀ s, Scopes.Arises files s → s.WellFormed ∧
      (∀ id id' e e' k, e ∈ (s.node id).entries → e' ∈ (s.node id').entries → e.inner = some k → e'.inner = some k →
        id = id' ∧ e = e') ∧
      ∀ id label,
        (∀ k, s.lookup id label = some k ↔
          s.Encloses k id ∧ s.Declares k label ∧ ∀ j, s.Encloses j id → s.Declares j label → s.Encloses j k) ∧
        (s.lookup id label = none ↔ ∀ j, s.Encloses j id → ¬s.Declares j label)) ∧
    ∀ n call t, Visits evaluationLimit (.task (.body Scopes.root)) { scopes := .ofFiles files } n call t →
      Scopes.Arises files t.scopes ∧ call.Within t.scopes ∧
      Scopes.Arises files (call.value n t).2.scopes ∧
      (∀ id label e, t.scopes.entryOf? id label = some e → (call.value n t).2.scopes.entryOf? id label = some e) ∧
      ∀ e, (call.value n t).1 = .error e → e.problem ≠ .undeclared := by
  refine ⟨fun s arises => ⟨arises.wellFormed, ?_, fun id label => ⟨fun k => ?_, ?_⟩⟩, fun n call t visits => ?_⟩
  · exact fun _ _ _ _ _ member member' => arises.wellFormed.inner_unique member member'
  · exact arises.wellFormed.lookup_eq_some_iff
  · exact arises.wellFormed.lookup_eq_none_iff
  · have start : State.Reached files { scopes := .ofFiles files } := ⟨.start, fun _ impossible => by cases impossible⟩
    obtain ⟨reached, within⟩ := visits.within start (Scopes.wellFormed_ofFiles files).nonempty
    have stays := call.stays n reached within
    refine ⟨reached.arises, within, stays.reached.arises, fun id label e found => ?_, stays.declared⟩
    rw [stays.grown.entryOf? (Scopes.Declares.inside (by rw [Scopes.Declares, found]; rfl)), found]

end StackLattice
