import StackLattice.Proofs.Evaluation.Agreement
import StackLattice.Proofs.Evaluation.Wording
import StackLattice.Proofs.Value.Placed

/-!
Where evaluation reports a failure. Paths are made of labels and positions of the paths of files; when a character
that is not seen does not occur in these, it does not occur in those.
-/

namespace StackLattice

open Text (Lacks Unseen)
open Syntax (Expr Decl Ident Label ParsedFile)

/-- Whether the file of a position is without the character. -/
def Position.Clear (c : Char) (p : Position) : Prop := ∀ file ∈ p.file, Lacks c file

/-- Whether the path and the position of an error are without the character. -/
structure EvalError.Clear (c : Char) (e : EvalError) : Prop where
  path : Lacks c e.path
  position : ∀ p ∈ e.position, p.Clear c

abbrev Value.Clear (c : Char) (v : Value) : Prop := v.Placed (Position.Clear c)

structure Scope.Clear (c : Char) (scope : Scope) : Prop where
  path : Lacks c scope.path
  entries : ∀ e ∈ scope.entries, e.position.Clear c

structure Scopes.Clear (c : Char) (s : Scopes) : Prop where
  nodes : ∀ (id : ScopeId) (scope : Scope), s.nodes[id]? = some scope → scope.Clear c
  files : ∀ f ∈ s.files, Lacks c f.source.path

variable {c : Char}

namespace Scopes.Clear

variable {s : Scopes} (clear : s.Clear c)

include clear

theorem node (id : ScopeId) : (s.node id).Clear c := by
  rw [Scopes.node]
  cases found : s.nodes[id]? with
  | none => exact ⟨List.not_mem_nil, fun _ impossible => absurd impossible List.not_mem_nil⟩
  | some scope => exact clear.nodes id scope found

theorem entry {id : ScopeId} {label : String} {e : Entry} (found : s.entryOf? id label = some e) :
    e.position.Clear c := (clear.node id).entries e (List.mem_of_find?_eq_some found)

theorem position (file : Nat) (span : Span) : ∀ p ∈ s.position? file span, p.Clear c := by
  intro p is
  obtain ⟨f, found, rfl⟩ := Option.map_eq_some_iff.mp is
  rintro _ ⟨⟩
  exact clear.files f (Array.mem_of_getElem? found)

theorem push {scope : Scope} (added : scope.Clear c) : (s.push scope).2.Clear c := by
  refine ⟨fun id other found => ?_, clear.files⟩
  rw [Scopes.push, Array.getElem?_push] at found
  split at found
  · cases found
    exact added
  · exact clear.nodes id other found

theorem modify {id : ScopeId} {f : Scope → Scope} (keeps : ∀ scope, scope.Clear c → (f scope).Clear c) :
    (s.modify id f).Clear c := by
  refine ⟨fun other scope found => ?_, clear.files⟩
  rw [Scopes.modify, Array.getElem?_modify] at found
  split at found
  · obtain ⟨old, there, rfl⟩ := Option.map_eq_some_iff.mp found
    exact keeps old (clear.nodes other old there)
  · exact clear.nodes other scope found

theorem modifyEntry {id : ScopeId} {label : String} {f : Entry → Entry} (keeps : ∀ e, (f e).position = e.position) :
    (s.modifyEntry id label f).Clear c := by
  refine clear.modify fun scope old => ⟨old.path, fun e member => ?_⟩
  obtain ⟨e', inside, rfl⟩ := List.mem_map.mp member
  split
  · rw [keeps]
    exact old.entries e' inside
  · exact old.entries e' inside

theorem declare (id : ScopeId) (label : Label) (optional : Bool) (file : Nat) :
    (s.declare id label optional file).Clear c := by
  rw [Scopes.declare]
  split
  · exact clear.modifyEntry fun _ => rfl
  · refine clear.modify fun scope old => ⟨old.path, fun e member => ?_⟩
    rcases List.mem_append.mp member with inside | new
    · exact old.entries e inside
    · rw [List.mem_singleton.mp new]
      cases found : s.position? file label.span with
      | none => exact fun _ impossible => by cases impossible
      | some p => exact clear.position file label.span p found

variable (h : Unseen c)

include h

theorem innerOf (id : ScopeId) (label : String) : (s.innerOf id label).2.Clear c := by
  rw [Scopes.innerOf]
  split
  · exact clear
  · refine Scopes.Clear.modifyEntry (clear.push ?_) fun _ => rfl
    exact ⟨joinPath_lacks h (clear.node id).path label, fun _ impossible => absurd impossible List.not_mem_nil⟩

end Scopes.Clear

mutual

theorem Scopes.Clear.addDecls {s : Scopes} (clear : s.Clear c) (h : Unseen c) (id : ScopeId) (file : Nat)
    (decls : List Decl) : (s.addDecls id file decls).Clear c := by
  match decls with
  | [] =>
    rw [Scopes.addDecls]
    exact clear
  | decl :: decls =>
    rw [Scopes.addDecls]
    exact (clear.addDecl h id file decl).addDecls h id file decls

theorem Scopes.Clear.addDecl {s : Scopes} (clear : s.Clear c) (h : Unseen c) (id : ScopeId) (file : Nat)
    (decl : Decl) : (s.addDecl id file decl).Clear c := by
  match decl with
  | .field label optional _ _ value =>
    rw [Scopes.addDecl]
    exact (clear.declare id label optional file).addValue h id label.name file value
  | .embed value =>
    rw [Scopes.addDecl]
    exact clear.addEmbed h id file value

theorem Scopes.Clear.addValue {s : Scopes} (clear : s.Clear c) (h : Unseen c) (id : ScopeId) (label : String)
    (file : Nat) (e : Expr) : (s.addValue id label file e).Clear c := by
  match e with
  | .binary .unify left right =>
    rw [Scopes.addValue]
    exact (clear.addValue h id label file left).addValue h id label file right
  | .paren inner _ =>
    rw [Scopes.addValue]
    exact clear.addValue h id label file inner
  | .struct decls _ =>
    rw [Scopes.addValue]
    exact (clear.innerOf h id label).addDecls h _ file decls
  | .null _ | .bool _ _ | .int _ _ | .float _ _ | .string _ _ | .ident _ | .select _ _ | .list _ _ | .unary _ _ _
  | .binary .disjoin _ _ =>
    simp only [Scopes.addValue]
    exact clear.modifyEntry fun _ => rfl

theorem Scopes.Clear.addEmbed {s : Scopes} (clear : s.Clear c) (h : Unseen c) (id : ScopeId) (file : Nat)
    (e : Expr) : (s.addEmbed id file e).Clear c := by
  match e with
  | .binary .unify left right =>
    rw [Scopes.addEmbed]
    exact (clear.addEmbed h id file left).addEmbed h id file right
  | .paren inner _ =>
    rw [Scopes.addEmbed]
    exact clear.addEmbed h id file inner
  | .struct decls _ =>
    rw [Scopes.addEmbed]
    exact clear.addDecls h id file decls
  | .null _ | .bool _ _ | .int _ _ | .float _ _ | .string _ _ | .ident _ | .select _ _ | .list _ _ | .unary _ _ _
  | .binary .disjoin _ _ =>
    simp only [Scopes.addEmbed]
    exact clear.modify fun _ old => ⟨old.path, old.entries⟩

end

theorem Scopes.Clear.addFiles {s : Scopes} (clear : s.Clear c) (h : Unseen c) (index : Nat) (files : List ParsedFile) :
    (s.addFiles index files).Clear c := by
  induction files generalizing s index with
  | nil => exact clear
  | cons file files ih => exact ih (clear.addDecls h _ index file.tree.decls) (index + 1)

theorem Scopes.clear_ofFiles (h : Unseen c) {files : List ParsedFile} (paths : ∀ f ∈ files, Lacks c f.source.path) :
    (Scopes.ofFiles files).Clear c := by
  refine Scopes.Clear.addFiles ⟨fun id scope found => ?_, by simpa using paths⟩ h 0 files
  have : scope = ⟨none, "", [], []⟩ := by simpa using Array.mem_of_getElem? found
  subst this
  exact ⟨List.not_mem_nil, fun _ impossible => absurd impossible List.not_mem_nil⟩

namespace Evaluation

structure State.Clear (c : Char) (s : State) : Prop where
  scopes : s.scopes.Clear c
  values : ∀ entry ∈ s.cache, ∀ v, entry.2 = .ok v → v.Clear c
  errors : ∀ entry ∈ s.cache, ∀ e, entry.2 = .error e → e.Clear c

/-- What has run in a clear state leaves one, and gives something that has a property or a clear error. -/
structure Reported (c : Char) {α : Type} (Q : α → Prop) (r : Except EvalError α × State) : Prop where
  state : r.2.Clear c
  ok : ∀ a, r.1 = .ok a → Q a
  error : ∀ e, r.1 = .error e → e.Clear c

def Reports (c : Char) {α : Type} (Q : α → Prop) (m : Eval α) : Prop := ∀ s, s.Clear c → Reported c Q (m s)

namespace Reports

variable {α β : Type} {Q : α → Prop} {R : β → Prop} {m : Eval α}

theorem pure {a : α} (holds : Q a) : Reports c Q (Pure.pure a) := fun _ clear =>
  ⟨clear, fun _ same => by cases same; exact holds, fun _ impossible => by cases impossible⟩

theorem throw {e : EvalError} (clear : e.Clear c) : Reports c Q (MonadExcept.throw e : Eval α) := fun _ state =>
  ⟨state, fun _ impossible => (by cases impossible), fun _ same => by cases same; exact clear⟩

theorem bind {f : α → Eval β} (first : Reports c Q m) (next : ∀ a, Q a → Reports c R (f a)) :
    Reports c R (m >>= f) := by
  intro s clear
  obtain ⟨state, ok, error⟩ := first s clear
  rcases result : m s with ⟨r, t⟩
  rw [result] at state ok error
  cases r with
  | ok a =>
    rw [bind_of_ok result]
    exact next a (ok a rfl) t state
  | error e =>
    rw [bind_of_error result]
    exact ⟨state, fun _ impossible => (by cases impossible), fun _ same => by cases same; exact error e rfl⟩

theorem get {k : State → Eval β} (next : ∀ s, s.Clear c → Reports c R (k s)) :
    Reports c R (MonadState.get >>= k) := fun s clear => next s clear s clear

theorem fail {place : Place} (clear : Lacks c place.path) (problem : Problem) (span : Span) :
    Reports c Q (Evaluation.fail place problem span) :=
  get fun _ state => throw ⟨clear, state.scopes.position place.file span⟩

theorem mapM {γ : Type} {f : γ → Eval α} (each : ∀ x, Reports c Q (f x)) (xs : List γ) :
    Reports c (∀ a ∈ ·, Q a) (xs.mapM f) := by
  induction xs with
  | nil =>
    rw [List.mapM_nil]
    exact pure fun _ impossible => absurd impossible List.not_mem_nil
  | cons x xs ih =>
    rw [List.mapM_cons]
    exact (each x).bind fun a holds => ih.bind fun as all => pure (List.forall_mem_cons.mpr ⟨holds, all⟩)

theorem tried (h : Reports c Q m) :
    Reports c (fun r => (∀ a, r = .ok a → Q a) ∧ ∀ e, r = .error e → e.Clear c) (Evaluation.tried m) := by
  intro s clear
  obtain ⟨state, ok, error⟩ := h s clear
  rcases result : m s with ⟨r, t⟩
  rw [result] at state ok error
  rw [Evaluation.tried, result]
  cases r with
  | ok a => exact ⟨state, fun _ same => by cases same; exact ⟨ok, error⟩, fun _ impossible => by cases impossible⟩
  | error e =>
    refine ⟨state, fun r same => ?_, fun e' same => ?_⟩
    · dsimp only at same
      split at same <;> cases same
      exact ⟨ok, error⟩
    · dsimp only at same
      split at same <;> cases same
      exact error e rfl

end Reports

section Rules

variable (h : Unseen c)

include h

theorem unifyAt_reports {path : String} (clear : Lacks c path) {fallback : Option Position}
    (placed : ∀ p ∈ fallback, p.Clear c) {a b : Value} (left : a.Clear c) (right : b.Clear c) :
    Reports c (Value.Clear c) (unifyAt path fallback a b) := by
  rw [unifyAt]
  cases unified : a.unify b with
  | ok v => exact .pure (Value.placed_unify left right unified)
  | error conflict =>
    refine .throw ⟨foldl_joinPath_lacks h clear _, ?_⟩
    exact Value.placed_join (Value.placed_conflict left right unified) placed

section Fields

def TaskReports (c : Char) (task : Task → Eval Value) : Prop :=
  (∀ id, Reports c (Value.Clear c) (task (.body id))) ∧
    ∀ e place, Lacks c place.path → Reports c (Value.Clear c) (task (.expr e place))

variable {task : Task → Eval Value} (reports : TaskReports c task)

include reports

theorem conjoinAll_reports {path : String} (clear : Lacks c path) {position : Position} (placed : position.Clear c)
    (conjuncts : List Conjunct) {value : Value} (start : value.Clear c) :
    Reports c (Value.Clear c) (conjoinAll task path position conjuncts value) := by
  induction conjuncts generalizing value with
  | nil => exact .pure start
  | cons conjunct conjuncts ih =>
    refine (reports.2 _ _ clear).bind fun next inner => ?_
    refine (unifyAt_reports h clear (fun p is => by cases is; exact placed) start inner).bind fun v whole => ih whole

theorem fieldValue_reports (id : ScopeId) (label : String) :
    Reports c (Value.Clear c) (fieldValue task id label) := by
  refine .get fun s state => ?_
  have clear := joinPath_lacks h (state.scopes.node id).path label
  dsimp only
  cases found : s.scopes.entryOf? id label with
  | none => exact .throw ⟨clear, fun _ impossible => by cases impossible⟩
  | some entry =>
    have placed := state.scopes.entry found
    refine (conjoinAll_reports h reports clear placed _ Value.placed_top).bind fun v whole => ?_
    cases entry.inner with
    | none => exact .pure whole
    | some inner =>
      refine (reports.1 inner).bind fun body inside => ?_
      exact unifyAt_reports h clear (fun p is => by cases is; exact placed) whole inside

end Fields

section Expressions

structure PartsReport (c : Char) (parts : Parts) : Prop where
  task : TaskReports c parts.task
  field : ∀ id label, Reports c (Value.Clear c) (parts.field id label)

variable {parts : Parts} (reports : PartsReport c parts) {place : Place} (clear : Lacks c place.path)

include reports clear

omit h in
theorem nameValue_reports (name : Ident) : Reports c (Value.Clear c) (nameValue parts place name) := by
  refine .get fun s state => ?_
  dsimp only
  split
  · exact reports.field _ _
  · split
    · exact .fail clear _ _
    · split
      · exact .pure Value.placed_top
      · split
        · exact .pure (Value.placed_of_leaf rfl trivial)
        · exact .fail clear _ _

omit h in
theorem alternatives_reports (es : List Expr) :
    Reports c (fun r => (∀ a ∈ r.1, a.value.Clear c) ∧ ∀ e ∈ r.2, e.Clear c) (alternatives parts place es) := by
  induction es with
  | nil =>
    exact .pure ⟨fun _ impossible => absurd impossible List.not_mem_nil, fun _ impossible => by cases impossible⟩
  | cons operand es ih =>
    rw [alternatives_cons]
    refine (Reports.tried (reports.task.2 _ _ clear)).bind fun result tried => ih.bind fun others rest => ?_
    obtain ⟨found, conflict⟩ := others
    cases result with
    | ok v => exact .pure ⟨List.forall_mem_cons.mpr ⟨tried.1 v rfl, rest.1⟩, rest.2⟩
    | error e => exact .pure ⟨rest.1, fun e' is => by cases is; exact tried.2 e rfl⟩

omit h in
theorem disjunctionValue_reports (e : Expr) : Reports c (Value.Clear c) (disjunctionValue parts place e) := by
  refine (alternatives_reports reports clear _).bind fun result whole => ?_
  obtain ⟨found, conflict⟩ := result
  dsimp only
  split
  · exact .throw (whole.2 _ rfl)
  · exact .pure (Value.placed_disjoin whole.1)

omit h reports clear in
theorem placed_negate {P : Position → Prop} {v w : Value} (negated : negate v = some w) : w.Placed P := by
  unfold negate at negated
  split at negated
  · split at negated <;> cases negated
    exact Value.placed_of_leaf rfl trivial
  · cases negated
    exact Value.placed_of_leaf rfl trivial
  · split at negated <;> cases negated
    exact Value.placed_of_leaf rfl trivial
  · cases negated

omit h reports in
theorem select_reports (field : Ident) {base : Value} (inside : base.Clear c) :
    Reports c (Value.Clear c) (select place field base) := by
  rw [select_eq]
  split
  · exact .pure (everywhere_of_selected inside ‹_›)
  · exact .fail clear _ _

theorem exprValue_reports (e : Expr) : Reports c (Value.Clear c) (exprValue parts place e) := by
  have value (part : Expr) := reports.task.2 part place clear
  have leaf {v : Value} (none : v.parts = []) (here : v.PlacedHere (Position.Clear c)) :
      Reports c (Value.Clear c) (Pure.pure v) := .pure (Value.placed_of_leaf none here)
  match e with
  | .null _ | .bool _ _ | .int _ _ | .float _ _ | .string _ _ => exact leaf rfl trivial
  | .paren inner _ => exact value inner
  | .ident name => exact nameValue_reports reports clear name
  | .select base field =>
    refine .get fun s state => ?_
    split
    · exact reports.field _ _
    · exact (value base).bind fun v inside => select_reports clear field inside
  | .struct decls _ =>
    intro s state
    have inner : (s.scopes.addStruct place.scope place.path place.file decls).2.Clear c := by
      refine Scopes.Clear.addDecls (state.scopes.push ⟨clear, ?_⟩) h _ _ _
      exact fun _ impossible => absurd impossible List.not_mem_nil
    exact reports.task.1 _ { s with scopes := _ } ⟨inner, state.values, state.errors⟩
  | .list items _ => exact (Reports.mapM value items).bind fun vs all => .pure (Value.placed_list.mpr all)
  | .unary .negate operand span =>
    refine (value operand).bind fun v inside => ?_
    cases negated : negate v with
    | some result => exact .pure (placed_negate negated)
    | none => exact .fail clear _ _
  | .unary .mark operand _ => exact value operand
  | .binary .unify left right =>
    refine (value left).bind fun a first => (value right).bind fun b second => .get fun s state => ?_
    exact unifyAt_reports h clear (state.scopes.position _ _) first second
  | .binary .disjoin _ _ => exact disjunctionValue_reports reports clear _

end Expressions

section Bodies

variable {parts : Parts} (reports : PartsReport c parts)

include reports

omit h in
theorem bodyFields_reports (id : ScopeId) {entries : List Entry} (placed : ∀ e ∈ entries, e.position.Clear c) :
    Reports c (fun fields => (Value.struct fields).Clear c) (bodyFields parts id entries) := by
  induction entries with
  | nil => exact .pure (Value.placed_of_leaf rfl fun _ impossible => absurd impossible List.not_mem_nil)
  | cons entry entries ih =>
    rw [List.forall_mem_cons] at placed
    refine (reports.field id entry.label).bind fun v inside => (ih placed.2).bind fun fields rest => .pure ?_
    rw [Value.Clear, Value.placed_struct, List.forall_mem_cons]
    exact ⟨⟨fun p is => by cases is; exact placed.1, inside⟩, Value.placed_struct.mp rest⟩

theorem embedAll_reports {path : String} (clear : Lacks c path) (embeds : List Conjunct) {value : Value}
    (start : value.Clear c) : Reports c (Value.Clear c) (embedAll parts path embeds value) := by
  induction embeds generalizing value with
  | nil => exact .pure start
  | cons embed embeds ih =>
    refine (reports.task.2 _ _ clear).bind fun embedded inner => .get fun s state => ?_
    exact (unifyAt_reports h clear (state.scopes.position _ _) start inner).bind fun v whole => ih whole

theorem bodyValue_reports (id : ScopeId) : Reports c (Value.Clear c) (bodyValue parts id) := by
  refine .get fun s state => ?_
  have scope := state.scopes.node id
  refine (bodyFields_reports reports id scope.entries).bind fun fields inside => ?_
  refine embedAll_reports h reports scope.path _ ?_
  split
  · exact inside
  · exact Value.placed_top

theorem perform_reports : TaskReports c (perform parts) :=
  ⟨bodyValue_reports h reports, fun e _ clear => exprValue_reports h reports clear e⟩

end Bodies

theorem remember_reports {key : FieldKey} {compute : Eval Value} (computes : Reports c (Value.Clear c) compute) :
    Reports c (Value.Clear c) (remember key compute) := by
  intro s state
  cases found : s.cache.lookup key with
  | some r =>
    obtain ⟨before, after, split, _⟩ := List.lookup_eq_some_iff.mp found
    have member : (key, r) ∈ s.cache := by simp [split]
    rw [remember_cached found]
    exact ⟨state, state.values _ member, state.errors _ member⟩
  | none =>
    cases active : s.active.contains key with
    | true =>
      rw [remember_active found active]
      refine ⟨state, fun _ impossible => (by cases impossible), fun e same => ?_⟩
      cases same
      refine ⟨joinPath_lacks h (state.scopes.node key.1).path key.2, fun p is => ?_⟩
      obtain ⟨entry, there, rfl⟩ := Option.map_eq_some_iff.mp is
      exact state.scopes.entry there
    | false =>
      rcases result : compute { s with active := key :: s.active } with ⟨r, t⟩
      obtain ⟨after, ok, error⟩ :=
        computes { s with active := key :: s.active } ⟨state.scopes, state.values, state.errors⟩
      rw [result] at after ok error
      rw [remember_fresh found active result]
      exact ⟨⟨after.scopes, List.forall_mem_cons.mpr ⟨ok, after.values⟩,
        List.forall_mem_cons.mpr ⟨error, after.errors⟩⟩, ok, error⟩

omit h in
theorem nest_reports {task : Task} {compute : Eval Value}
    (deep : ∀ s : State, s.Clear c → (task.tooDeep s.scopes).Clear c) (computes : Reports c (Value.Clear c) compute) :
    Reports c (Value.Clear c) (nest task compute) := by
  intro s state
  rcases Nat.lt_or_ge s.depth evaluationLimit with shallow | full
  · rcases result : compute { s with depth := s.depth + 1 } with ⟨r, t⟩
    obtain ⟨after, ok, error⟩ :=
      computes { s with depth := s.depth + 1 } ⟨state.scopes, state.values, state.errors⟩
    rw [result] at after ok error
    rw [nest_open shallow result]
    exact ⟨⟨after.scopes, after.values, after.errors⟩, ok, error⟩
  · rw [nest_deep full]
    exact ⟨state, fun _ impossible => (by cases impossible), fun e same => by
      cases same
      exact deep s state⟩

theorem evaluate_reports (levels : Nat) : TaskReports c (evaluate levels) := by
  have body (s : State) (state : s.Clear c) (id : ScopeId) : ((Task.body id).tooDeep s.scopes).Clear c :=
    ⟨(state.scopes.node id).path, fun _ impossible => by cases impossible⟩
  have expr (s : State) (state : s.Clear c) (e : Expr) (place : Place) (clear : Lacks c place.path) :
      ((Task.expr e place).tooDeep s.scopes).Clear c := ⟨clear, state.scopes.position _ _⟩
  induction levels with
  | zero =>
    refine ⟨fun id => nest_reports (body · · id) (.get fun s state => .throw (body s state id)),
      fun e place clear => nest_reports (expr · · e place clear) (.get fun s state => .throw (expr s state e place clear))⟩
  | succ levels ih =>
    have parts : PartsReport c (remembering (evaluate levels)) :=
      ⟨ih, fun id label => remember_reports h (fieldValue_reports h ih id label)⟩
    have performed := perform_reports h parts
    exact ⟨fun id => nest_reports (body · · id) (performed.1 id),
      fun e place clear => nest_reports (expr · · e place clear) (performed.2 e place clear)⟩

end Rules

end Evaluation

theorem bind_eq_error {ε α β : Type} {r : Except ε α} {k : α → Except ε β} {e : ε} (h : (r >>= k) = .error e) :
    r = .error e ∨ ∃ a, k a = .error e := by
  cases r with
  | ok a => exact .inr ⟨a, h⟩
  | error e' =>
    cases h
    exact .inl rfl

namespace Value

mutual

theorem documentAt_clear (v : Value) (h : Unseen c) (inside : v.Clear c) {path : String} (clear : Lacks c path)
    {position : Option Position} (placed : ∀ p ∈ position, p.Clear c) {depth : Nat} {e : EvalError}
    (failed : v.documentAt path position depth = .error e) : e.Clear c := by
  by_cases deep : evaluationLimit < depth
  · rw [documentAt.eq_def, if_pos deep] at failed
    cases failed
    exact ⟨clear, placed⟩
  match v with
  | list items =>
    rw [documentAt, if_neg deep] at failed
    rcases bind_eq_error failed with failed | ⟨_, impossible⟩
    · exact documentItems_clear items h (placed_list.mp inside) clear placed failed
    · cases impossible
  | struct fields =>
    rw [documentAt, if_neg deep] at failed
    rcases bind_eq_error failed with failed | ⟨_, impossible⟩
    · exact documentFields_clear fields h (placed_struct.mp inside) clear placed failed
    · cases impossible
  | disjunction alternatives =>
    rw [documentAt_disjunction deep] at failed
    match found : (disjunction alternatives).resolved with
    | some w =>
      rw [found] at failed
      exact documentAt_clear w h (inside.resolved found) clear placed failed
    | none =>
      rw [found] at failed
      cases failed
      exact ⟨clear, placed⟩
  | float x =>
    rw [documentAt, if_neg deep] at failed
    split at failed <;> cases failed
    exact ⟨clear, placed⟩
  | top | kind _ =>
    simp only [documentAt, if_neg deep] at failed
    cases failed
    exact ⟨clear, placed⟩
  | null | bool _ | int _ | string _ =>
    simp only [documentAt, if_neg deep] at failed
    cases failed
termination_by sizeOf v
decreasing_by
  · simp only [list.sizeOf_spec]; omega
  · simp only [struct.sizeOf_spec]; omega
  · exact sizeOf_resolved_lt found

theorem documentItems_clear (items : List Value) (h : Unseen c) (inside : ∀ item ∈ items, item.Clear c) {index : Nat}
    {path : String} (clear : Lacks c path) {position : Option Position} (placed : ∀ p ∈ position, p.Clear c)
    {depth : Nat} {e : EvalError} (failed : documentItems items index path position depth = .error e) :
    e.Clear c := by
  match items with
  | [] =>
    rw [documentItems] at failed
    cases failed
  | item :: items =>
    rw [documentItems] at failed
    rw [List.forall_mem_cons] at inside
    rcases bind_eq_error failed with failed | ⟨_, failed⟩
    · exact documentAt_clear item h inside.1 (joinPath_lacks h clear _) placed failed
    · rcases bind_eq_error failed with failed | ⟨_, impossible⟩
      · exact documentItems_clear items h inside.2 clear placed failed
      · cases impossible
termination_by sizeOf items

theorem documentFields_clear (fields : List (Field Value)) (h : Unseen c)
    (inside : ∀ f ∈ fields, (∀ p ∈ f.position, p.Clear c) ∧ f.value.Clear c) {path : String} (clear : Lacks c path)
    {position : Option Position} (placed : ∀ p ∈ position, p.Clear c) {depth : Nat} {e : EvalError}
    (failed : documentFields fields path position depth = .error e) : e.Clear c := by
  match fields with
  | [] =>
    rw [documentFields] at failed
    cases failed
  | f :: fields =>
    rw [documentFields] at failed
    rw [List.forall_mem_cons] at inside
    split at failed
    · rcases bind_eq_error failed with failed | ⟨_, failed⟩
      · exact documentAt_clear f.value h inside.1.2 (joinPath_lacks h clear _) (placed_join inside.1.1 placed) failed
      · rcases bind_eq_error failed with failed | ⟨_, impossible⟩
        · exact documentFields_clear fields h inside.2 clear placed failed
        · cases impossible
    · exact documentFields_clear fields h inside.2 clear placed failed
termination_by sizeOf fields
decreasing_by
  all_goals have := sizeOf_value_lt f
  all_goals simp only [List.cons.sizeOf_spec]; omega

end

end Value

/-- What a package fails with names paths of labels, and files by their paths. -/
theorem Package.document_error_clear (h : Unseen c) {files : List ParsedFile}
    (paths : ∀ f ∈ files, Lacks c f.source.path) {e : EvalError} (failed : Package.document files = .error e) :
    e.Clear c := by
  have start : Evaluation.State.Clear c { scopes := .ofFiles files } :=
    ⟨Scopes.clear_ofFiles h paths, fun _ impossible => absurd impossible List.not_mem_nil,
      fun _ impossible => absurd impossible List.not_mem_nil⟩
  have value := (Evaluation.evaluate_reports h evaluationLimit).1 Scopes.root _ start
  rw [Package.document] at failed
  cases result : Package.value files with
  | error e' =>
    rw [result] at failed
    cases failed
    exact value.error _ result
  | ok v =>
    rw [result] at failed
    have root : Lacks c "" := List.not_mem_nil
    exact v.documentAt_clear h (value.ok v result) root (fun _ impossible => by cases impossible) failed

end StackLattice
