import StackLattice.Proofs.Evaluation.Agreement
import StackLattice.Proofs.Evaluation.RedrawnScopes
import StackLattice.Proofs.Syntax.Uncommented

/-!
Evaluation of files with their comments and without. Scopes are gathered and rules applied in the same way, so that
values and errors are the same, and the places they name.
-/

namespace StackLattice

open Syntax (Expr Decl Ident Label ParsedFile)

def Conjunct.uncommented (c : Conjunct) : Conjunct := { c with expr := c.expr.uncommented }

def Entry.uncommented (e : Entry) : Entry := { e with conjuncts := e.conjuncts.map Conjunct.uncommented }

def Scope.uncommented (s : Scope) : Scope :=
  { s with entries := s.entries.map Entry.uncommented, embeds := s.embeds.map Conjunct.uncommented }

/-- Everything at its place, in files without comments. -/
def Redrawing.uncommented : Redrawing where
  move := id
  file := id
  files := Array.map ParsedFile.uncommented
  position := id
  place sources i span := by
    rw [Array.getElem?_map, Option.map_map]
    rfl

theorem Conjunct.redrawn_uncommented : Conjunct.redrawn .uncommented = Conjunct.uncommented := by
  funext c
  rw [uncommented, ← c.expr.redrawn_uncommented]
  rfl

theorem Entry.redrawn_uncommented : Entry.redrawn .uncommented = Entry.uncommented := by
  funext e
  rw [redrawn, uncommented, Conjunct.redrawn_uncommented]
  rfl

theorem Scope.redrawn_uncommented : Scope.redrawn .uncommented = Scope.uncommented := by
  funext s
  rw [redrawn, uncommented, Entry.redrawn_uncommented, Conjunct.redrawn_uncommented]

namespace Scopes

def uncommented (s : Scopes) : Scopes := ⟨s.nodes.map Scope.uncommented, s.files.map ParsedFile.uncommented⟩

variable (s : Scopes) (id : ScopeId) (file : Nat)

theorem redrawn_uncommented : s.redrawn .uncommented = s.uncommented := by
  rw [redrawn, uncommented, Scope.redrawn_uncommented]
  rfl

theorem node_uncommented : s.uncommented.node id = (s.node id).uncommented := by
  rw [← redrawn_uncommented, node_redrawn, Scope.redrawn_uncommented]

theorem entryOf?_uncommented (label : String) :
    s.uncommented.entryOf? id label = (s.entryOf? id label).map Entry.uncommented := by
  rw [← redrawn_uncommented, entryOf?_redrawn, Entry.redrawn_uncommented]

theorem lookup_uncommented (label : String) : s.uncommented.lookup id label = s.lookup id label := by
  rw [← redrawn_uncommented, lookup_redrawn]

theorem position?_uncommented (span : Span) : s.uncommented.position? file span = s.position? file span := by
  rw [position?, position?, uncommented, Array.getElem?_map, Option.map_map]
  rfl

theorem import?_uncommented (name : String) : s.uncommented.import? file name = s.import? file name := by
  rw [import?, import?, uncommented, Array.getElem?_map]
  cases s.files[file]? <;> rfl

theorem addDecls_uncommented (decls : List Decl) :
    (s.addDecls id file decls).uncommented = s.uncommented.addDecls id file (Decl.uncommentedAll decls) := by
  rw [← redrawn_uncommented, ← redrawn_uncommented, ← Decl.redrawnAll_uncommented]
  exact s.addDecls_redrawn id file decls

theorem addStruct_uncommented (parent : ScopeId) (path : String) (decls : List Decl) :
    s.uncommented.addStruct parent path file (Decl.uncommentedAll decls) =
      ((s.addStruct parent path file decls).1, (s.addStruct parent path file decls).2.uncommented) := by
  rw [← redrawn_uncommented, ← redrawn_uncommented, ← Decl.redrawnAll_uncommented]
  exact s.addStruct_redrawn file parent path decls

theorem addFiles_uncommented (index : Nat) (files : List ParsedFile) :
    (s.addFiles index files).uncommented = s.uncommented.addFiles index (files.map ParsedFile.uncommented) := by
  induction files generalizing s index with
  | nil => rw [addFiles, List.map_nil, addFiles]
  | cons f files ih =>
    rw [addFiles, ih, addDecls_uncommented, List.map_cons, addFiles, Decl.uncommentedAll_eq_map]
    rfl

theorem ofFiles_uncommented (files : List ParsedFile) :
    (ofFiles files).uncommented = ofFiles (files.map ParsedFile.uncommented) := by
  rw [ofFiles, ofFiles, addFiles_uncommented, uncommented, List.map_toArray, List.map_toArray]
  rfl

end Scopes

namespace Evaluation

theorem operands_uncommented (e : Expr) : operands e.uncommented = (operands e).map Expr.uncommented := by
  rw [← Expr.redrawn_uncommented, operands_redrawn, funext Expr.redrawn_uncommented]

theorem unmarked_uncommented (e : Expr) :
    Closure.unmarked e.uncommented = ((Closure.unmarked e).1, (Closure.unmarked e).2.uncommented) := by
  rw [← Expr.redrawn_uncommented, ← Expr.redrawn_uncommented, unmarked_redrawn]

theorem reference?_uncommented (s : Scopes) (scope : ScopeId) (e : Expr) :
    reference? s.uncommented scope e.uncommented = reference? s scope e := by
  rw [← Scopes.redrawn_uncommented, ← Expr.redrawn_uncommented]
  exact reference?_redrawn s scope e

def State.uncommented (s : State) : State := { s with scopes := s.scopes.uncommented }

def Task.uncommented : Task → Task
  | body id => body id
  | expr e place => expr e.uncommented place

/-- Without comments an evaluation comes to what another one does with them. -/
def Regardless {α : Type} (m m' : Eval α) : Prop := ∀ s, m' s.uncommented = ((m s).1, (m s).2.uncommented)

namespace Regardless

variable {α β : Type} {m m' : Eval α}

theorem pure (a : α) : Regardless (Pure.pure a) (Pure.pure a) := fun _ => rfl

theorem throw (e : EvalError) : Regardless (throw e : Eval α) (MonadExcept.throw e) := fun _ => rfl

theorem get {m m' : State → Eval α} (h : ∀ s, m' s.uncommented s.uncommented = ((m s s).1, (m s s).2.uncommented)) :
    Regardless (MonadState.get >>= m) (MonadState.get >>= m') := h

theorem bind {f f' : α → Eval β} (h : Regardless m m') (next : ∀ a, Regardless (f a) (f' a)) :
    Regardless (m >>= f) (m' >>= f') := by
  intro s
  have first := h s
  rcases result : m s with ⟨r, t⟩
  rw [result] at first
  cases r with
  | error e =>
    rw [bind_of_error result, bind_of_error first]
  | ok a =>
    rw [bind_of_ok result, bind_of_ok first]
    exact next a t

theorem tried (h : Regardless m m') : Regardless (tried m) (Evaluation.tried m') := by
  intro s
  have first := h s
  rcases result : m s with ⟨r, t⟩
  rw [result] at first
  rw [Evaluation.tried, Evaluation.tried, result, first]
  cases r <;> rfl

end Regardless

theorem fail_regardless {α : Type} (place : Place) (problem : Problem) (span : Span) :
    Regardless (fail place problem span : Eval α) (fail place problem span) := by
  refine .get fun s => ?_
  rw [State.uncommented, Scopes.position?_uncommented]
  rfl

theorem unifyAt_regardless (path : String) (fallback : Option Position) (a b : Value) :
    Regardless (unifyAt path fallback a b) (unifyAt path fallback a b) := by
  rw [unifyAt]
  cases a.unify b with
  | ok value => exact .pure value
  | error c => exact .throw _

theorem select_regardless (place : Place) (field : Ident) (base : Value) :
    Regardless (select place field base) (select place field base) := by
  rw [select_eq]
  cases Closure.selected field.name base with
  | ok value => exact .pure value
  | error problem => exact fail_regardless place problem _

section Fields

variable {task task' : Task → Eval Value}

def TasksRegardless (task task' : Task → Eval Value) : Prop := ∀ t, Regardless (task t) (task' t.uncommented)

theorem TasksRegardless.conjoinAll (same : TasksRegardless task task') (path : String) (position : Position)
    (cs : List Conjunct) (value : Value) :
    Regardless (conjoinAll task path position cs value)
      (Evaluation.conjoinAll task' path position (cs.map Conjunct.uncommented) value) := by
  induction cs generalizing value with
  | nil => exact .pure value
  | cons c cs ih =>
    rw [Evaluation.conjoinAll, List.map_cons, Evaluation.conjoinAll]
    refine (same (.expr c.expr ⟨c.scope, c.file, path⟩)).bind fun next => ?_
    exact (unifyAt_regardless path _ value next).bind fun met => ih met

theorem TasksRegardless.fieldValue (same : TasksRegardless task task') (id : ScopeId) (label : String) :
    Regardless (fieldValue task id label) (Evaluation.fieldValue task' id label) := by
  refine .get fun s => ?_
  simp only [State.uncommented, Scopes.node_uncommented, Scopes.entryOf?_uncommented]
  cases s.scopes.entryOf? id label with
  | none => rfl
  | some entry =>
    refine Regardless.bind (same.conjoinAll _ _ entry.conjuncts .top) (fun value => ?_) s
    have inner : entry.uncommented.inner = entry.inner := rfl
    rw [inner]
    cases entry.inner with
    | none => exact .pure value
    | some inner => exact (same (.body inner)).bind fun body => unifyAt_regardless _ _ value body

end Fields

section Expressions

variable {parts parts' : Parts}

structure PartsRegardless (parts parts' : Parts) : Prop where
  task : TasksRegardless parts.task parts'.task
  field : ∀ id label, Regardless (parts.field id label) (parts'.field id label)

namespace PartsRegardless

variable (same : PartsRegardless parts parts') (place : Place)

include same

theorem expr (e : Expr) : Regardless (parts.task (.expr e place)) (parts'.task (.expr e.uncommented place)) :=
  same.task (.expr e place)

theorem nameValue (name : Ident) : Regardless (nameValue parts place name) (Evaluation.nameValue parts' place name) := by
  refine .get fun s => ?_
  simp only [State.uncommented, Scopes.lookup_uncommented, Scopes.import?_uncommented]
  cases s.scopes.lookup place.scope name.name with
  | some id => exact same.field id name.name s
  | none =>
    cases s.scopes.import? place.file name.name with
    | some i => exact fail_regardless place (.imported i.path) name.span s
    | none =>
      by_cases any : name.name = "_"
      · simp only [any, if_true]
        rfl
      · simp only [any, if_false]
        cases Kind.ofName? name.name with
        | some k => rfl
        | none => exact fail_regardless place (.unknownName name.name) name.span s

theorem alternatives (es : List Expr) :
    Regardless (alternatives parts place es) (Evaluation.alternatives parts' place (es.map Expr.uncommented)) := by
  induction es with
  | nil => exact .pure _
  | cons operand es ih =>
    rw [alternatives_cons, List.map_cons, alternatives_cons, unmarked_uncommented]
    refine (same.expr place _).tried.bind fun result => ih.bind fun ⟨others, conflict⟩ => ?_
    cases result <;> exact .pure _

theorem disjunctionValue (e : Expr) :
    Regardless (disjunctionValue parts place e) (Evaluation.disjunctionValue parts' place e.uncommented) := by
  rw [Evaluation.disjunctionValue, Evaluation.disjunctionValue, operands_uncommented]
  refine (same.alternatives place (operands e)).bind fun ⟨found, conflict⟩ => ?_
  dsimp only
  split
  · exact .throw _
  · exact .pure _

theorem items (es : List Expr) : Regardless (es.mapM fun e => parts.task (.expr e place))
    ((es.map Expr.uncommented).mapM fun e => parts'.task (.expr e place)) := by
  induction es with
  | nil => exact .pure []
  | cons e es ih =>
    rw [List.map_cons, List.mapM_cons, List.mapM_cons]
    exact (same.expr place e).bind fun value => ih.bind fun values => .pure (value :: values)

theorem exprValue (e : Expr) :
    Regardless (exprValue parts place e) (Evaluation.exprValue parts' place e.uncommented) := by
  match e with
  | .null _ | .bool _ _ | .int _ _ | .float _ _ | .string _ _ => exact .pure _
  | .paren inner _ => exact same.expr place inner
  | .ident name => exact same.nameValue place name
  | .select base field =>
    refine .get fun s => ?_
    have found : reference? s.uncommented.scopes place.scope (Expr.select base field).uncommented =
        reference? s.scopes place.scope (.select base field) := reference?_uncommented s.scopes place.scope _
    rw [found]
    cases reference? s.scopes place.scope (.select base field) with
    | some key => exact same.field key.1 key.2 s
    | none => exact Regardless.bind (same.expr place base) (fun value => select_regardless place field value) s
  | .struct decls _ =>
    intro s
    show parts'.task (.body (s.scopes.uncommented.addStruct place.scope place.path place.file (Decl.uncommentedAll decls)).1)
      { s.uncommented with
        scopes := (s.scopes.uncommented.addStruct place.scope place.path place.file (Decl.uncommentedAll decls)).2 } = _
    rw [Scopes.addStruct_uncommented]
    exact same.task (.body _) { s with scopes := (s.scopes.addStruct place.scope place.path place.file decls).2 }
  | .list items _ =>
    rw [Expr.uncommented, Expr.uncommentedAll_eq_map]
    exact (same.items place items).bind fun values => .pure _
  | .unary .negate operand span =>
    refine (same.expr place operand).bind fun value => ?_
    cases negate value with
    | some result => exact .pure result
    | none => exact fail_regardless place _ span
  | .unary .mark operand _ => exact same.expr place operand
  | .binary .unify left right =>
    refine (same.expr place left).bind fun a => (same.expr place right).bind fun b => .get fun s => ?_
    have here : s.uncommented.scopes.position? place.file (Expr.binary .unify left right).uncommented.span =
        s.scopes.position? place.file (Expr.binary .unify left right).span := by
      rw [Expr.span_uncommented]
      exact Scopes.position?_uncommented ..
    rw [here]
    exact unifyAt_regardless place.path _ a b s
  | .binary .disjoin left right => exact same.disjunctionValue place (.binary .disjoin left right)

theorem bodyFields (id : ScopeId) (entries : List Entry) :
    Regardless (bodyFields parts id entries) (Evaluation.bodyFields parts' id (entries.map Entry.uncommented)) := by
  induction entries with
  | nil => exact .pure []
  | cons entry entries ih =>
    rw [Evaluation.bodyFields, List.map_cons, Evaluation.bodyFields]
    exact (same.field id entry.label).bind fun value => ih.bind fun fields => .pure _

theorem embedAll (path : String) (cs : List Conjunct) (value : Value) :
    Regardless (embedAll parts path cs value) (Evaluation.embedAll parts' path (cs.map Conjunct.uncommented) value) := by
  induction cs generalizing value with
  | nil => exact .pure value
  | cons c cs ih =>
    rw [Evaluation.embedAll, List.map_cons, Evaluation.embedAll]
    refine (same.expr ⟨c.scope, c.file, path⟩ c.expr).bind fun embedded => .get fun s => ?_
    have here : s.uncommented.scopes.position? c.uncommented.file c.uncommented.expr.span =
        s.scopes.position? c.file c.expr.span := by
      rw [Conjunct.uncommented, Expr.span_uncommented]
      exact Scopes.position?_uncommented ..
    rw [here]
    exact Regardless.bind (unifyAt_regardless path _ value embedded) (fun met => ih met) s

theorem bodyValue (id : ScopeId) : Regardless (bodyValue parts id) (Evaluation.bodyValue parts' id) := by
  refine .get fun s => ?_
  have node : s.uncommented.scopes.node id = (s.scopes.node id).uncommented := Scopes.node_uncommented ..
  rw [node]
  refine Regardless.bind (same.bodyFields id (s.scopes.node id).entries) (fun fields => ?_) s
  have embeds : (s.scopes.node id).uncommented.embeds.isEmpty = (s.scopes.node id).embeds.isEmpty := List.isEmpty_map
  rw [embeds]
  exact same.embedAll _ _ _

theorem perform : TasksRegardless (perform parts) (Evaluation.perform parts') := by
  intro t
  cases t with
  | body id => exact same.bodyValue id
  | expr e place => exact same.exprValue place e

end PartsRegardless

end Expressions

theorem remember_regardless (key : FieldKey) {compute compute' : Eval Value} (same : Regardless compute compute') :
    Regardless (remember key compute) (remember key compute') := by
  intro s
  cases found : s.cache.lookup key with
  | some r => rw [remember_cached found, remember_cached (s := s.uncommented) found]
  | none =>
    cases active : s.active.contains key with
    | true =>
      have path : (s.uncommented.scopes.node key.1).path = (s.scopes.node key.1).path := by
        rw [State.uncommented, Scopes.node_uncommented]
        rfl
      have position : (s.uncommented.scopes.entryOf? key.1 key.2).map (·.position) =
          (s.scopes.entryOf? key.1 key.2).map (·.position) := by
        rw [State.uncommented, Scopes.entryOf?_uncommented, Option.map_map]
        rfl
      rw [remember_active found active, remember_active (s := s.uncommented) found active, path, position]
    | false =>
      have inside := same { s with active := key :: s.active }
      rcases result : compute { s with active := key :: s.active } with ⟨r, t⟩
      rw [result] at inside
      rw [remember_fresh found active result, remember_fresh (s := s.uncommented) found active inside]
      rfl

theorem State.tooDeep_uncommented (s : State) (t : Task) :
    t.uncommented.tooDeep s.uncommented.scopes = t.tooDeep s.scopes := by
  cases t with
  | body id =>
    have node : s.uncommented.scopes.node id = (s.scopes.node id).uncommented := Scopes.node_uncommented ..
    rw [Task.uncommented, Task.tooDeep, Task.tooDeep, node]
    rfl
  | expr e place =>
    rw [Task.uncommented, Task.tooDeep, Task.tooDeep, Expr.span_uncommented]
    exact congrArg _ (Scopes.position?_uncommented ..)

theorem nest_regardless (t : Task) {compute compute' : Eval Value} (same : Regardless compute compute') :
    Regardless (nest t compute) (nest t.uncommented compute') := by
  intro s
  rcases Nat.lt_or_ge s.depth evaluationLimit with shallow | deep
  · have inside := same { s with depth := s.depth + 1 }
    rcases result : compute { s with depth := s.depth + 1 } with ⟨r, u⟩
    rw [result] at inside
    rw [nest_open shallow result, nest_open (s := s.uncommented) shallow inside]
    rfl
  · rw [nest_deep deep, nest_deep (s := s.uncommented) deep, s.tooDeep_uncommented t]

/-- Evaluation to any depth is the same without comments. -/
theorem evaluate_regardless (levels : Nat) : TasksRegardless (evaluate levels) (evaluate levels) := by
  induction levels with
  | zero =>
    intro t s
    rw [evaluate_zero, evaluate_zero, s.tooDeep_uncommented t]
  | succ levels ih =>
    have parts : PartsRegardless (remembering (evaluate levels)) (remembering (evaluate levels)) :=
      ⟨ih, fun id label => remember_regardless (id, label) (ih.fieldValue id label)⟩
    exact fun t => nest_regardless t (parts.perform t)

end Evaluation

namespace Package

open Evaluation
open Syntax (File Revision Scanner SyntaxError)

theorem value_uncommented (files : List ParsedFile) : value (files.map ParsedFile.uncommented) = value files := by
  have same := evaluate_regardless evaluationLimit (.body Scopes.root) { scopes := .ofFiles files }
  rw [Task.uncommented, State.uncommented, Scopes.ofFiles_uncommented] at same
  exact (congrArg Prod.fst same :)

/-- The names that files give their package, its value and its document. -/
def results (files : List ParsedFile) : List (Option String) × Except EvalError Value × Except EvalError Document :=
  (files.map (·.tree.packageName), value files, document files)

theorem results_uncommented (files : List ParsedFile) : results (files.map ParsedFile.uncommented) = results files := by
  rw [results, results, document, document, value_uncommented, List.map_map]
  rfl

/-- The files of texts, each with the path that it was read from, or the error in the first faulty one. -/
def read (revision : Revision) (keepComments : Bool) (texts : List (String × String)) :
    Except SyntaxError (List ParsedFile) :=
  texts.mapM fun text => ParsedFile.read text.1 text.2 revision keepComments

theorem map_mapM {ε α β γ : Type} (g : α → Except ε β) (h : β → γ) (l : List α) :
    (l.mapM g).map (List.map h) = l.mapM fun a => (g a).map h := by
  induction l with
  | nil => rfl
  | cons a l ih =>
    rw [List.mapM_cons, List.mapM_cons, ← ih]
    cases g a with
    | error e => rfl
    | ok b => cases l.mapM g <;> rfl

theorem read_uncommented (revision : Revision) (keep keep' : Bool) (texts : List (String × String)) :
    (read revision keep texts).map (List.map ParsedFile.uncommented) =
      (read revision keep' texts).map (List.map ParsedFile.uncommented) := by
  rw [read, read, map_mapM, map_mapM]
  exact congrArg (List.mapM · texts) (funext fun text => ParsedFile.read_uncommented ..)

/-- Whether comments are kept makes no difference: a text is read to the same tree but for comments, or to the same error;
    its package clause is found to be the same; and texts come to the same values, documents and errors as a package. -/
theorem same_without_comments (revision : Revision) :
    (∀ source, (File.ofSource source revision true).map File.uncommented =
      (File.ofSource source revision false).map File.uncommented) ∧
    (∀ text, (Scanner.ofString text true).packageName (text.length + 1) = Syntax.packageName text) ∧
    ∀ texts, (read revision true texts).map results = (read revision false texts).map results := by
  refine ⟨fun source => File.ofSource_uncommented source revision true false, fun text => ?_, fun texts => ?_⟩
  · have abreast : (Scanner.ofString text false).Abreast (Scanner.ofString text true) := ⟨rfl, rfl⟩
    rw [Scanner.packageName_ofString, abreast.packageName]
  · have uncommented (read : Except SyntaxError (List ParsedFile)) :
        read.map results = (read.map (List.map ParsedFile.uncommented)).map results := by
      cases read with
      | error e => rfl
      | ok files => exact congrArg Except.ok (results_uncommented files).symm
    rw [uncommented, read_uncommented revision true false, ← uncommented]

end Package

end StackLattice
