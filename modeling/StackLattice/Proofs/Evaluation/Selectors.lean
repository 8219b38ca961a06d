import StackLattice.Proofs.Evaluation.Retraced
import StackLattice.Proofs.Syntax.Accepted

/-!
A selector that refers to a declared field. Its field is evaluated without the value around it, and comes to what is
selected from that value where there is one, as long as there are levels enough for it.
-/

namespace StackLattice

namespace Evaluation

open Syntax (Expr Ident ParsedFile)

variable {files : Array ParsedFile} {base s t u : State} {world envs : List Env} {levels n : Nat} {id : ScopeId}
  {label : String} {call call' : Call} {v : Value}

/-- Evaluation certifies fields in each state in which a call is made. -/
theorem Visits.certified (described : Described base.scopes world) (visits : Visits levels call s n call' t)
    (h : (certifying files base world levels).Holds s envs) (is : CallIs files envs call) :
    ∃ envs', envs <+: envs' ∧ (certifying files base world n).Holds t envs' := by
  induction visits generalizing envs with
  | self => exact ⟨envs, List.prefix_rfl, h⟩
  | @task levels _ _ s _ _ _ _ _ asks _ ih =>
    cases is with
    | task is =>
      have inside := certifying_at h (Nat.add_right_comm s.depth 1 levels)
      obtain ⟨envs', longer, after, is⟩ := asks.follows (certifying_parts described levels) inside is
      obtain ⟨envs'', again, holds⟩ := ih after is
      exact ⟨envs'', longer.trans again, holds⟩
  | @field levels _ _ _ _ _ _ _ _ new _ asks _ ih =>
    cases is with
    | field found =>
      have entered := certifying_enter h found new
      obtain ⟨envs', longer, after, is⟩ := asks.follows (certifies_and_retraced described _).1 entered found
      obtain ⟨envs'', again, holds⟩ := ih after is
      exact ⟨envs'', longer.trans again, holds⟩

section Reference

variable {parts : Parts} {place : Place}

theorem nameValue_of_lookup {name : Ident} (found : s.scopes.lookup place.scope name.name = some id) :
    nameValue parts place name s = parts.field id name.name s := by
  rw [nameValue, bind_of_ok (get_run s)]
  simp only [found]

theorem selectValue_of_reference {base : Expr} {field : Ident}
    (found : reference? s.scopes place.scope (.select base field) = some (id, label)) :
    exprValue parts place (.select base field) s = parts.field id label s := by
  rw [exprValue, bind_of_ok (get_run s)]
  simp only [found]

end Reference

/-- A chain of selectors that refers to a field is evaluated by evaluating the field, with fewer levels left. -/
theorem field_of_reference {scopes : Scopes} {e : Expr} {place : Place} {id : ScopeId} {label : String} {n : Nat}
    {s t : State} {v : Value} (own : s.scopes = scopes) (found : reference? scopes place.scope e = some (id, label))
    (h : evaluate n (.expr e place) s = (.ok v, t)) :
    ∃ m d u, d + m = s.depth + n ∧
      (remembering (evaluate m)).field id label { s with depth := d } = (.ok v, u) ∧ t.cache = u.cache := by
  fun_induction reference? scopes place.scope e generalizing n s t with
  | case1 name =>
    obtain ⟨n, u, rfl, result, rfl⟩ := perform_of_evaluate h
    subst own
    rw [Option.map_eq_some_iff] at found
    obtain ⟨k, found, same⟩ := found
    cases same
    rw [perform, exprValue, nameValue_of_lookup (s := { s with depth := s.depth + 1 }) found] at result
    exact ⟨n, s.depth + 1, u, Nat.add_right_comm .., result, rfl⟩
  | case2 inner _ ih =>
    obtain ⟨n, u, rfl, result, rfl⟩ := perform_of_evaluate h
    obtain ⟨m, d, w, level, evaluated, cache⟩ := ih (s := { s with depth := s.depth + 1 }) own found result
    exact ⟨m, d, w, by rw [level, Nat.add_right_comm, Nat.add_assoc], evaluated, cache⟩
  | case3 base field =>
    obtain ⟨n, u, rfl, result, rfl⟩ := perform_of_evaluate h
    subst own
    rw [perform, selectValue_of_reference (s := { s with depth := s.depth + 1 }) found] at result
    exact ⟨n, s.depth + 1, u, Nat.add_right_comm .., result, rfl⟩
  | case4 => cases found

/-- A state in which evaluation certifies what it remembers may itself be the base. -/
theorem certifying_self (h : (certifying files base world n).Holds s envs) : (certifying files s envs n).Holds s envs :=
  ⟨h.1, List.prefix_rfl,
    { grown := .refl _
      held := List.Subset.refl _
      absent := h.2.2.absent
      kept := fun _ _ => id
      certified := fun _ _ _ => .inl
      holdsFields := h.2.2.holdsFields }⟩

/-- With the value of the base, the field in it is remembered and has been certified. -/
theorem remembered_of_base (h : (certifying files s envs n).Holds s envs) {place : Place} {base : Expr} {field : Ident}
    (found : reference? s.scopes place.scope (.select base field) = some (id, label))
    (evaluates : evaluate n (.expr base place) s = (.ok v, t)) :
    ∃ w m u envs', Closure.selected field.name v = .ok w ∧ t.cache.lookup (id, label) = some (.ok w) ∧
      t.cache = u.cache ∧ envs <+: envs' ∧ (certifying files s envs m).Holds u envs' := by
  obtain ⟨key, entry, refers, declared, plain, opened, bare, rfl, inside⟩ := reference?_select found
  obtain ⟨m, d, u, level, evaluated, cache⟩ := field_of_reference rfl refers evaluates
  have described := h.1.1.described
  have holds := certifying_at h level
  have valid : key.1 < envs.length := described.length ▸ Scopes.lt_of_entryOf? declared
  obtain ⟨envs', again, after⟩ :=
    ((certifying_parts described m).field _ envs key.1 _ key.2 holds (List.getElem?_eq_getElem valid)).go_on evaluated
  have grown := after.2.2.grown
  have inner_lt := described.inner_lt declared opened
  have there : u.cache.lookup key = some (.ok v) := lookup_of_remember evaluated
  obtain ⟨w, selected, remembered⟩ := after.2.2.holdsFields key v there entry id
    (by rwa [Scopes.entryOf?, grown.old _ (Scopes.lt_of_entryOf? declared)]) plain opened
    (by rwa [grown.old _ inner_lt]) field.name (by rwa [grown.old _ inner_lt])
  exact ⟨w, m, u, envs', selected, cache ▸ remembered, cache, again, after⟩

/-- A state in which the active fields are barred instead. -/
def State.barring (s : State) : State :=
  { s with active := [], cache := s.cache ++ s.active.map (·, .error forbidden) }

theorem Remembers.valid {bound : Nat} (h : Remembers files bound s envs) {key : FieldKey} (member : key ∈ s.active) :
    key.1 < s.scopes.nodes.size := by
  obtain ⟨_, found, _⟩ := h.active key member
  exact h.described.length ▸ (List.getElem?_eq_some_iff.mp found).1

theorem lookup_barring (key : FieldKey) : s.barring.cache.lookup key =
    (s.cache.lookup key).or (if key ∈ s.active then some (.error forbidden) else none) := by
  rw [State.barring, List.lookup_append, lookup_all]

theorem ready_barring (h : Remembers files 0 s envs) : Ready s envs s.barring where
  grown := .refl _
  bounded key r there := by
    rw [lookup_barring, Option.or_eq_some_iff] at there
    rcases there with there | ⟨_, there⟩
    · exact h.bounded there
    · split at there
      · exact h.valid ‹_›
      · cases there
  kept key r there := by rw [lookup_barring, there, Option.some_or]
  known key r old free there := by
    rw [lookup_barring, if_neg free, Option.or_none] at there
    exact h.known h.described List.prefix_rfl old there (.refl r)

theorem statesLinked_barring (h : Remembers files 0 s envs) {held : List FieldKey} (subset : held ⊆ s.active) :
    StatesLinked files files s.active held (fun i i' => i = i' ∧ i < s.scopes.nodes.size) s.barring
      { s with active := held } where
  scopes := Scopes.linked_self h.described
  sources := ⟨h.sources, h.sources⟩
  cache := by
    refine ⟨s.cache, rfl, List.forall₂_same.mpr fun entry member => ⟨⟨⟨rfl, ?_⟩, rfl⟩, .refl _⟩⟩
    obtain ⟨_, _, found, _⟩ := h.cached entry member
    exact h.described.length ▸ (List.getElem?_eq_some_iff.mp found).1
  active := ⟨[], rfl, .nil⟩
  fixed key member := ⟨rfl, h.valid member⟩
  subset := subset
  depth := rfl

/-- A field comes to the same where the active fields are barred as where they are not, unless it needs one of them. -/
theorem field_barring (h : Remembers files 0 s envs) {held : List FieldKey} (subset : held ⊆ s.active)
    (inside : id < s.scopes.nodes.size) (levels : Nat) (label : String) :
    ((remembering (evaluate levels)).field id label s.barring).1 = .error forbidden ∨
      ResultsAlike ValuesAlike ((remembering (evaluate levels)).field id label s.barring).1
        ((remembering (evaluate levels)).field id label { s with active := held }).1 := by
  have paired : (sideBySide files files s.active held).Outcome ValuesAlike (fun i i' => i = i' ∧ i < s.scopes.nodes.size)
      ((remembering (evaluate levels)).field id label s.barring)
      ((remembering (evaluate levels)).field id label { s with active := held }) :=
    remember_paired ⟨rfl, inside⟩ label ((evaluate_paired levels).fieldValue ⟨rfl, inside⟩ label) le_rfl
      (statesLinked_barring h subset)
  generalize (remembering (evaluate levels)).field id label s.barring = x,
    (remembering (evaluate levels)).field id label { s with active := held } = y at paired
  cases paired with
  | both _ alike _ => exact .inr alike
  | excused h => exact .inl (congrArg Except.error h.2)
  | dead h => exact h.elim

/-- Where the active fields are barred, a certified field comes to none of them. -/
theorem field_barring_of_certified (h : Remembers files 0 s envs) (new : s.cache.lookup (id, label) = none)
    (inactive : (id, label) ∉ s.active) {w : Value} (certified : Certified s envs (id, label) (.ok w)) :
    (∃ e, ((remembering (evaluate n)).field id label s.barring).1 = .error e ∧ GivesUp e) ∨
      ∃ w', ((remembering (evaluate n)).field id label s.barring).1 = .ok w' := by
  have new : s.barring.cache.lookup (id, label) = none := by rw [lookup_barring, new, if_neg inactive, Option.none_or]
  rcases result : fieldValue (evaluate n) id label { s.barring with active := [(id, label)] } with ⟨x, t⟩
  have run : (remembering (evaluate n)).field id label s.barring = (x, t.leave (id, label) x) :=
    remember_fresh new rfl result
  rw [run]
  have ready : Ready s envs { s.barring with active := [(id, label)] } := { ready_barring h with }
  rcases certified n _ x t ready result with givesUp | ⟨alike, _⟩
  · exact .inl givesUp
  · cases alike with
    | ok _ => exact .inr ⟨_, rfl⟩

/-- Evaluated directly, a certified field comes to what it is remembered with, or the levels run out. -/
theorem field_of_certified (h : Remembers files 0 s envs) (level : s.depth + n = evaluationLimit)
    (new : s.cache.lookup (id, label) = none) (inactive : (id, label) ∉ s.active) {w : Value}
    (certified : Certified s envs (id, label) (.ok w)) {env : Env} (found : envs[id]? = some env)
    (settles : Settles (fun n => Closure.fieldMeaning n env label) (.ok w)) :
    ((remembering (evaluate n)).field id label s).1 = .ok w ∨
      ∃ e, ((remembering (evaluate n)).field id label s).1 = .error e ∧ e.kind = .tooDeep := by
  have inside : id < s.scopes.nodes.size := h.described.length ▸ (List.getElem?_eq_some_iff.mp found).1
  have agrees (held : List FieldKey) (bound : Nat) (remembers : Remembers files bound { s with active := held } envs) :
      AgreesBelow bound n ((remembering (evaluate n)).field id label { s with active := held }).1
        fun n => Closure.fieldMeaning n env label :=
    (remember_follows (evaluate_follows files n) remembers level found label).agrees
  have alike := field_barring h (List.Subset.refl _) inside n label
  have alike' := field_barring h (List.nil_subset _) inside n label
  rcases field_barring_of_certified (n := n) h new inactive certified with ⟨e, eq, givesUp⟩ | ⟨w', eq⟩
  · have other : Except.error (α := Value) e ≠ .error forbidden := by
      rintro same
      cases same
      rcases givesUp with cycle | deep
      · cases cycle
      · cases deep
    rw [eq] at alike alike'
    rcases givesUp with cycle | deep
    · -- Without any active field, none depends on itself that settles.
      have open_ : ∀ bound, Remembers files bound { s with active := [] } envs := fun bound =>
        { h with active := List.forall_mem_nil _ }
      generalize same : ((remembering (evaluate n)).field id label { s with active := [] }).1 = y at alike'
      cases alike'.resolve_left other with
      | @error _ e' fails =>
        obtain ⟨fuel, enough⟩ := settles.eventually
        have diverges := (agrees [] (fuel + 1) (open_ _)).diverges e' same
          (fails.kind.symm.trans (by rw [EvalError.kind, cycle, Problem.kind])) fuel (Nat.lt_succ_self _)
        cases diverges.symm.trans (enough fuel (Nat.le_refl _))
    · have own := alike.resolve_left other
      generalize ((remembering (evaluate n)).field id label { s with active := s.active }).1 = y at own
      cases own with
      | @error _ e' fails => exact .inr ⟨e', rfl, fails.kind.symm.trans (by rw [EvalError.kind, deep, Problem.kind])⟩
  · rw [eq] at alike
    have own := alike.resolve_left fun same => by cases same
    have agrees := agrees s.active 0 h
    generalize ((remembering (evaluate n)).field id label { s with active := s.active }).1 = y at own agrees
    cases own with
    | @ok _ found _ =>
      have same := (agrees.settles fun _ failed => by cases failed).unique settles
      exact .inl same

/-- Evaluation certifies fields from the outset, where nothing is remembered. -/
theorem certifying_ofFiles (files : List ParsedFile) : ∃ world, Described (Scopes.ofFiles files) world ∧
    CallIs files.toArray world (.task (.body Scopes.root)) ∧
    (certifying files.toArray { scopes := .ofFiles files } world evaluationLimit).Holds
      { scopes := .ofFiles files } world := by
  obtain ⟨world, described, root, sources⟩ := described_ofFiles files
  refine ⟨world, described, .task (.body root), ⟨⟨described, sources, List.forall_mem_nil _, List.forall_mem_nil _⟩, rfl⟩,
    List.prefix_rfl, ?_⟩
  exact
    { grown := .refl _
      held := List.Subset.refl _
      absent := List.forall_mem_nil _
      kept := fun _ _ => id
      certified := fun _ _ _ => .inl
      holdsFields := fun _ _ there => by cases there }

end Evaluation

namespace Package

open Syntax (Expr Ident ParsedFile exists_of_toBool)
open Evaluation

/-- A selector that refers to a field comes to the same both ways: where its base has a value, a field is selected from
    it, and that is what the field is remembered with from then on. Evaluated at once, without the base, it comes to the
    same, or the levels run out. -/
theorem selected_field_same (files : List ParsedFile) {n : Nat} {call : Call} {s : State}
    (visits : Visits evaluationLimit (.task (.body Scopes.root)) { scopes := .ofFiles files } n call s)
    {place : Place} {base : Expr} {field : Ident} {id : ScopeId} {label : String}
    (found : reference? s.scopes place.scope (.select base field) = some (id, label)) {v : Value} {t : State}
    (evaluates : evaluate n (.expr base place) s = (.ok v, t)) :
    ∃ w, select place field v t = (.ok w, t) ∧ (remembering (evaluate n)).field id label t = (.ok w, t) ∧
      (((remembering (evaluate n)).field id label s).1 = .ok w ∨
        ∃ e, ((remembering (evaluate n)).field id label s).1 = .error e ∧ e.kind = .tooDeep) := by
  obtain ⟨world, described, root, start⟩ := certifying_ofFiles files
  obtain ⟨envs, _, holds⟩ := visits.certified described start root
  obtain ⟨remembers, level⟩ := holds.1
  obtain ⟨w, m, u, envs', selected, there, cache, longer, after⟩ :=
    remembered_of_base (certifying_self holds) found evaluates
  refine ⟨w, by rw [select_eq, selected]; rfl, remember_cached there _, ?_⟩
  rw [cache] at there
  have certifies := after.2.2
  cases known : s.cache.lookup (id, label) with
  | some r =>
    cases (certifies.kept _ _ known).symm.trans there
    exact .inl (congrArg Prod.fst (remember_cached known _))
  | none =>
    have inactive : (id, label) ∉ s.active := fun member => by
      cases (certifies.absent _ (certifies.held member)).symm.trans there
    obtain ⟨_, entry, _, declared, _, opened, _⟩ := reference?_select found
    have inside := remembers.described.inner_lt declared opened
    rcases certifies.certified _ _ inside there with earlier | certified
    · cases known.symm.trans earlier
    have own := List.getElem?_eq_getElem (remembers.described.length ▸ inside)
    obtain ⟨_, env, found, settles⟩ := after.1.1.settled there
    cases (getElem?_longer longer own).symm.trans found
    exact field_of_certified remembers level known inactive certified own settles

def selection (base field : String) : Expr := .select (nameOf base) ⟨field, default⟩

/-- Where the first field of a package, `b`, is a selector, the state in which evaluation asks for what it refers to. -/
def atSelector (f : ParsedFile) : State := { scopes := .ofFiles [f], depth := 2, active := [(Scopes.root, "b")] }

theorem visits_atSelector (f : ParsedFile) {base field : String} {entry : Entry} {rest : List Entry}
    {conjunct : Conjunct} {key : FieldKey} (first : ((Scopes.ofFiles [f]).node Scopes.root).entries = entry :: rest)
    (named : entry.label = "b") (written : entry.conjuncts = [conjunct]) (is : conjunct.expr = selection base field)
    (found : reference? (Scopes.ofFiles [f]) conjunct.scope (selection base field) = some key) :
    Visits evaluationLimit (.task (.body Scopes.root)) { scopes := .ofFiles [f] } 254 (.field key.1 key.2)
      (atSelector f) := by
  let entered : State := { scopes := .ofFiles [f], depth := 1, active := [(Scopes.root, "b")] }
  have selects (path : String) : Visits 255 (.task (.expr conjunct.expr ⟨conjunct.scope, conjunct.file, path⟩)) entered
      254 (.field key.1 key.2) (atSelector f) := by
    rw [is]
    exact .task (show 1 < evaluationLimit by decide) (.reference found) .self
  have declared : (Scopes.ofFiles [f]).entryOf? Scopes.root "b" = some entry := by
    rw [Scopes.entryOf?, Scope.entryOf?, first, List.find?_cons, named, beq_self_eq_true]
  have field : Visits 255 (.field Scopes.root "b") { scopes := .ofFiles [f], depth := 1 } 254 (.field key.1 key.2)
      (atSelector f) :=
    .field rfl rfl (.conjunct declared (show _ = [] ++ [conjunct] from written) rfl) (selects _)
  rw [← named] at field
  exact .task (show 0 < evaluationLimit by decide) (.declared (show _ = [] ++ entry :: rest from first) rfl) field

/-- `b: a.x` and `a: {x: y, y: 1}` -/
def selectedFirst : ParsedFile :=
  fileOf [regular "b" (selection "a" "x"), regular "a" (bodyOf [regular "x" (nameOf "y"), regular "y" (number 1)])]

theorem selected_field_same_first :
    let s := atSelector selectedFirst
    let place : Place := ⟨Scopes.root, 0, "b"⟩
    ∃ v t w, Visits evaluationLimit (.task (.body Scopes.root)) { scopes := .ofFiles [selectedFirst] } 254
        (.field 1 "x") s ∧ reference? s.scopes place.scope (selection "a" "x") = some (1, "x") ∧
      evaluate 254 (.expr (nameOf "a") place) s = (.ok v, t) ∧ select place ⟨"x", default⟩ v t = (.ok w, t) ∧
      (remembering (evaluate 254)).field 1 "x" t = (.ok w, t) ∧
      (((remembering (evaluate 254)).field 1 "x" s).1 = .ok w ∨
        ∃ e, ((remembering (evaluate 254)).field 1 "x" s).1 = .error e ∧ e.kind = .tooDeep) := by
  intro s place
  have found : reference? s.scopes place.scope (selection "a" "x") = some (1, "x") := by decide +kernel
  have visits := visits_atSelector selectedFirst rfl rfl rfl rfl found
  obtain ⟨v, evaluates⟩ :=
    exists_of_toBool (show (evaluate 254 (.expr (nameOf "a") place) s).1.toBool = true by decide +kernel)
  have evaluates : evaluate 254 (.expr (nameOf "a") place) s = (.ok v, _) := Prod.ext evaluates rfl
  obtain ⟨w, same⟩ := selected_field_same [selectedFirst] visits found evaluates
  exact ⟨v, _, w, visits, found, evaluates, same⟩

/-- An expression with so many minus signs before it. -/
def negated : Nat → Expr → Expr
  | 0, e => e
  | n + 1, e => .unary .negate (negated n e) default

/-- `b: a.g` and `a: {f: -…-1, g: -…-f}`, with 130 minus signs each -/
def selectedDeep : ParsedFile :=
  fileOf [regular "b" (selection "a" "g"),
    regular "a" (bodyOf [regular "f" (negated 130 (number 1)), regular "g" (negated 130 (nameOf "f"))])]

/-- There may be levels enough for one field of the base after the other, but not for the second one at once. -/
theorem selected_field_too_deep :
    let s := atSelector selectedDeep
    let place : Place := ⟨Scopes.root, 0, "b"⟩
    ∃ v t e, Visits evaluationLimit (.task (.body Scopes.root)) { scopes := .ofFiles [selectedDeep] } 254
        (.field 1 "g") s ∧ reference? s.scopes place.scope (selection "a" "g") = some (1, "g") ∧
      evaluate 254 (.expr (nameOf "a") place) s = (.ok v, t) ∧
      ((remembering (evaluate 254)).field 1 "g" s).1 = .error e ∧ e.kind = .tooDeep := by
  intro s place
  have found : reference? s.scopes place.scope (selection "a" "g") = some (1, "g") := by decide +kernel
  have visits := visits_atSelector selectedDeep rfl rfl rfl rfl found
  obtain ⟨v, evaluates⟩ :=
    exists_of_toBool (show (evaluate 254 (.expr (nameOf "a") place) s).1.toBool = true by decide +kernel)
  have evaluates : evaluate 254 (.expr (nameOf "a") place) s = (.ok v, _) := Prod.ext evaluates rfl
  have deep : (((remembering (evaluate 254)).field 1 "g" s).1.mapError EvalError.kind).map (fun _ => ()) =
      .error .tooDeep := by decide +kernel
  rcases result : ((remembering (evaluate 254)).field 1 "g" s).1 with e | w
  · rw [result] at deep
    exact ⟨v, _, e, visits, found, evaluates, rfl, Except.error.inj deep⟩
  · rw [result] at deep
    cases deep

end Package

end StackLattice
