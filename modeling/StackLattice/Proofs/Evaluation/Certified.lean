import StackLattice.Proofs.Evaluation.Element
import StackLattice.Proofs.Evaluation.Lockstep
import StackLattice.Proofs.Evaluation.Visited

/-!
Fields that could be evaluated again. A field that was remembered since a certain state is certified: wherever it is
evaluated once more over the scopes of that state, it comes to the same without any field that was active in that state,
or evaluation gives up. Evaluation that remembers fields certifies them if it does so one level down.
-/

namespace StackLattice

open Syntax (ParsedFile)
open Evaluation

/-- The scope of the struct literals of an entry is in the table. -/
theorem Described.inner_lt {s : Scopes} {envs : List Env} (h : Described s envs) {id inner : ScopeId} {label : String}
    {e : Entry} (found : s.entryOf? id label = some e) (opened : e.inner = some inner) : inner < s.nodes.size := by
  have inside := Scopes.lt_of_entryOf? found
  rw [← h.length] at inside
  have entries := described_find h (List.getElem?_eq_getElem inside) label
  rw [found] at entries
  generalize Env.find? _ _ = d at entries
  cases entries with
  | @some _ d is =>
    cases closed : d.opened with
    | false =>
      rw [is.closed closed] at opened
      cases opened
    | true =>
      obtain ⟨k, eq, leads⟩ := is.opened closed
      cases eq.symm.trans opened
      exact h.length ▸ (List.getElem?_eq_some_iff.mp leads).1

namespace Evaluation

section Leaving

variable {t : State} {key k : FieldKey} {r : Except EvalError Value}

@[simp] theorem lookup_leave_self : (t.leave key r).cache.lookup key = some r := List.lookup_cons_self

theorem lookup_leave_of_ne (apart : k ≠ key) : (t.leave key r).cache.lookup k = t.cache.lookup k := by
  show List.lookup k ((key, r) :: t.cache) = _
  rw [List.lookup_cons, beq_false_of_ne apart]

end Leaving

section Fields

variable {levels : Nat} {s t : State} {key : FieldKey} {v : Value}

/-- The value of a field that has nothing but a body of its own without embeddings: the fields in it are remembered,
    with the values that they have in the body. -/
def HoldsFields (s : State) (key : FieldKey) (v : Value) : Prop :=
  ∀ entry inner, s.scopes.entryOf? key.1 key.2 = some entry → entry.conjuncts = [] → entry.inner = some inner →
    (s.scopes.node inner).embeds = [] → ∀ name, ((s.scopes.node inner).entryOf? name).isSome = true →
      ∃ w, Closure.selected name v = .ok w ∧ s.cache.lookup (inner, name) = some (.ok w)

theorem HoldsFields.extended {envs : List Env} (h : HoldsFields s key v) (described : Described s.scopes envs)
    (inside : key.1 < s.scopes.nodes.size) (grown : s.scopes.Extends t.scopes)
    (kept : ∀ k r, s.cache.lookup k = some r → t.cache.lookup k = some r) : HoldsFields t key v := by
  intro entry inner found plain opened bare name declared
  rw [Scopes.entryOf?, grown.old _ inside] at found
  have inner_lt := described.inner_lt found opened
  rw [grown.old _ inner_lt] at bare declared
  obtain ⟨w, selected, there⟩ := h entry inner found plain opened bare name declared
  exact ⟨w, selected, kept _ _ there⟩

theorem find?_of_bodyFields {id : ScopeId} {entries : List Entry} {fields : List (Field Value)}
    (h : bodyFields (remembering (evaluate levels)) id entries s = (.ok fields, t)) (name : String)
    (declared : (entries.find? (·.label == name)).isSome = true) :
    ∃ f, Field.find? fields name = some f ∧ t.cache.lookup (id, name) = some (.ok f.value) := by
  induction entries generalizing s fields with
  | nil => cases declared
  | cons entry entries ih =>
    obtain ⟨v, u, first, h⟩ := bind_eq_ok h
    obtain ⟨rest, w, others, h⟩ := bind_eq_ok h
    cases h
    rw [List.find?_cons] at declared
    rw [Field.find?, List.find?_cons]
    cases same : entry.label == name with
    | true =>
      have kept := (((parts_kept intact levels).bodyFields id entries trivial).of_ok others).1
      cases eq_of_beq same
      exact ⟨_, rfl, kept.cache _ _ (lookup_of_remember first)⟩
    | false =>
      rw [same] at declared
      exact ih others declared

/-- A body without embeddings is the struct of its fields. -/
theorem fields_of_body {id : ScopeId} (h : evaluate levels (.body id) s = (.ok v, t))
    (bare : (s.scopes.node id).embeds = []) :
    ∃ fields, v = .struct fields ∧ ∀ name, ((s.scopes.node id).entryOf? name).isSome = true →
      ∃ f, Field.find? fields name = some f ∧ t.cache.lookup (id, name) = some (.ok f.value) := by
  obtain ⟨n, u, rfl, result, rfl⟩ := perform_of_evaluate h
  rw [perform, bodyValue, bind_of_ok (get_run _)] at result
  obtain ⟨fields, w, found, embedded⟩ := bind_eq_ok result
  simp only [bare, List.isEmpty_nil, Bool.true_or, if_true] at embedded
  cases embedded
  exact ⟨fields, rfl, fun name declared => find?_of_bodyFields found name declared⟩

theorem holdsFields_of_fieldValue {envs : List Env} (described : Described s.scopes envs)
    (h : fieldValue (evaluate levels) key.1 key.2 s = (.ok v, t)) : HoldsFields t key v := by
  have intact : s.Intact t := (((evaluate_kept intact levels).fieldValue key.1 key.2 trivial).of_ok h).1
  intro entry inner found plain opened bare name declared
  rw [fieldValue, bind_of_ok (get_run s)] at h
  cases here : s.scopes.entryOf? key.1 key.2 with
  | none =>
    rw [here] at h
    cases h
  | some entry' =>
    rw [Scopes.entryOf?, intact.node _ (Scopes.lt_of_entryOf? here)] at found
    cases here.symm.trans found
    have inner_lt := described.inner_lt here opened
    rw [intact.node _ inner_lt] at bare declared
    simp only [here, plain, opened, conjoinAll] at h
    obtain ⟨_, _, rfl_, h⟩ := bind_eq_ok h
    cases rfl_
    obtain ⟨body, u, evaluated, h⟩ := bind_eq_ok h
    rw [unifyAt, Value.top_unify] at h
    cases h
    obtain ⟨fields, rfl, each⟩ := fields_of_body evaluated bare
    obtain ⟨f, at_, there⟩ := each name declared
    refine ⟨f.value, ?_, there⟩
    rw [Closure.selected, at_]

end Fields

/-- A failure to come to an end: a field depends on itself, or there are no levels left. -/
def GivesUp (e : EvalError) : Prop := e.problem = .cycle ∨ e.problem = .tooDeep

section Certificates

variable (base : State) (world : List Env)

/-- A result that is, but for places, what a field settles on. -/
def Known (key : FieldKey) (r : Except EvalError Value) : Prop :=
  ∃ env r', world[key.1]? = some env ∧ Live r' ∧ Settles (fun n => Closure.fieldMeaning n env key.2) r' ∧
    ResultsAlike ValuesAlike r r'

/-- A state over the scopes of another one that remembers what that one does, and of the other fields there what they
    come to. Nothing is asked of those that are active in the other one. -/
structure Ready (s : State) : Prop where
  grown : base.scopes.Extends s.scopes
  bounded : ∀ key r, s.cache.lookup key = some r → key.1 < s.scopes.nodes.size
  kept : ∀ key r, base.cache.lookup key = some r → s.cache.lookup key = some r
  known : ∀ key r, key.1 < base.scopes.nodes.size → key ∉ base.active → s.cache.lookup key = some r → Known world key r

/-- Nothing has come to be remembered of the scopes that one state has and the base has not. -/
def Untouched (s t : State) : Prop :=
  ∀ key : FieldKey, base.scopes.nodes.size ≤ key.1 → key.1 < s.scopes.nodes.size →
    t.cache.lookup key = s.cache.lookup key

/-- Evaluated again in any state, a field comes to the same, unless evaluation gives up. -/
def Certified (key : FieldKey) (r : Except EvalError Value) : Prop :=
  ∀ levels s x t, Ready base world s → fieldValue (evaluate levels) key.1 key.2 s = (x, t) →
    (∃ e, x = .error e ∧ GivesUp e) ∨ ResultsAlike ValuesAlike x r ∧ Ready base world t ∧ Untouched base s t

/-- What is remembered since the base is certified, and nothing is remembered of what is active. -/
structure Certifies (s : State) : Prop where
  grown : base.scopes.Extends s.scopes
  held : base.active ⊆ s.active
  absent : ∀ key ∈ s.active, s.cache.lookup key = none
  kept : ∀ key r, base.cache.lookup key = some r → s.cache.lookup key = some r
  certified : ∀ key r, key.1 < base.scopes.nodes.size → s.cache.lookup key = some r →
    base.cache.lookup key = some r ∨ Certified base world key r
  holdsFields : ∀ key v, s.cache.lookup key = some (.ok v) → HoldsFields s key v

end Certificates

variable {base : State} {world : List Env} {s t : State} {key : FieldKey} {r : Except EvalError Value}

theorem Ready.leave (h : Ready base world t) (new : base.cache.lookup key = none)
    (inside : key.1 < t.scopes.nodes.size) (known : key.1 < base.scopes.nodes.size → Known world key r) :
    Ready base world (t.leave key r) where
  grown := h.grown
  bounded k x there := by
    by_cases same : k = key
    · exact same ▸ inside
    · exact h.bounded k x (lookup_leave_of_ne same ▸ there)
  kept k x there := by
    have apart : k ≠ key := by
      rintro rfl
      cases new.symm.trans there
    rw [lookup_leave_of_ne apart]
    exact h.kept k x there
  known k x old free there := by
    by_cases same : k = key
    · subst same
      cases lookup_leave_self.symm.trans there
      exact known old
    · exact h.known k x old free (lookup_leave_of_ne same ▸ there)

namespace Certifies

variable (h : Certifies base world s)

include h

theorem enter (new : s.cache.lookup key = none) : Certifies base world { s with active := key :: s.active } :=
  { h with
    held := List.subset_cons_of_subset _ h.held
    absent := List.forall_mem_cons.mpr ⟨new, h.absent⟩
    holdsFields := fun k v there => h.holdsFields k v there }

theorem extended {envs : List Env} (described : Described s.scopes envs)
    (bounded : ∀ key r, s.cache.lookup key = some r → key.1 < s.scopes.nodes.size) {scopes : Scopes}
    (grown : s.scopes.Extends scopes) : Certifies base world { s with scopes } :=
  { h with
    grown := h.grown.trans grown
    holdsFields := fun k v there => (h.holdsFields k v there).extended described (bounded _ _ there) grown fun _ _ => id }

theorem leave {envs : List Env} (new : s.cache.lookup key = none) (inactive : key ∉ s.active)
    (active : t.active = key :: s.active) (described : Described t.scopes envs)
    (bounded : ∀ key r, t.cache.lookup key = some r → key.1 < t.scopes.nodes.size) (inside : key.1 < t.scopes.nodes.size)
    (after : Certifies base world t)
    (certified : key.1 < base.scopes.nodes.size → Certified base world key r)
    (holds : ∀ v, r = .ok v → HoldsFields t key v) : Certifies base world (t.leave key r) := by
  have absent : t.cache.lookup key = none := after.absent key (active ▸ List.mem_cons_self)
  have back : (t.leave key r).active = s.active := by
    show t.active.erase key = s.active
    rw [active, List.erase_cons_head]
  have still (k : FieldKey) (x : Except EvalError Value) (there : t.cache.lookup k = some x) :
      (t.leave key r).cache.lookup k = some x := by
    have apart : k ≠ key := by
      rintro rfl
      cases absent.symm.trans there
    rwa [lookup_leave_of_ne apart]
  refine ⟨after.grown, back ▸ h.held, fun k member => ?_, fun k x there => still k x (after.kept k x there),
    fun k x old there => ?_, fun k v there => ?_⟩
  · rw [back] at member
    rw [lookup_leave_of_ne (ne_of_mem_of_not_mem member inactive)]
    exact after.absent k (active ▸ List.mem_cons_of_mem _ member)
  · by_cases same : k = key
    · subst same
      cases lookup_leave_self.symm.trans there
      exact .inr (certified old)
    · exact after.certified k x old (lookup_leave_of_ne same ▸ there)
  · have kept : HoldsFields t k v ∧ k.1 < t.scopes.nodes.size := by
      by_cases same : k = key
      · subst same
        exact ⟨holds v (Option.some.inj (lookup_leave_self.symm.trans there)), inside⟩
      · rw [lookup_leave_of_ne same] at there
        exact ⟨after.holdsFields k v there, bounded _ _ there⟩
    exact kept.1.extended described kept.2 (.refl _) still

end Certifies

/-- What is remembered of a field is what it settles on. -/
theorem Remembers.settled {files : Array ParsedFile} {bound : Nat} {envs : List Env} (h : Remembers files bound s envs)
    (there : s.cache.lookup key = some r) : Live r ∧ ∃ env, envs[key.1]? = some env ∧
      Settles (fun n => Closure.fieldMeaning n env key.2) r := h.cached _ (mem_of_lookup there)

theorem Remembers.bounded {files : Array ParsedFile} {bound : Nat} {envs : List Env} (h : Remembers files bound s envs)
    (there : s.cache.lookup key = some r) : key.1 < s.scopes.nodes.size := by
  obtain ⟨_, _, found, _⟩ := h.settled there
  exact h.described.length ▸ (List.getElem?_eq_some_iff.mp found).1

/-- Evaluation that goes on from the base and certifies the fields that it remembers. -/
def certifying (files : Array ParsedFile) (base : State) (world : List Env) (levels : Nat) : Simulation where
  files := files
  Holds s envs := (Remembers files 0 s envs ∧ s.depth + levels = evaluationLimit) ∧ world <+: envs ∧
    Certifies base world s
  Agrees _ _ := True
  described h := h.1.1.described
  sources h := h.1.1.sources
  grow h longer described extended :=
    ⟨(memoSimulation files 0 0 levels).grow h.1 longer described extended, h.2.1.trans longer,
      h.2.2.extended h.1.1.described (fun _ _ => h.1.1.bounded) extended⟩
  ok _ := trivial
  error _ _ := trivial
  bindOk _ _ := trivial
  bindError _ _ := trivial
  attempt _ _ := trivial
  attemptDead _ _ := trivial

section Follow

variable {files : Array ParsedFile} {levels : Nat} {envs : List Env}

/-- Levels that have been taken and levels that are left may be exchanged. -/
theorem certifying_at {depth more : Nat} (h : (certifying files base world levels).Holds s envs)
    (level : depth + more = s.depth + levels) : (certifying files base world more).Holds { s with depth } envs :=
  ⟨⟨{ h.1.1 with }, level.trans h.1.2⟩, h.2.1, { h.2.2 with }⟩

theorem certifying_enter (h : (certifying files base world levels).Holds s envs) {env : Env}
    (found : envs[key.1]? = some env) (new : s.cache.lookup key = none) :
    (certifying files base world levels).Holds { s with active := key :: s.active } envs :=
  ⟨⟨h.1.1.enter found fun _ below => absurd below (Nat.not_lt_zero _), h.1.2⟩, h.2.1, h.2.2.enter new⟩

/-- What a field comes to outside of all others is what it settles on. -/
theorem settles_of_fieldValue {id : ScopeId} {env : Env} {label : String}
    (h : Remembers files 0 s envs) (level : s.depth + levels = evaluationLimit) (found : envs[id]? = some env)
    (result : fieldValue (evaluate levels) id label s = (r, t)) (live : Live r) :
    Settles (fun n => Closure.fieldMeaning n env label) r := by
  obtain ⟨agrees, _, _⟩ := (evaluate_follows files levels 0).fieldValue ⟨h, level⟩ found label
  rw [result] at agrees
  exact agrees.settles live.ordinary

/-- Fields are certified as they are remembered. -/
theorem parts_certify
    (tasks : TasksFollow (certifying files base world levels) (evaluate levels) Closure.meaning)
    (certified : ∀ s envs id label r t, (certifying files base world levels).Holds s envs →
      id < base.scopes.nodes.size → fieldValue (evaluate levels) id label s = (r, t) → Live r →
      Certified base world (id, label) r) :
    PartsFollow (certifying files base world levels) (remembering (evaluate levels)) Closure.partsAt := by
  refine ⟨tasks, fun s envs id env label h found => ⟨trivial, ?_, ?_⟩⟩
  · exact ((parts_kept intact levels).field id label s trivial).leads.active
  · show Live (remember (id, label) (fieldValue (evaluate levels) id label) s).1 → ∃ envs', envs <+: envs' ∧
      (certifying files base world levels).Holds (remember (id, label) (fieldValue (evaluate levels) id label) s).2 envs'
    cases there : s.cache.lookup (id, label) with
    | some r =>
      rw [remember_cached there]
      exact fun _ => ⟨envs, List.prefix_rfl, h⟩
    | none =>
      cases active : s.active.contains (id, label) with
      | true =>
        rw [remember_active there active]
        exact fun live => by cases live
      | false =>
        have entered := certifying_enter h found there
        obtain ⟨_, still, holds⟩ := tasks.fieldValue entered found label
        rcases result : fieldValue (evaluate levels) id label { s with active := (id, label) :: s.active } with ⟨r, t⟩
        rw [result] at still holds
        rw [remember_fresh there active result]
        intro live
        obtain ⟨envs', again, ⟨after, left⟩, _, certifies'⟩ := holds live
        have settles := settles_of_fieldValue entered.1.1 entered.1.2 found result live
        have inside : id < t.scopes.nodes.size :=
          after.described.length ▸ (List.getElem?_eq_some_iff.mp (getElem?_longer again found)).1
        have inactive : (id, label) ∉ s.active := by simpa using active
        refine ⟨envs', again, ⟨h.1.1.leave again after still found live settles, left⟩, h.2.1.trans again, ?_⟩
        refine h.2.2.leave there inactive still after.described (fun _ _ => after.bounded) inside certifies'
          (fun old => certified _ envs id label r t entered old result live) fun v same => ?_
        subst same
        exact holdsFields_of_fieldValue entered.1.1.described result

theorem evaluate_zero_certifies : TasksFollow (certifying files base world 0) (evaluate 0) Closure.meaning := by
  intro s envs t t' h is
  refine ⟨trivial, ?_, fun live => ?_⟩
  · rw [evaluate_zero]
  · rw [evaluate_zero] at live
    cases (kind_tooDeep t s.scopes).symm.trans live

theorem evaluate_succ_certifies
    (parts : PartsFollow (certifying files base world levels) (remembering (evaluate levels)) Closure.partsAt) :
    TasksFollow (certifying files base world (levels + 1)) (evaluate (levels + 1)) Closure.meaning := by
  intro s envs t t' h is
  have level : s.depth + (levels + 1) = evaluationLimit := h.1.2
  obtain ⟨_, active, holds⟩ := parts.perform _ envs t t' (certifying_at h (Nat.add_right_comm s.depth 1 levels)) is
  rcases result : perform (remembering (evaluate levels)) t { s with depth := s.depth + 1 } with ⟨r, u⟩
  rw [result] at active holds
  have run : evaluate (levels + 1) t s = (r, { u with depth := u.depth - 1 }) := nest_open (by omega) result
  refine ⟨trivial, ?_, fun live => ?_⟩
  · rw [run]
    exact active
  · rw [run] at live ⊢
    obtain ⟨envs', again, after⟩ := holds live
    have left : u.depth + levels = evaluationLimit := after.1.2
    exact ⟨envs', again, certifying_at after (by omega)⟩

end Follow

end Evaluation

end StackLattice
