import StackLattice.Proofs.Evaluation.Calls
import StackLattice.Proofs.Value.Unify

/-!
Calls that are made stand for calls over closures: whatever a simulation holds of the state before a step, it holds in
each state in which the step makes a call, with environments for the scopes that the call is about.
-/

namespace StackLattice.Evaluation

open Syntax (Expr Decl ParsedFile)

/-- The scopes that a call is about have environments. -/
inductive CallIs (files : Array ParsedFile) (envs : List Env) : Call → Prop
  | task {t : Task} {t' : Closure.Task} (is : TaskIs files envs t t') : CallIs files envs (.task t)
  | field {id : ScopeId} {env : Env} (found : envs[id]? = some env) (label : String) : CallIs files envs (.field id label)

variable {S : Simulation} {s t : State} {envs : List Env}

/-- The simulation goes on from what comes before a call. -/
theorem Follows.go_on {α : Type} {m : Eval α} {d : Nat → Meaning α} {a : α} (h : Follows S s envs m d)
    (result : m s = (.ok a, t)) : ∃ envs', envs <+: envs' ∧ S.Holds t envs' := by
  obtain ⟨_, _, holds⟩ := h
  rw [result] at holds
  exact holds trivial

/-- What is related to a list that is split in front of a member. -/
theorem forall₂_split {α β : Type} {R : α → β → Prop} {before after : List α} {x : α} {ys : List β}
    (h : List.Forall₂ R (before ++ x :: after) ys) : (∃ zs, List.Forall₂ R before zs) ∧ ∃ z, R x z := by
  have taken := List.forall₂_take before.length h
  rw [List.take_left] at taken
  obtain ⟨z, _, related⟩ := Value.exists_left_of_mem h.flip (List.mem_append_right _ List.mem_cons_self)
  exact ⟨⟨_, taken⟩, z, related⟩

theorem Asks.follows {parts : Parts} {closures : Nat → Closure.Parts} (follow : PartsFollow S parts closures)
    {task : Task} {call : Call} (asks : Asks parts task s call t) {task' : Closure.Task} (h : S.Holds s envs)
    (is : TaskIs S.files envs task task') : ∃ envs', envs <+: envs' ∧ S.Holds t envs' ∧ CallIs S.files envs' call := by
  have here {call : Call} (is : CallIs S.files envs call) :
      ∃ envs', envs <+: envs' ∧ S.Holds s envs' ∧ CallIs S.files envs' call := ⟨envs, List.prefix_rfl, h, is⟩
  cases asks with
  | inner | unary | base | left =>
    cases is with
    | expr is => exact here (.task (.expr is))
  | @name name _ _ _ declared =>
    cases is with
    | expr is =>
      have both := described_lookup (S.described h) name.name _ is.scope
      rw [declared] at both
      generalize Env.lookup _ _ = env at both
      cases both with
      | some leads => exact here (.field leads _)
  | @reference base field _ _ _ _ found =>
    cases is with
    | expr is =>
      have both := described_reference (S.described h) is.scope (.select base field)
      rw [found] at both
      generalize Closure.reference? _ _ = key at both
      cases both with
      | some leads => exact here (.field leads.1 _)
  | @literal decls _ place _ =>
    cases is with
    | expr is =>
      have source := is.file
      rw [← S.sources h] at source
      obtain ⟨extended, envs', longer, described, literal⟩ :=
        (S.described h).addStruct is.scope source place.path decls
      exact ⟨envs', longer, S.grow h longer described extended, .task (.body literal)⟩
  | item first =>
    cases is with
    | expr is =>
      obtain ⟨envs', longer, after⟩ := (follow.items h is _).go_on first
      exact ⟨envs', longer, after, .task (.expr (is.extend longer))⟩
  | right first =>
    cases is with
    | expr is =>
      obtain ⟨envs', longer, after⟩ := (follow.expr h is _).go_on first
      exact ⟨envs', longer, after, .task (.expr (is.extend longer))⟩
  | operand are first =>
    cases is with
    | expr is =>
      obtain ⟨envs', longer, after⟩ := (follow.alternatives h is _).go_on first
      exact ⟨envs', longer, after, .task (.expr (is.extend longer))⟩
  | declared are first =>
    cases is with
    | body found =>
      have entries := ((S.described h).body _ _ found).entries
      rw [S.sources h, are] at entries
      obtain ⟨⟨_, entries⟩, _⟩ := forall₂_split entries
      obtain ⟨envs', longer, after⟩ := (follow.bodyFields entries h found).go_on first
      exact ⟨envs', longer, after, .field (getElem?_longer longer found) _⟩
  | embedded own are first =>
    cases is with
    | body found =>
      have body := (S.described h).body _ _ found
      rw [S.sources h] at body
      obtain ⟨envs', longer, after⟩ := (follow.bodyFields body.entries h found).go_on own
      have embeds := body.embeds
      rw [are] at embeds
      obtain ⟨⟨_, embeds⟩, w, is⟩ := forall₂_split embeds
      have found := getElem?_longer longer found
      rw [(S.described h).path _ _ ‹_›] at first
      obtain ⟨envs'', again, after⟩ := (follow.embedAll embeds after found _).go_on first
      exact ⟨envs'', longer.trans again, after, .task (.expr (.conjunct is (getElem?_longer again found) _))⟩

theorem AsksOf.follows {task : Task → Eval Value} {tasks : Nat → Closure.Task → Meaning Value}
    (follow : TasksFollow S task tasks) {id : ScopeId} {label : String} {asked : Task}
    (asks : AsksOf task id label s asked t) (h : S.Holds s envs) {env : Env} (found : envs[id]? = some env) :
    ∃ envs', envs <+: envs' ∧ S.Holds t envs' ∧ CallIs S.files envs' (.task asked) := by
  have entries := described_find (S.described h) found label
  cases asks with
  | conjunct declared are first =>
    rw [declared] at entries
    generalize env.find? label = d at entries
    cases entries with
    | some is =>
      have conjuncts := is.conjuncts
      rw [S.sources h, are] at conjuncts
      obtain ⟨⟨_, conjuncts⟩, w, is⟩ := forall₂_split conjuncts
      obtain ⟨envs', longer, after⟩ := (follow.conjoinAll conjuncts _ _ h found _).go_on first
      exact ⟨envs', longer, after, .task (.expr (.conjunct is (getElem?_longer longer found) _))⟩
  | body declared first opened =>
    rw [declared] at entries
    generalize env.find? label = d at entries
    cases entries with
    | @some _ d is =>
      have conjuncts := is.conjuncts
      rw [S.sources h] at conjuncts
      obtain ⟨envs', longer, after⟩ := (follow.conjoinAll conjuncts _ _ h found _).go_on first
      cases closed : d.opened with
      | false =>
        rw [is.closed closed] at opened
        cases opened
      | true =>
        obtain ⟨k, inner, leads⟩ := is.opened closed
        cases inner.symm.trans opened
        exact ⟨envs', longer, after, .task (.body (getElem?_longer longer leads))⟩

end StackLattice.Evaluation
