import StackLattice.Evaluation.Memo
import StackLattice.Proofs.Evaluation.Simulation

/-!
Evaluation without remembering: fields are evaluated whenever they are referred to, nothing is looked for
among the active ones, and what limits the levels is the fuel alone.
-/

namespace StackLattice.Evaluation

open Syntax (ParsedFile)

/-- Evaluates a task by the rules alone. Running out of fuel is told as running out of levels is, which
    the rules themselves never do. -/
def plain : Nat → Task → Eval Value
  | 0, task => do throw (task.tooDeep (← get).scopes)
  | n + 1, task => perform ⟨plain n, fieldValue (plain n)⟩ task

/-- The value of a package by the rules alone. -/
def plainValue (fuel : Nat) (files : List ParsedFile) : Except EvalError Value :=
  (plain fuel (.body Scopes.root) { scopes := .ofFiles files }).1

def OutOfFuel {α : Type} (r : Except EvalError α) : Prop := ∃ e, r = .error e ∧ e.kind = .tooDeep

section Meaning

variable {α β : Type} {m : Meaning α} {k : α → Meaning β}

theorem Meaning.bind_of_none (h : m = none) : (m >>= k) = (none : Option (Except EvalError β)) := by
  rw [h]
  rfl

theorem Meaning.bind_of_ok {a : α} (h : m = some (.ok a)) : (m >>= k) = k a := by
  rw [h]
  rfl

theorem Meaning.bind_of_error {e : EvalError} (h : m = some (.error e)) :
    (m >>= k) = some (Except.error (α := β) e) := by
  rw [h]
  rfl

theorem Meaning.attempt_of_none (h : m = none) :
    Closure.attempt m = (none : Option (Except EvalError (Except EvalError α))) := by
  rw [h]
  rfl

theorem Meaning.attempt_of_live {r : Except EvalError α} (h : m = some r) (live : Live r) :
    Closure.attempt m = some (Except.ok r) := by
  rw [h]
  cases r with
  | ok a => rfl
  | error e =>
    show (if e.kind = .conflict then _ else _ : Meaning (Except EvalError α)) = _
    rw [if_pos (show e.kind = .conflict from live)]
    rfl

theorem Meaning.attempt_of_dead {e : EvalError} (h : m = some (.error e)) (dead : e.kind ≠ .conflict) :
    Closure.attempt m = some (Except.error (α := Except EvalError α) e) := by
  rw [h]
  show (if e.kind = .conflict then _ else _ : Meaning (Except EvalError α)) = _
  rw [if_neg dead]
  rfl

end Meaning

/-- Agreement for one amount of fuel: running out of it on one side is running out of it on the other. -/
def AgreesAt (n : Nat) {α : Type} (r : Except EvalError α) (m : Nat → Meaning α) : Prop :=
  m n = some r ∨ m n = none ∧ OutOfFuel r

def plainSimulation (files : Array ParsedFile) (n : Nat) : Simulation where
  files := files
  Holds s envs := Described s.scopes envs ∧ s.scopes.files = files
  Agrees := AgreesAt n
  described h := h.1
  sources h := h.2
  grow h _ described extended := ⟨described, extended.files.trans h.2⟩
  ok _ := .inl rfl
  error _ _ := .inl rfl
  bindOk first second := by
    rcases first with found | ⟨_, e, impossible, _⟩
    · rw [AgreesAt, Meaning.bind_of_ok found]
      exact second
    · cases impossible
  bindError k first := by
    rcases first with found | ⟨none, e, same, deep⟩
    · exact .inl (Meaning.bind_of_error found)
    · cases same
      exact .inr ⟨Meaning.bind_of_none none, _, rfl, deep⟩
  attempt first live := by
    rcases first with found | ⟨_, e, rfl, deep⟩
    · exact .inl (Meaning.attempt_of_live found live)
    · rw [Live, deep] at live
      cases live
  attemptDead first dead := by
    rcases first with found | ⟨none, e, same, deep⟩
    · exact .inl (Meaning.attempt_of_dead found dead)
    · cases same
      exact .inr ⟨Meaning.attempt_of_none none, _, rfl, deep⟩

/-- Plain evaluation is evaluation over closures with the same fuel. -/
theorem plain_follows (files : Array ParsedFile) (n : Nat) :
    TasksFollow (plainSimulation files n) (plain n) Closure.meaning := by
  induction n with
  | zero =>
    intro s envs t t' h is
    refine ⟨.inr ⟨rfl, _, rfl, ?_⟩, rfl, fun live => ?_⟩
    · cases t <;> rfl
    · cases t <;> cases live
  | succ n ih =>
    intro s envs t t' h is
    have follow : PartsFollow (plainSimulation files n) ⟨plain n, fieldValue (plain n)⟩
        fun n => ⟨Closure.meaning n, Closure.fieldValue (Closure.meaning n)⟩ :=
      ⟨ih, fun s envs id env label h found => ih.fieldValue h found label⟩
    obtain ⟨agrees, active, holds⟩ := follow.perform s envs t t' h is
    exact ⟨agrees, active, holds⟩

end StackLattice.Evaluation
