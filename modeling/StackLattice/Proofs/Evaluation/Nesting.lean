import StackLattice.Proofs.Evaluation.Calls
import StackLattice.Proofs.Evaluation.FileOrder
import StackLattice.Proofs.Evaluation.Intact
import StackLattice.Proofs.Syntax.Accepted
import StackLattice.Proofs.Value.Nesting

/-!
How deep the values of an evaluation are nested. The limit bounds the levels that a task adds to what is remembered, but a
field may add as many to those before it. So values are bounded only along with the number of fields.
-/

namespace StackLattice

namespace Evaluation

/-- The levels that a value may have in a state: those that are left, and the full number for each remembered field. -/
def State.bound (s : State) : Nat := evaluationLimit - s.depth + evaluationLimit * s.cache.length

/-- Whether the remembered values have no more levels than the fields account for. -/
def State.Bounded (s : State) : Prop :=
  ∀ key v, (key, .ok v) ∈ s.cache → v.nesting ≤ evaluationLimit * s.cache.length

variable {s t : State}

theorem State.Intact.bound_le (h : s.Intact t) : s.bound ≤ t.bound := by
  have := Nat.mul_le_mul_left evaluationLimit h.entries.length_le
  rw [State.bound, State.bound, h.depth]
  omega

theorem State.bound_le_leave (t : State) (key : FieldKey) (r : Except EvalError Value) :
    t.bound ≤ (t.leave key r).bound ∧ t.bound ≤ evaluationLimit * (t.leave key r).cache.length := by
  simp only [State.bound, State.leave, List.length_cons, Nat.mul_succ]
  omega

theorem State.Bounded.leave (h : t.Bounded) {key : FieldKey} {r : Except EvalError Value}
    (part : ∀ v, r = .ok v → v.nesting ≤ t.bound) : (t.leave key r).Bounded := by
  have grown := (t.bound_le_leave key r).2
  intro other v member
  rcases List.mem_cons.mp member with new | old
  · cases new
    exact Nat.le_trans (part v rfl) grown
  · apply Nat.le_trans (h other v old)
    exact Nat.mul_le_mul_left _ (Nat.le_succ _)

theorem State.bound_ascend (shallow : s.depth < evaluationLimit) (inside : State.Intact { s with depth := s.depth + 1 } t) :
    t.bound + 1 = State.bound { t with depth := t.depth - 1 } := by
  have := inside.depth
  simp only [State.bound] at this ⊢
  omega

def bounded : Discipline where
  Holds := State.Bounded
  Leads := State.Intact
  Part s v := v.nesting ≤ s.bound
  Whole s v := v.nesting ≤ s.bound + 1
  refl := .refl
  trans := .trans
  part_mono leads part := Nat.le_trans part leads.bound_le
  whole_mono leads whole := Nat.le_trans whole (Nat.succ_le_succ leads.bound_le)
  whole_of_part := Nat.le_succ_of_le
  leaf := Value.nesting_le_leaf
  struct := Value.nesting_le_struct.mpr
  list := Value.nesting_le_list.mpr
  disjoin _ each := Nat.le_succ_of_le (Value.nesting_le_disjoin each)
  unify_part := Value.nesting_unify
  unify_whole := Value.nesting_unify
  selected part found := (everywhere_of_selected (Value.everywhere_nesting_le part) found).here
  gather place decls h := ⟨.of_appended (Scopes.appended_addStruct _ _ _ _ decls), h⟩
  cached h found := Nat.le_trans (h _ _ (mem_of_lookup found)) (Nat.le_add_left _ _)
  enter _ h := h
  leave _ new inside h part :=
    ⟨.leave new inside _, h.leave part, fun _ small => Nat.le_trans small (State.bound_le_leave _ _ _).1⟩
  descend h _ := h
  ascend _ shallow inside h :=
    ⟨{ inside with depth := by rw [inside.depth]; rfl }, h, fun _ whole => by rwa [← State.bound_ascend shallow inside]⟩

end Evaluation

namespace Package

open Syntax (Expr ParsedFile exists_of_any exists_of_toBool)
open Evaluation

/-- The value of a package has no more levels than the limit and as many again for each field that is remembered, and
    neither has what is unified on the way; unification adds none. -/
theorem nesting_le (files : List ParsedFile) :
    let start : State := { scopes := .ofFiles files }
    let finish : State := (evaluate evaluationLimit (.body Scopes.root) start).2
    (∀ v, value files = .ok v → v.nesting ≤ evaluationLimit * (finish.cache.length + 1)) ∧
      (∀ n call s a b t, Visits evaluationLimit (.task (.body Scopes.root)) start n call s → Meets n call s a b t →
        a.nesting ≤ t.bound + 1 ∧ b.nesting ≤ t.bound + 1) ∧
      ∀ a b v : Value, a.unify b = .ok v → v.nesting ≤ max a.nesting b.nesting := by
  intro start finish
  have empty : start.Bounded := fun _ _ impossible => absurd impossible List.not_mem_nil
  have ran := evaluate_kept bounded evaluationLimit (.body Scopes.root) start empty
  refine ⟨fun v found => ?_, fun n call s a b t visits meets => meets.wholes (visits.holds (D := bounded) empty),
    fun a b v => Value.nesting_unify (Nat.le_max_left _ _) (Nat.le_max_right _ _)⟩
  apply Nat.le_trans (ran.good v found)
  show finish.bound ≤ evaluationLimit * (finish.cache.length + 1)
  rw [State.bound, Nat.mul_succ]
  omega

def brackets : Nat → Expr → Expr
  | 0, e => e
  | n + 1, e => .list [brackets n e] default

/-- `[1]`, embedded -/
def embeddedList : ParsedFile := fileOf [.embed (brackets 1 (.int 1 default))]

theorem nesting_le_embedded_list :
    let start : State := { scopes := .ofFiles [embeddedList] }
    let inside : State := { start with depth := 1 }
    let found := Value.list [.int 1]
    ∃ v w, value [embeddedList] = .ok v ∧
      v.nesting ≤ evaluationLimit * ((evaluate evaluationLimit (.body Scopes.root) start).2.cache.length + 1) ∧
      Meets evaluationLimit (.task (.body Scopes.root)) start .top found inside ∧ found.nesting ≤ inside.bound + 1 ∧
      Value.top.unify found = .ok w ∧ w.nesting ≤ max Value.top.nesting found.nesting := by
  intro start inside found
  obtain ⟨whole, united, adds⟩ := nesting_le [embeddedList]
  obtain ⟨v, result⟩ := exists_of_toBool (show (value [embeddedList]).toBool = true by decide +kernel)
  obtain ⟨w, met⟩ := exists_of_toBool (show (Value.top.unify found).toBool = true by decide +kernel)
  have own : bodyFields (remembering (evaluate 255)) Scopes.root (inside.scopes.node Scopes.root).entries inside =
      (.ok [], inside) := rfl
  have meets : Meets (255 + 1) (.task (.body Scopes.root)) start .top found inside :=
    .task (by decide) (.embedded own (List.nil_append _).symm rfl rfl)
  exact ⟨v, w, result, whole v result, meets, (united _ _ _ _ _ _ .self meets).2, met, adds _ _ _ met⟩

/-- `_a: [[…[1]…]]` and `_b: [[…[_a]…]]` -/
def stackedBrackets (n : Nat) : ParsedFile :=
  fileOf [declare "_a" .hidden (brackets n (.int 1 default)), declare "_b" .hidden (brackets n (nameOf "_a"))]

/-- Two fields of 130 levels each make a value of 260 and one for the struct. -/
theorem nesting_exceeds_limit : ∃ v, value [stackedBrackets 130] = .ok v ∧ evaluationLimit < v.nesting := by
  obtain ⟨v, found, deep⟩ := exists_of_any
    (show (value [stackedBrackets 130]).toOption.any (evaluationLimit < ·.nesting) = true by decide +kernel)
  exact ⟨v, found, of_decide_eq_true deep⟩

end Package

end StackLattice
