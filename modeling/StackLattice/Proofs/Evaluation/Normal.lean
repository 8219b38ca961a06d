import StackLattice.Proofs.Evaluation.Calls
import StackLattice.Proofs.Evaluation.FileOrder
import StackLattice.Proofs.Syntax.Accepted
import StackLattice.Proofs.Value.Normal

/-!
Evaluation makes normal values only, and remembers no others.
-/

namespace StackLattice

namespace Evaluation

/-- Whether the values that are remembered are normal. -/
def State.Normal (s : State) : Prop := ∀ key v, (key, .ok v) ∈ s.cache → v.Normal

theorem State.Normal.leave {s : State} (h : s.Normal) {key : FieldKey} {r : Except EvalError Value}
    (normal : ∀ v, r = .ok v → v.Normal) : (s.leave key r).Normal := by
  intro other v member
  rcases List.mem_cons.mp member with new | old
  · cases new
    exact normal v rfl
  · exact h other v old

def normal : Discipline where
  Holds := State.Normal
  Leads _ _ := True
  Part _ := Value.Normal
  Whole _ := Value.Normal
  refl _ := trivial
  trans _ _ := trivial
  part_mono _ := id
  whole_mono _ := id
  whole_of_part := id
  leaf := Value.normal_leaf
  struct := Value.normal_struct
  list := Value.normal_list
  disjoin := Value.normal_disjoin
  unify_part := Value.normal_unify
  unify_whole := Value.normal_unify
  selected := everywhere_of_selected
  gather _ _ h := ⟨trivial, h⟩
  cached h found := h _ _ (mem_of_lookup found)
  enter _ h := h
  leave _ _ _ h good := ⟨trivial, h.leave good, fun _ => id⟩
  descend h _ := h
  ascend _ _ _ h := ⟨trivial, h, fun _ => id⟩

end Evaluation

open Evaluation

namespace Package

open Syntax (ParsedFile exists_of_toBool)

/-- The value of a package is normal, and so is every value that is remembered when it has been found, or at any call on
    the way. Unification and disjunction keep it that way. -/
theorem values_normal (files : List ParsedFile) :
    let start : State := { scopes := .ofFiles files }
    (∀ v, value files = .ok v → v.Normal) ∧
      (evaluate evaluationLimit (.body Scopes.root) start).2.Normal ∧
      (∀ n call s, Visits evaluationLimit (.task (.body Scopes.root)) start n call s → s.Normal) ∧
      (∀ a b v : Value, a.Normal → b.Normal → a.unify b = .ok v → v.Normal) ∧
      ∀ alternatives : List (Alternative Value), alternatives ≠ [] → (∀ a ∈ alternatives, a.value.Normal) →
        (Value.disjoin alternatives).Normal := by
  intro start
  have empty : start.Normal := fun _ _ impossible => absurd impossible List.not_mem_nil
  have ran := evaluate_kept normal evaluationLimit (.body Scopes.root) start empty
  exact ⟨ran.good, ran.holds, fun _ _ _ visits => visits.holds (D := normal) empty, fun _ _ _ => Value.normal_unify,
    fun _ => Value.normal_disjoin⟩

/-- `a: 80 | *81` and `b: a` -/
def chosenPort : ParsedFile :=
  fileOf [declare "a" .regular (.binary .disjoin (.int 80 default) (.unary .mark (.int 81 default) default)),
    declare "b" .regular (nameOf "a")]

theorem values_normal_chosen_port :
    let ports := Value.disjoin [⟨.int 80, false⟩, ⟨.int 81, true⟩]
    ∃ v n s, value [chosenPort] = .ok v ∧ v.Normal ∧
      Visits evaluationLimit (.task (.body Scopes.root)) { scopes := .ofFiles [chosenPort] } n
        (.field Scopes.root "b") s ∧ (s.cache.lookup (Scopes.root, "a")).isSome = true ∧ s.Normal ∧
      ports.Normal ∧ ∃ w, ports.unify (.kind .int) = .ok w ∧ w.Normal := by
  intro ports
  obtain ⟨whole, _, calls, unified, joined⟩ := values_normal [chosenPort]
  obtain ⟨v, result⟩ := exists_of_toBool (show (value [chosenPort]).toBool = true by decide +kernel)
  let s : State := { scopes := .ofFiles [chosenPort], depth := 1 }
  let before := bodyFields (remembering (evaluate 255)) Scopes.root ((s.scopes.node Scopes.root).entries.take 1) s
  obtain ⟨fields, found⟩ := exists_of_toBool (show before.1.toBool = true by decide +kernel)
  have visits : Visits (255 + 1) (.task (.body Scopes.root)) { scopes := .ofFiles [chosenPort] } 255
      (.field Scopes.root "b") before.2 :=
    .task (by decide) (.declared (List.take_append_drop 1 _).symm (Prod.ext found rfl)) .self
  have remembered : (before.2.cache.lookup (Scopes.root, "a")).isSome = true := by decide +kernel
  have leaves : ∀ a ∈ ([⟨.int 80, false⟩, ⟨.int 81, true⟩] : List (Alternative Value)), a.value.isLeaf = true := by
    decide
  have normal : ports.Normal := joined _ (List.cons_ne_nil _ _) fun a member => Value.normal_leaf (leaves a member)
  obtain ⟨w, met⟩ := exists_of_toBool (show (ports.unify (.kind .int)).toBool = true by decide +kernel)
  exact ⟨v, 255, before.2, result, whole v result, visits, remembered, calls _ _ _ visits, normal, w, met,
    unified _ _ w normal (Value.normal_leaf rfl) met⟩

end Package

end StackLattice
