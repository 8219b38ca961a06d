import StackLattice.Proofs.Evaluation.Deeper
import StackLattice.Proofs.Evaluation.Formed
import StackLattice.Proofs.Value.Grouping

/-!
A group of operands among the operands of a disjunction. It comes to a disjunction of its own, whose alternatives are
those of the operands without parentheses, but for their marks.
-/

namespace StackLattice.Evaluation

open Syntax (Expr ParsedFile)
open Value

/-- What a disjunction comes to when its operands come to these alternatives, and to a conflict if there is one. -/
def disjoined (found : List (Alternative Value)) (conflict : Option EvalError) : Except EvalError Value :=
  match found, conflict with
  | [], some err => .error err
  | _, _ => .ok (.disjoin found)

section Runs

variable {parts : Parts} {place : Place} {s t : State} {a b c : Expr} {span : Span} {levels : Nat}

theorem alternatives_append (es es' : List Expr) : alternatives parts place (es ++ es') = (do
    let found ← alternatives parts place es
    let beside ← alternatives parts place es'
    return (found.1 ++ beside.1, found.2.or beside.2)) := by
  induction es with
  | nil =>
    rw [List.nil_append, alternatives]
    simp
  | cons e es ih =>
    rw [List.cons_append, alternatives_cons, alternatives_cons, ih]
    simp only [bind_assoc]
    refine congrArg _ (funext fun result => congrArg _ (funext fun found => ?_))
    cases result <;> simp

/-- What ends the evaluation of operands is no conflict. -/
theorem kind_of_alternatives_error {es : List Expr} {e : EvalError} (h : alternatives parts place es s = (.error e, t)) :
    e.kind ≠ .conflict := by
  induction es generalizing s with
  | nil => cases h
  | cons operand es ih =>
    rw [alternatives_cons] at h
    rcases first : tried (parts.task (.expr (Closure.unmarked operand).2 place)) s with ⟨r, u⟩
    cases r with
    | error err =>
      rw [bind_of_error first] at h
      cases h
      exact kind_ne_of_tried first
    | ok result =>
      rw [bind_of_ok first] at h
      rcases rest : alternatives parts place es u with ⟨r, w⟩
      cases r with
      | error err =>
        rw [bind_of_error rest] at h
        cases h
        exact ih rest
      | ok others =>
        rw [bind_of_ok rest] at h
        cases result <;> cases h

theorem disjunctionValue_of_alternatives {e : Expr} {r : Except EvalError (List (Alternative Value) × Option EvalError)}
    (h : alternatives parts place (operands e) s = (r, t)) :
    disjunctionValue parts place e s = (r.bind fun found => disjoined found.1 found.2, t) := by
  cases r with
  | error err => exact bind_of_error h
  | ok found =>
    obtain ⟨found, conflict⟩ := found
    rw [disjunctionValue, bind_of_ok h]
    rcases found with _ | ⟨a, found⟩
    · cases conflict <;> rfl
    · rfl

/-- A group comes to the disjunction of what is in it, unless that takes more levels than there are. -/
theorem evaluate_group (span : Span) {r : Except EvalError (List (Alternative Value) × Option EvalError)}
    (h : alternatives (remembering (evaluate levels)) place (operands (.binary .disjoin a b)) s = (r, t)) :
    OutOfLevels (evaluate levels (.expr (.paren (.binary .disjoin a b) span) place) s) ∨
      evaluate levels (.expr (.paren (.binary .disjoin a b) span) place) s =
        (r.bind fun found => disjoined found.1 found.2, t) := by
  obtain _ | _ | levels := levels
  · exact .inl (outOfLevels_evaluate_zero _ s)
  · exact .inl (outOfLevels_of_perform (outOfLevels_evaluate_zero _ (s.deeper 1)))
  · have tasks (task : Task) : Deepens 2 (evaluate (levels + 2) task) (evaluate levels task) :=
      evaluate_deepens (Nat.le_add_right levels 2) task
    have operands : Deepens 2 (alternatives (remembering (evaluate (levels + 2))) place (operands (.binary .disjoin a b)))
        (alternatives (remembering (evaluate levels)) place (operands (.binary .disjoin a b))) :=
      alternatives_deepens tasks place _
    rcases operands s with out | same
    · have inner : OutOfLevels (perform (remembering (evaluate levels)) (.expr (.binary .disjoin a b) place)
          ((s.deeper 1).deeper 1)) := out.bind
      exact .inl (outOfLevels_of_perform (outOfLevels_of_perform inner))
    · rw [h] at same
      have inner : perform (remembering (evaluate levels)) (.expr (.binary .disjoin a b) place) ((s.deeper 1).deeper 1) =
          (r.bind fun found => disjoined found.1 found.2, (t.deeper 1).deeper 1) := disjunctionValue_of_alternatives same
      rcases evaluate_of_perform inner with out | came
      · exact .inl (outOfLevels_of_perform out)
      · exact evaluate_of_perform came

theorem tried_group (span : Span) {r : Except EvalError (List (Alternative Value) × Option EvalError)}
    (h : alternatives (remembering (evaluate levels)) place (operands (.binary .disjoin a b)) s = (r, t)) :
    OutOfLevels (tried (evaluate levels (.expr (.paren (.binary .disjoin a b) span) place)) s) ∨
      tried (evaluate levels (.expr (.paren (.binary .disjoin a b) span) place)) s =
        (r.map fun found => disjoined found.1 found.2, t) := by
  rcases evaluate_group span h with out | group
  · exact .inl out.tried
  right
  rw [tried, group]
  cases r with
  | error e => exact congrArg (·, t) (if_neg (kind_of_alternatives_error h))
  | ok found =>
    obtain ⟨_ | ⟨x, xs⟩, _ | err⟩ := found
    · rfl
    · exact congrArg (·, t) (if_pos (kind_of_alternatives h))
    · rfl
    · rfl

/-- These operands come to alternatives `xs` and then the ones after them to `ys`. -/
def Collects (parts : Parts) (place : Place) (s : State) (es es' : List Expr) (xs ys : List (Alternative Value)) : Prop :=
  ∃ conflict u conflict' t, alternatives parts place es s = (.ok (xs, conflict), u) ∧
    alternatives parts place es' u = (.ok (ys, conflict'), t)

/-- `a | b | c` and `(a | b) | c` come to disjunctions of the same alternatives or fail for the same reason, unless the
    second takes more levels than there are. -/
theorem disjunctionValue_group :
    let parts := remembering (evaluate levels)
    let chain := disjunctionValue parts place (.binary .disjoin (.binary .disjoin a b) c) s
    let grouped := disjunctionValue parts place (.binary .disjoin (.paren (.binary .disjoin a b) span) c) s
    OutOfLevels grouped ∨ (∃ e t, chain = (.error e, t) ∧ grouped = (.error e, t)) ∨
      ∃ xs ys t, Collects parts place s (operands (.binary .disjoin a b)) (operands c) xs ys ∧
        chain = (.ok (.disjoin (xs ++ ys)), t) ∧ grouped = (.ok (.disjoin (⟨.disjoin xs, false⟩ :: ys)), t) := by
  intro parts chain grouped
  rcases first : alternatives parts place (operands (.binary .disjoin a b)) s with ⟨r, u⟩
  have chained : alternatives parts place (operands (.binary .disjoin (.binary .disjoin a b) c)) = _ :=
    alternatives_append (operands (.binary .disjoin a b)) (operands c)
  have beside : alternatives parts place (operands (.binary .disjoin (.paren (.binary .disjoin a b) span) c)) = _ :=
    alternatives_cons parts place (.paren (.binary .disjoin a b) span) (operands c)
  rcases tried_group span first with out | group
  · exact .inl (OutOfLevels.bind (beside ▸ out.bind))
  right
  cases r with
  | error e =>
    have chainFails : chain = (.error e, u) := disjunctionValue_of_alternatives (chained ▸ bind_of_error first)
    have groupedFails : grouped = (.error e, u) := disjunctionValue_of_alternatives (beside ▸ bind_of_error group)
    exact .inl ⟨e, u, chainFails, groupedFails⟩
  | ok found =>
    obtain ⟨xs, conflict⟩ := found
    rcases second : alternatives parts place (operands c) u with ⟨r', t⟩
    cases r' with
    | error e =>
      have chainFails : chain = (.error e, t) :=
        disjunctionValue_of_alternatives (chained ▸ (bind_of_ok first).trans (bind_of_error second))
      have groupedFails : grouped = (.error e, t) :=
        disjunctionValue_of_alternatives (beside ▸ (bind_of_ok group).trans (bind_of_error second))
      exact .inl ⟨e, t, chainFails, groupedFails⟩
    | ok found' =>
      obtain ⟨ys, conflict'⟩ := found'
      have chainIs : chain = (disjoined (xs ++ ys) (conflict.or conflict'), t) :=
        disjunctionValue_of_alternatives (chained ▸ (bind_of_ok first).trans (bind_of_ok second))
      obtain ⟨operand, es, are⟩ := List.exists_cons_of_ne_nil (operands_ne_nil (.binary .disjoin a b))
      have collects : Collects parts place s (operands (.binary .disjoin a b)) (operands c) xs ys :=
        ⟨conflict, u, conflict', t, first, second⟩
      obtain _ | ⟨x, xs⟩ := xs
      · obtain ⟨err, rfl⟩ := Option.isSome_iff_exists.mp ((found_of_alternatives (are ▸ first)).resolve_left (· rfl))
        have groupedIs : grouped = (disjoined ys (some err), t) :=
          disjunctionValue_of_alternatives (beside ▸ (bind_of_ok group).trans (bind_of_ok second))
        obtain _ | ⟨y, ys⟩ := ys
        · exact .inl ⟨err, t, chainIs, groupedIs⟩
        · exact .inr ⟨[], y :: ys, t, collects, chainIs, groupedIs⟩
      · have groupedIs : grouped = (.ok (.disjoin (⟨.disjoin (x :: xs), false⟩ :: ys)), t) :=
          disjunctionValue_of_alternatives (beside ▸ (bind_of_ok group).trans (bind_of_ok second))
        exact .inr ⟨x :: xs, ys, t, collects, chainIs, groupedIs⟩

theorem evaluate_disjunction_group :
    let chain := evaluate (levels + 1) (.expr (.binary .disjoin (.binary .disjoin a b) c) place) s
    let grouped := evaluate (levels + 1) (.expr (.binary .disjoin (.paren (.binary .disjoin a b) span) c) place) s
    OutOfLevels grouped ∨ (∃ e t, chain = (.error e, t) ∧ grouped = (.error e, t)) ∨
      ∃ xs ys t, Collects (remembering (evaluate levels)) place (s.deeper 1) (operands (.binary .disjoin a b)) (operands c)
          xs ys ∧
        chain = (.ok (.disjoin (xs ++ ys)), t) ∧ grouped = (.ok (.disjoin (⟨.disjoin xs, false⟩ :: ys)), t) := by
  intro chain grouped
  rcases Nat.lt_or_ge s.depth evaluationLimit with shallow | deep
  · rcases disjunctionValue_group with out | ⟨e, t, left, right⟩ | ⟨xs, ys, t, collects, left, right⟩
    · exact .inl (outOfLevels_of_perform out)
    · exact .inr (.inl ⟨e, _, nest_open shallow left, nest_open shallow right⟩)
    · exact .inr (.inr ⟨xs, ys, _, collects, nest_open shallow left, nest_open shallow right⟩)
  · exact .inl (outOfLevels_nest deep _ _)

end Runs

section Reached

variable {files : Array ParsedFile} {s : State} {envs : List Env} {levels : Nat} {place : Place} {site : Closure.Site}
  {xs ys : List (Alternative Value)}

theorem formed_of_settles {es : List Expr} {conflict : Option EvalError}
    (h : Settles (fun n => Closure.alternatives (Closure.partsAt n) site es) (.ok (xs, conflict))) :
    ∀ x ∈ xs, x.value.Formed := by
  obtain ⟨fuel, enough⟩ := h.eventually
  exact (alternatives_form (fun t => meaning_forms fuel t) (enough fuel (Nat.le_refl _))).1

/-- In a state that is reached, operands come to values that are formed. -/
theorem formed_of_collects (reached : Remembers files 0 s envs) (level : s.depth + (levels + 1) = evaluationLimit)
    (is : PlaceIs files envs place site) {es es' : List Expr}
    (h : Collects (remembering (evaluate levels)) place (s.deeper 1) es es' xs ys) :
    (∀ x ∈ xs, x.value.Formed) ∧ ∀ y ∈ ys, y.value.Formed := by
  obtain ⟨conflict, u, conflict', t, first, second⟩ := h
  have follow := remembering_follows (evaluate_follows files levels) 0
  have inside : Remembers files 0 (s.deeper 1) envs := { reached with }
  obtain ⟨agrees, _, holds⟩ := follow.alternatives ⟨inside, by show s.depth + 1 + levels = _; omega⟩ is es
  rw [first] at agrees holds
  obtain ⟨envs', longer, after⟩ := holds trivial
  obtain ⟨agrees', _, _⟩ := follow.alternatives after (is.extend longer) es'
  rw [second] at agrees'
  exact ⟨formed_of_settles (agrees.settles fun _ impossible => by cases impossible),
    formed_of_settles (agrees'.settles fun _ impossible => by cases impossible)⟩

end Reached

/-- Parentheses around some alternatives change a disjunction just if they lose marks. -/
theorem group_same_unless_marks_lost :
    (∀ xs ys : List (Alternative Value), (∀ a ∈ xs ++ ys, a.value.isDisjunction = false ∧ a.value.WellFormed) →
      (MarksKept xs ys → disjoin (⟨disjoin xs, false⟩ :: ys) = disjoin (xs ++ ys)) ∧
        (¬MarksKept xs ys → (disjoin (⟨disjoin xs, false⟩ :: ys)).same (disjoin (xs ++ ys)) = false)) ∧
    ∀ (files : Array ParsedFile) (s : State) (envs : List Env) (levels : Nat) (place : Place) (site : Closure.Site)
      (a b c : Expr) (span : Span),
      Remembers files 0 s envs → s.depth + (levels + 1) = evaluationLimit → PlaceIs files envs place site →
      let chain := evaluate (levels + 1) (.expr (.binary .disjoin (.binary .disjoin a b) c) place) s
      let grouped := evaluate (levels + 1) (.expr (.binary .disjoin (.paren (.binary .disjoin a b) span) c) place) s
      OutOfLevels grouped ∨ (∃ e t, chain = (.error e, t) ∧ grouped = (.error e, t)) ∨
        ∃ xs ys t, Collects (remembering (evaluate levels)) place (s.deeper 1) (operands (.binary .disjoin a b))
            (operands c) xs ys ∧
          chain = (.ok (disjoin (xs ++ ys)), t) ∧ grouped = (.ok (disjoin (⟨disjoin xs, false⟩ :: ys)), t) ∧
          (MarksKept (xs.flatMap Alternative.flatten) (ys.flatMap Alternative.flatten) → grouped = chain) ∧
          (¬MarksKept (xs.flatMap Alternative.flatten) (ys.flatMap Alternative.flatten) →
            (disjoin (⟨disjoin xs, false⟩ :: ys)).same (disjoin (xs ++ ys)) = false) := by
  refine ⟨fun xs ys each => ?_, ?_⟩
  · obtain ⟨left, right⟩ := List.forall_mem_append.mp each
    have flatXs := Alternative.flatMap_flatten_of_single fun x member => (left x member).1
    have flatYs := Alternative.flatMap_flatten_of_single fun y member => (right y member).1
    have group := disjoin_group xs ys (flatXs.symm ▸ left) (flatYs.symm ▸ fun y member => (right y member).2)
    rwa [flatXs, flatYs] at group
  · intro files s envs levels place site a b c span reached level is chain grouped
    refine evaluate_disjunction_group.imp id (Or.imp id ?_)
    rintro ⟨xs, ys, t, collects, chainIs, groupedIs⟩
    obtain ⟨formedXs, formedYs⟩ := formed_of_collects reached level is collects
    obtain ⟨kept, lost⟩ := disjoin_group xs ys (single_of_mem_flatMap formedXs) fun y member =>
      (single_of_mem_flatMap formedYs y member).2
    refine ⟨xs, ys, t, collects, chainIs, groupedIs, fun marks => ?_, lost⟩
    exact groupedIs.trans ((congrArg (fun v => (Except.ok v, t)) (kept marks)).trans chainIs.symm)

end StackLattice.Evaluation

namespace StackLattice.Package

open Evaluation
open Syntax (Expr exists_of_toBool)
open Value (MarksKept)

/-- `*1 | 2 | 3` and `(*1 | 2) | 3`. The marks of `(*1 | *2) | 3` are lost. -/
theorem group_same_unless_marks_lost_literals :
    let s : State := { scopes := .ofFiles [fileOf []] }
    let place : Place := ⟨Scopes.root, 0, "a"⟩
    let group := either (marked (number 1)) (number 2)
    let chain := evaluate evaluationLimit (.expr (either group (number 3)) place) s
    let grouped := evaluate evaluationLimit (.expr (either (.paren group default) (number 3)) place) s
    chain.1.toBool = true ∧ grouped = chain ∧
    Value.disjoin [⟨.disjoin [⟨.int 1, true⟩, ⟨.int 2, false⟩], false⟩, ⟨.int 3, false⟩] =
      .disjoin [⟨.int 1, true⟩, ⟨.int 2, false⟩, ⟨.int 3, false⟩] ∧
    (Value.disjoin [⟨.disjoin [⟨.int 1, true⟩, ⟨.int 2, true⟩], false⟩, ⟨.int 3, false⟩]).same
      (.disjoin [⟨.int 1, true⟩, ⟨.int 2, true⟩, ⟨.int 3, false⟩]) = false := by
  intro s place group chain grouped
  obtain ⟨values, sources⟩ := group_same_unless_marks_lost
  have int (n : Int) : (Value.int n).WellFormed := (Value.formed_leaf rfl).wellFormed
  have single (mark : Bool) : ∀ a ∈ ([⟨.int 1, true⟩, ⟨.int 2, mark⟩] ++ [⟨.int 3, false⟩] : List (Alternative Value)),
      a.value.isDisjunction = false ∧ a.value.WellFormed := by simp [Value.isDisjunction, int]
  have succeeds : chain.1.toBool = true := by decide +kernel
  have groupSucceeds : grouped.1.toBool = true := by decide +kernel
  refine ⟨succeeds, ?_, (values _ _ (single false)).1 (by decide +kernel), (values _ _ (single true)).2 (by decide +kernel)⟩
  obtain ⟨envs, described, root, files⟩ := described_ofFiles [fileOf []]
  have reached : Remembers [fileOf []].toArray 0 s envs :=
    ⟨described, files, fun _ member => (by cases member), fun _ member => (by cases member)⟩
  rcases sources _ s envs 255 place ⟨rootEnv [fileOf []], fileOf [], "a"⟩ (marked (number 1)) (number 2) (number 3) default
      reached rfl ⟨root, rfl, rfl⟩ with ⟨e, failed, _⟩ | ⟨e, t, failed, _⟩ | ⟨xs, ys, t, collects, _, _, kept, _⟩
  · exact absurd groupSucceeds (by rw [show grouped.1 = _ from failed]; exact Bool.false_ne_true)
  · exact absurd succeeds (by rw [show chain = _ from failed]; exact Bool.false_ne_true)
  obtain ⟨conflict, u, conflict', u', first, second⟩ := collects
  have left : alternatives (remembering (evaluate 255)) place (operands group) (s.deeper 1) =
      (.ok ([⟨.int 1, true⟩, ⟨.int 2, false⟩], none), s.deeper 1) := rfl
  cases left.symm.trans first
  have right : alternatives (remembering (evaluate 255)) place (operands (number 3)) (s.deeper 1) =
      (.ok ([⟨.int 3, false⟩], none), s.deeper 1) := rfl
  cases right.symm.trans second
  exact kept (by decide +kernel)

/-- `a: *1 | *1 | 2` has a default and `a: (*1 | *1) | 2` has none, since the group is `1` by the time that `2` is added. -/
theorem group_loses_marks :
    (¬ ∀ xs ys : List (Alternative Value), (∀ a ∈ xs ++ ys, a.value.isDisjunction = false) →
      Value.disjoin (⟨.disjoin xs, false⟩ :: ys) = .disjoin (xs ++ ys)) ∧
    (document [fileOf [declare "a" .regular (either (either (marked (number 1)) (marked (number 1))) (number 2))]]).toBool =
      true ∧
    (document [fileOf [declare "a" .regular (either (.paren (either (marked (number 1)) (marked (number 1))) default)
      (number 2))]]).toBool = false := by
  refine ⟨fun claim => ?_, by decide +kernel, by decide +kernel⟩
  have same := claim [⟨.int 1, true⟩, ⟨.int 1, true⟩] [⟨.int 2, false⟩] (by decide)
  exact absurd (congrArg (fun v : Value => v.resolved.isSome) same) (by decide +kernel)

end StackLattice.Package
