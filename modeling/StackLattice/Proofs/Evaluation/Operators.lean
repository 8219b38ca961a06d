import StackLattice.Proofs.Evaluation.Closure
import StackLattice.Proofs.Value.Meet

/-!
Negation and selection in terms of branches. Neither tells values apart that have the same branches: a value
with the one branch of a number is that number, since equal alternatives have been made one.
-/

namespace StackLattice.Evaluation

open Syntax (LabelKind)
open Decimal (Binary64)
open Value

variable {kinds : String → LabelKind}

/-- What opposites the branches of a value have, if it is a number or a kind of numbers. -/
def negations (F : Set (Set Value)) : Set (Set Value) :=
  {P | ∃ u w, negate u = some w ∧ F = {{c | u.Admits c}} ∧ P = {c | w.Admits c}}

inductive Numeric : Value → Prop
  | int (n : Int) : Numeric (int n)
  | float (x : Binary64) : Numeric (float x)
  | kind (k : Kind) (numbers : k = .int ∨ k = .float ∨ k = .number) : Numeric (kind k)

theorem numeric_of_negate {u w : Value} (h : negate u = some w) : Numeric u := by
  unfold negate at h
  split at h
  · exact .int _
  · exact .float _
  · split at h
    · exact .kind _ ‹_›
    · cases h
  · cases h

theorem Numeric.isLeaf {u : Value} (h : Numeric u) : u.isLeaf = true := by cases h <;> rfl

theorem admits_null (c : Value) : null.Admits c ↔ c = null := by
  rw [admits_scalar rfl]
  cases c <;> simp [same]

theorem admits_bool (b : Bool) (c : Value) : (bool b).Admits c ↔ c = bool b := by
  rw [admits_scalar rfl]
  cases c <;> simp [same]
  exact eq_comm

theorem admits_int (n : Int) (c : Value) : (int n).Admits c ↔ c = int n := by
  rw [admits_scalar rfl]
  cases c <;> simp [same]
  exact eq_comm

theorem admits_float (x : Binary64) (c : Value) : (float x).Admits c ↔ ∃ y, c = float y ∧ x.same y = true := by
  rw [admits_scalar rfl]
  cases c <;> simp [same]

theorem admits_string (s : String) (c : Value) : (string s).Admits c ↔ c = string s := by
  rw [admits_scalar rfl]
  cases c <;> simp [same]
  exact eq_comm

/-- A value without parts that has the instances of a number, or of a kind of numbers, equals it. -/
theorem same_of_admits_iff {u v : Value} (numeric : Numeric u) (tame : v.Tame kinds) (leaf : v.isLeaf = true)
    (h : ∀ c, v.Admits c ↔ u.Admits c) : u.same v = true ∧ Numeric v := by
  have notNaN : (Binary64.isNaN .nan) = true := by decide
  -- A kind is told from a number by a second instance, and from another kind by one it does not share.
  have tests := And.intro (h null) (And.intro (h (int 0)) (And.intro (h (int 1)) (h (float .nan))))
  obtain ⟨c, admitted⟩ := tame.exists_instance
  have ofU := (h c).mp admitted
  cases numeric with
  | int n =>
    have own := (h (int n)).mpr ((admits_int n _).mpr rfl)
    have other := h (int (n + 1))
    cases v with
    | struct _ | list _ | disjunction _ => exact absurd leaf Bool.false_ne_true
    | kind k =>
      rw [admits_kind] at own
      rw [admits_kind, admits_int, int.injEq] at other
      have same := other.mp (by cases k <;> exact own)
      omega
    | top =>
      simp only [admits_top, admits_int, int.injEq, true_iff] at other
      omega
    | int m =>
      simp only [admits_int, int.injEq] at own
      exact ⟨by simp [same, own], .int m⟩
    | _ => simp [admits_null, admits_bool, admits_float, admits_string] at own
  | float x =>
    rw [admits_float] at ofU
    obtain ⟨y, rfl, equal⟩ := ofU
    cases v with
    | struct _ | list _ | disjunction _ => exact absurd leaf Bool.false_ne_true
    | kind k => cases k <;> simp [admits_float, Kind.admits, Binary64.same, notNaN] at admitted tests
    | top => simp [admits_float] at tests
    | float z =>
      rw [admits_float] at admitted
      obtain ⟨_, same, equal'⟩ := admitted
      cases same
      rw [Binary64.same_comm] at equal'
      exact ⟨by rw [same, Binary64.same_trans equal equal'], .float z⟩
    | _ => simp [admits_null, admits_bool, admits_int, admits_string] at admitted
  | kind k numbers =>
    cases v with
    | struct _ | list _ | disjunction _ => exact absurd leaf Bool.false_ne_true
    | kind k' =>
      have equal : k = k' := by
        rcases numbers with rfl | rfl | rfl <;> cases k' <;> first | rfl | simp [Kind.admits] at tests
      exact ⟨by simp [same, equal], .kind k' (equal ▸ numbers)⟩
    | top => simp [Kind.admits] at tests
    | int m =>
      rcases numbers with rfl | rfl | rfl <;> simp [Kind.admits, admits_int] at tests
      omega
    | float x => rcases numbers with rfl | rfl | rfl <;> simp [Kind.admits, admits_float, Binary64.same, notNaN] at tests
    | _ =>
      rcases numbers with rfl | rfl | rfl <;>
        simp [Kind.admits, admits_null, admits_bool, admits_string] at tests

theorem Numeric.same_congr {u a : Value} (numeric : Numeric u) (h : u.same a = true) (b : Value) :
    u.same b = a.same b := by
  cases numeric with
  | int n => exact same_congr_scalar rfl h b
  | float x => exact same_congr_scalar rfl h b
  | kind k =>
    cases a <;> simp only [same, Bool.false_eq_true, beq_iff_eq] at h
    rw [h]

/-- A number admits no struct and no list. -/
theorem isLeaf_of_branch {u v : Value} (numeric : Numeric u) (tame : v.Tame kinds)
    (single : v.isDisjunction = false) (branch : v.Branch {c | u.Admits c}) : v.isLeaf = true := by
  obtain ⟨c, ofU⟩ := Branch.nonempty branch tame
  have admitted : v.Admits c := (tame.wellFormed.branches c).mpr ⟨_, branch, ofU⟩
  have ofU : u.Admits c := ofU
  cases v with
  | struct fields =>
    obtain ⟨given, rfl⟩ := struct_of_admits admitted
    cases numeric with
    | int n => simp [admits_int] at ofU
    | float x => simp [admits_float] at ofU
    | kind k => cases k <;> simp [Kind.admits] at ofU
  | list items =>
    obtain ⟨given, rfl⟩ := list_of_admits admitted
    cases numeric with
    | int n => simp [admits_int] at ofU
    | float x => simp [admits_float] at ofU
    | kind k => cases k <;> simp [Kind.admits] at ofU
  | disjunction alternatives => exact absurd single.symm Bool.false_ne_true
  | _ => rfl

/-- A value with the one branch of a number equals the number, if it is no disjunction. -/
theorem same_of_branches {u v : Value} (numeric : Numeric u) (tame : v.Tame kinds)
    (single : v.isDisjunction = false) (only : v.branches = {{c | u.Admits c}}) : u.same v = true ∧ Numeric v := by
  have branch : v.Branch {c | u.Admits c} := by
    rw [← mem_branches, only]
    rfl
  have leaf := isLeaf_of_branch numeric tame single branch
  rw [branches_leaf leaf, Set.singleton_eq_singleton_iff] at only
  exact same_of_admits_iff numeric tame leaf fun c => Set.ext_iff.mp only c

/-- No two alternatives are equal, so a disjunction has more branches than one number. -/
theorem branches_ne_of_disjunction {u : Value} (numeric : Numeric u) {alternatives : List (Alternative Value)}
    (tame : (disjunction alternatives).Tame kinds) :
    (disjunction alternatives).branches ≠ {{c | u.Admits c}} := by
  intro only
  have separate : Separate alternatives := tame.here
  obtain ⟨a, b, rest, rfl⟩ : ∃ a b rest, alternatives = a :: b :: rest := by
    have several := separate.several
    rcases alternatives with _ | ⟨a, _ | ⟨b, rest⟩⟩
    · simp at several
    · simp at several
    · exact ⟨a, b, rest, rfl⟩
  have each : ∀ x ∈ a :: b :: rest, u.same x.value = true ∧ Numeric x.value := by
    intro x member
    have inside : ∀ P, x.value.Branch P → P = {c | u.Admits c} := by
      intro P branch
      have whole : P ∈ (disjunction (a :: b :: rest)).branches := (branch_disjunction _ P).mpr ⟨x, member, branch⟩
      rw [only] at whole
      exact whole
    refine same_of_branches numeric (tame.alternative member) (separate.single x member) (Set.ext fun P => ?_)
    refine ⟨inside P, fun same => ?_⟩
    obtain ⟨Q, branch⟩ := (tame.alternative member).exists_branch
    rw [Set.mem_singleton_iff.mp same, ← inside Q branch]
    exact branch
  have first := (List.pairwise_cons.mp separate.distinct).1 b List.mem_cons_self
  have sameA := (each a List.mem_cons_self).1
  have sameB := (each b (List.mem_cons_of_mem _ List.mem_cons_self)).1
  rw [numeric.same_congr sameA b.value, first] at sameB
  exact Bool.false_ne_true sameB

theorem negate_congr {u v w : Value} (same : u.same v = true) (h : negate u = some w) :
    ∃ w', negate v = some w' ∧ ∀ c, w'.Admits c ↔ w.Admits c := by
  have numeric := numeric_of_negate h
  cases numeric with
  | int n =>
    cases v <;> simp only [Value.same, Bool.false_eq_true, beq_iff_eq] at same
    subst same
    exact ⟨w, h, fun c => Iff.rfl⟩
  | float x =>
    cases v <;> simp only [Value.same, Bool.false_eq_true] at same
    rename_i y
    cases h
    refine ⟨float y.neg, rfl, fun c => ?_⟩
    have opposite : (float x.neg).same (float y.neg) = true := by
      rw [Value.same, Binary64.same_neg, Binary64.neg_neg]
      exact same
    rw [admits_scalar rfl, admits_scalar rfl, same_congr_scalar rfl opposite c]
  | kind k =>
    cases v <;> simp only [Value.same, Bool.false_eq_true, beq_iff_eq] at same
    subst same
    exact ⟨w, h, fun c => Iff.rfl⟩

theorem tame_negate {v w : Value} (tame : v.Tame kinds) (h : negate v = some w) : w.Tame kinds := by
  unfold negate at h
  split at h
  · split at h
    · cases h
    · cases h
      exact tame_of_here rfl trivial
  · rename_i x
    cases h
    have number : x.isNaN = false := tame.here
    exact tame_of_here rfl (by rw [TameHere, Binary64.isNaN_neg, number])
  · split at h
    · cases h
      exact tame_of_here rfl trivial
    · cases h
  · cases h

theorem branches_of_negate {v w : Value} (h : negate v = some w) :
    v.branches = {{c | v.Admits c}} ∧ w.branches = {{c | w.Admits c}} := by
  have numeric := numeric_of_negate h
  refine ⟨branches_leaf numeric.isLeaf, branches_leaf ?_⟩
  unfold negate at h
  split at h
  · split at h <;> cases h
    rfl
  · cases h
    rfl
  · split at h <;> cases h
    rfl
  · cases h

/-- What negation comes to is told by the branches. -/
theorem branches_negate {v : Value} (tame : v.Tame kinds) :
    negations v.branches = match negate v with
      | some w => w.branches
      | none => ∅ := by
  -- Whatever number has the branches of the value, equals the value.
  have opposite {u w : Value} (h : negate u = some w) (only : v.branches = {{c | u.Admits c}}) :
      ∃ w', negate v = some w' ∧ ∀ c, w'.Admits c ↔ w.Admits c := by
    have numeric := numeric_of_negate h
    have single : v.isDisjunction = false := by
      cases v with
      | disjunction alternatives => exact absurd only (branches_ne_of_disjunction numeric tame)
      | _ => rfl
    exact negate_congr (same_of_branches numeric tame single only).1 h
  ext P
  cases result : negate v with
  | none =>
    simp only [Set.mem_empty_iff_false, iff_false]
    rintro ⟨u, w, negated, only, _⟩
    obtain ⟨w', again, _⟩ := opposite negated only
    rw [result] at again
    cases again
  | some w =>
    obtain ⟨whole, negated⟩ := branches_of_negate result
    show P ∈ negations v.branches ↔ P ∈ w.branches
    rw [negated, Set.mem_singleton_iff]
    constructor
    · rintro ⟨u, w', negated, only, rfl⟩
      obtain ⟨w'', again, same⟩ := opposite negated only
      rw [result] at again
      cases again
      exact Set.ext fun c => (same c).symm
    · rintro rfl
      exact ⟨v, w, result, whole, rfl⟩

/-- The branches of a field, seen in those of the struct. -/
def selections (label : String) (F : Set (Set Value)) : Set (Set Value) := (inField · label) '' F

theorem allowed_nonempty {fields : List (Field Value)} (tame : (struct fields).Tame kinds) (label : String) :
    ∃ S, S ∈ allowed fields label := by
  cases found : Field.find? fields label with
  | none => exact ⟨Set.univ, by rw [allowed_of_none found]; rfl⟩
  | some f =>
    obtain ⟨S, branch⟩ := (tame.field (Field.mem_of_find? found)).exists_branch
    exact ⟨S, by rw [allowed_of_some found]; exact branch⟩

theorem nonempty_of_allowed {fields : List (Field Value)} (tame : (struct fields).Tame kinds)
    {choice : String → Set Value} (chosen : ∀ label, choice label ∈ allowed fields label) :
    ∀ f ∈ fields, (choice f.label).Nonempty := by
  intro f member
  have branch := chosen f.label
  rw [allowed_of_some (tame.wellFormed.distinct.find?_of_mem member)] at branch
  exact Branch.nonempty branch (tame.field member)

/-- The branches of a field are what those of the struct leave to it. -/
theorem selections_struct {fields : List (Field Value)} (tame : (struct fields).Tame kinds) {label : String}
    {f : Field Value} (found : Field.find? fields label = some f) :
    selections label (struct fields).branches = f.value.branches := by
  have distinct := tame.wellFormed.distinct
  ext P
  constructor
  · rintro ⟨_, branch, rfl⟩
    obtain ⟨choice, chosen, rfl⟩ := (branch_struct fields _).mp branch
    show inField (structSet (signature fields) choice) label ∈ f.value.branches
    rw [inField_structSet distinct (nonempty_of_allowed tame chosen) found, ← allowed_of_some found]
    exact chosen label
  · intro branch
    choose other inside using allowed_nonempty tame
    let choice (l : String) : Set Value := if l = label then P else other l
    have chosen : ∀ l, choice l ∈ allowed fields l := by
      intro l
      by_cases here : l = label
      · rw [here, allowed_of_some found]
        simpa only [choice, if_true] using branch
      · simpa only [choice, here, if_false] using inside l
    refine ⟨_, (branch_struct fields _).mpr ⟨choice, chosen, rfl⟩, ?_⟩
    show inField (structSet (signature fields) choice) label = P
    rw [inField_structSet distinct (nonempty_of_allowed tame chosen) found]
    simp only [choice, if_true]

theorem branches_selected {v x : Value} {label : String} (tame : v.Tame kinds)
    (h : Closure.selected label v = .ok x) : x.Tame kinds ∧ selections label v.branches = x.branches := by
  cases v with
  | struct fields =>
    rw [Closure.selected] at h
    cases found : Field.find? fields label with
    | none =>
      rw [found] at h
      cases h
    | some f =>
      rw [found] at h
      cases h
      exact ⟨tame.field (Field.mem_of_find? found), selections_struct tame found⟩
  | disjunction alternatives =>
    rw [Closure.selected] at h
    split at h
    · rename_i resolved
      rw [tame.resolved] at resolved
      cases resolved
    · cases h
  | _ => simp [Closure.selected] at h

end StackLattice.Evaluation
