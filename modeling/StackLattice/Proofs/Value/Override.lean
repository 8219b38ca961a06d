import Mathlib.Data.List.Zip
import StackLattice.Proofs.Value.Marks
import StackLattice.Proofs.Value.Rejoined

/-!
A concrete value overrides what it is unified with. Of any constraint that admits it nothing else is left: the
alternatives that clash with it drop out, the others all become equal to it, and no mark or default survives.
-/

namespace StackLattice

namespace Value

/-- A scalar that equals itself, or a list. -/
def DataHere : Value → Prop
  | null | bool _ | int _ | string _ | list _ => True
  | float x => x.isNaN = false
  | _ => False

/-- Concrete data without structs: a scalar other than NaN, or a list of such data. -/
def Data (v : Value) : Prop := v.Everywhere DataHere

namespace Data

variable {c d : Value}

theorem item {items : List Value} {item : Value} (h : (list items).Data) (member : item ∈ items) : item.Data :=
  Everywhere.item h member

theorem wellFormed (h : c.Data) : c.WellFormed := by
  refine Everywhere.imp h fun v here => ?_
  cases v with
  | struct fields => exact here.elim
  | _ => trivial

theorem cases (h : c.Data) : c.isScalar = true ∨ ∃ items, c = list items := by
  cases c with
  | list items => exact .inr ⟨items, rfl⟩
  | top | kind _ | struct _ | disjunction _ => exact h.here.elim
  | _ => exact .inl rfl

theorem isPlain (h : c.Data) : c.isPlain = true := by
  rcases h.cases with scalar | ⟨items, rfl⟩
  · cases c <;> first
      | rfl
      | exact absurd scalar Bool.false_ne_true
  · rfl

theorem single (h : c.Data) : c.isDisjunction = false := by
  cases c <;> first
    | rfl
    | exact h.here.elim

theorem known (h : c.Data) : c ≠ top := by
  rintro rfl
  exact h.here

theorem same_self (h : c.Data) : c.same c = true := by
  induction c using parts_induction with
  | step c ih =>
    cases c with
    | list items =>
      exact (same_list_iff items items).mpr (List.forall₂_same.mpr fun item member => ih item member (h.item member))
    | float x => rw [same, Decimal.Binary64.same_self h.here]
    | top | kind _ | struct _ | disjunction _ => exact h.here.elim
    | _ => simp [same]

/-- A scalar that equals data is data. -/
theorem of_same_scalar (scalar : d.isScalar = true) (h : d.same c = true) : d.Data := by
  have alone : d.parts = [] := by
    cases d <;> first
      | rfl
      | exact absurd scalar Bool.false_ne_true
  refine .intro ?_ (by simp [alone])
  cases d with
  | float x =>
    cases c <;> simp only [same, Bool.false_eq_true] at h
    exact ((Decimal.Binary64.same_iff _ _).mp h).1
  | top | kind _ | list _ | struct _ | disjunction _ => exact absurd scalar Bool.false_ne_true
  | _ => trivial

end Data

/-- Whether unification of a constraint with data gives just that data, and clashes if the constraint does not
    admit it. -/
def Overrides (d c : Value) (result : Except Conflict Value) : Prop :=
  ((∃ v, result = .ok v) ↔ d.Admits c) ∧ ∀ v, result = .ok v → v.Data ∧ v.same c = true

section Rules

variable {c d : Value}

theorem overrides_self (data : c.Data) (admitted : d.Admits c) : Overrides d c (.ok c) := by
  refine ⟨iff_of_true ⟨c, rfl⟩ admitted, fun v result => ?_⟩
  cases result
  exact ⟨data, data.same_self⟩

theorem overrides_equal (scalar : d.isScalar = true) (same : d.same c = true) : Overrides d c (.ok d) := by
  refine ⟨iff_of_true ⟨d, rfl⟩ ((admits_scalar scalar c).mpr same), fun v result => ?_⟩
  cases result
  exact ⟨.of_same_scalar scalar same, same⟩

theorem overrides_error {e : Conflict} (apart : ¬d.Admits c) : Overrides d c (.error e) := by
  refine ⟨iff_of_false (fun ⟨_, result⟩ => ?_) apart, fun v result => ?_⟩ <;> cases result

/-- Alternatives that all equal the same data are one. -/
theorem disjoin_of_same {alternatives : List (Alternative Value)} (data : c.Data) (some : alternatives ≠ [])
    (each : ∀ a ∈ alternatives, a.value.Data ∧ a.value.same c = true) :
    (disjoin alternatives).Data ∧ (disjoin alternatives).same c = true := by
  have flat : alternatives.flatMap Alternative.flatten = alternatives :=
    Alternative.flatMap_flatten_of_single fun a member => (each a member).1.single
  have left : ∀ u ∈ Alternative.dedup alternatives, u.value.Data ∧ u.value.same c = true := by
    intro u distinct
    obtain ⟨a, member, same⟩ := Alternative.value_of_mem_dedup distinct
    rw [same]
    exact each a member
  obtain ⟨a, member⟩ := List.exists_mem_of_ne_nil _ some
  obtain ⟨u, distinct, _⟩ := Alternative.exists_mem_dedup member
  obtain ⟨only, single⟩ := Alternative.eq_singleton_of_forall_same data.wellFormed
    (fun u distinct => ⟨(left u distinct).1.wellFormed, (left u distinct).2⟩)
    (Alternative.pairwise_dedup alternatives) (List.ne_nil_of_mem distinct)
  rw [disjoin, flat, single]
  exact left only (by rw [single]; exact List.mem_singleton_self only)

/-- If data overrides every alternative of a disjunction, it overrides the disjunction. -/
theorem overrides_settle {alternatives : List (Alternative Value)} {outcomes : List Outcome}
    (result : Value → Except Conflict Value) (data : c.Data)
    (each : ∀ x ∈ alternatives, Overrides x.value c (result x.value))
    (left : ∀ v, (∃ a ∈ outcomes.filterMap Outcome.alternative?, a.value = v) ↔
      ∃ x ∈ alternatives, result x.value = .ok v) :
    Overrides (disjunction alternatives) c (settle outcomes) := by
  constructor
  · rw [admits_disjunction]
    constructor
    · rintro ⟨v, settled⟩
      obtain ⟨a, member⟩ := List.exists_mem_of_ne_nil _ (settle_eq_ok.mp settled).1
      obtain ⟨x, inside, succeeded⟩ := (left a.value).mp ⟨a, member, rfl⟩
      exact ⟨x, inside, (each x inside).1.mp ⟨_, succeeded⟩⟩
    · rintro ⟨x, inside, admitted⟩
      obtain ⟨v, succeeded⟩ := (each x inside).1.mpr admitted
      obtain ⟨a, member, _⟩ := (left v).mpr ⟨x, inside, succeeded⟩
      exact ⟨_, settle_eq_ok.mpr ⟨List.ne_nil_of_mem member, rfl⟩⟩
  · rintro v settled
    obtain ⟨some, rfl⟩ := settle_eq_ok.mp settled
    refine disjoin_of_same data some fun a member => ?_
    obtain ⟨x, inside, succeeded⟩ := (left a.value).mp ⟨a, member, rfl⟩
    exact (each x inside).2 a.value succeeded

theorem overrides_pairs {items cs : List Value} {result : Value → Value → Except Conflict Value}
    (lengths : items.length = cs.length) (each : ∀ x ∈ items, ∀ c ∈ cs, Overrides x c (result x c)) :
    ((∃ met, List.Forall₂ (fun pair v => result pair.1 pair.2 = .ok v) (items.zip cs) met) ↔
      List.Forall₂ Admits items cs) ∧
    ∀ met, List.Forall₂ (fun pair v => result pair.1 pair.2 = .ok v) (items.zip cs) met →
      List.Forall₂ (fun v c => v.Data ∧ v.same c = true) met cs := by
  induction items generalizing cs with
  | nil =>
    rw [List.eq_nil_of_length_eq_zero (show cs.length = 0 from lengths.symm)]
    simp
  | cons x items ih =>
    obtain _ | ⟨c, cs⟩ := cs
    · cases lengths
    obtain ⟨succeeds, equal⟩ := each x List.mem_cons_self c List.mem_cons_self
    obtain ⟨rest, equals⟩ := ih (Nat.succ.inj lengths) fun x inside c given =>
      each x (List.mem_cons_of_mem _ inside) c (List.mem_cons_of_mem _ given)
    rw [List.zip_cons_cons]
    constructor
    · rw [List.forall₂_cons, ← succeeds, ← rest]
      constructor
      · rintro ⟨met, all⟩
        obtain ⟨v, vs, first, more, rfl⟩ := List.forall₂_cons_left_iff.mp all
        exact ⟨⟨v, first⟩, vs, more⟩
      · rintro ⟨⟨v, first⟩, vs, more⟩
        exact ⟨v :: vs, .cons first more⟩
    · intro met all
      obtain ⟨v, vs, first, more, rfl⟩ := List.forall₂_cons_left_iff.mp all
      exact .cons (equal v first) (equals vs more)

/-- If data overrides the elements of a list one by one, it overrides the list. -/
theorem overrides_items {items cs : List Value} (result : Value → Value → Except Conflict Value)
    {whole : Except Conflict Value} (lengths : items.length = cs.length)
    (each : ∀ x ∈ items, ∀ c ∈ cs, Overrides x c (result x c))
    (succeeds : ∀ v, whole = .ok v ↔
      ∃ met, List.Forall₂ (fun pair v => result pair.1 pair.2 = .ok v) (items.zip cs) met ∧ v = list met) :
    Overrides (list items) (list cs) whole := by
  obtain ⟨pairs, equal⟩ := overrides_pairs lengths each
  constructor
  · rw [admits_list, ← pairs]
    constructor
    · rintro ⟨v, succeeded⟩
      obtain ⟨met, all, _⟩ := (succeeds v).mp succeeded
      exact ⟨met, all⟩
    · rintro ⟨met, all⟩
      exact ⟨_, (succeeds _).mpr ⟨met, all, rfl⟩⟩
  · intro v succeeded
    obtain ⟨met, all, rfl⟩ := (succeeds v).mp succeeded
    have same := equal met all
    refine ⟨.intro trivial fun part inside => ?_, (same_list_iff met cs).mpr (same.imp fun _ _ both => both.2)⟩
    obtain ⟨c, _, data, _⟩ := exists_left_of_mem same.flip inside
    exact data

/-- Values of different shapes clash. -/
theorem overrides_apart (data : c.Data) (plain : d.isPlain = true) (shapes : d.typeName ≠ c.typeName) :
    Overrides d c (d.unify c) ∧ Overrides d c (c.unify d) := by
  have apart : ¬d.Admits c := fun admitted => shapes (typeName_of_admits plain admitted)
  rw [unify_shapes plain data.isPlain shapes, unify_shapes data.isPlain plain shapes.symm]
  exact ⟨overrides_error apart, overrides_error apart⟩

theorem overrides_scalar (data : c.Data) (scalar : d.isScalar = true) :
    Overrides d c (d.unify c) ∧ Overrides d c (c.unify d) := by
  rcases data.cases with scalarC | ⟨items, rfl⟩
  · rw [unify_scalars scalar scalarC, unify_scalars scalarC scalar, same_comm_scalar scalarC]
    split
    · have admitted : d.Admits c := (admits_scalar scalar c).mpr ‹_›
      exact ⟨overrides_equal scalar ‹_›, overrides_self data admitted⟩
    · have apart : ¬d.Admits c := by rwa [admits_scalar scalar]
      exact ⟨overrides_error apart, overrides_error apart⟩
  · refine overrides_apart data ?_ ?_ <;> cases d <;> simp [isScalar, Value.isPlain, typeName] at scalar ⊢

theorem overrides_kind (data : c.Data) (k : Kind) :
    Overrides (kind k) c ((kind k).unify c) ∧ Overrides (kind k) c (c.unify (kind k)) := by
  rw [unify_kind_left k data.isPlain, unify_kind_right k data.isPlain]
  by_cases admits : k.admits c = true
  · rw [if_pos admits, if_pos admits]
    exact ⟨overrides_self data ((admits_kind k c).mpr admits), overrides_self data ((admits_kind k c).mpr admits)⟩
  · have apart : ¬(kind k).Admits c := by rwa [admits_kind]
    rw [if_neg admits, if_neg admits]
    exact ⟨overrides_error apart, overrides_error apart⟩

theorem overrides_list {items : List Value} (data : c.Data)
    (each : ∀ item ∈ items, ∀ {c : Value}, c.Data → Overrides item c (item.unify c) ∧ Overrides item c (c.unify item)) :
    Overrides (list items) c ((list items).unify c) ∧ Overrides (list items) c (c.unify (list items)) := by
  rcases data.cases with scalar | ⟨cs, rfl⟩
  · refine overrides_apart data rfl ?_
    cases c <;> simp [typeName, isScalar] at scalar ⊢
  by_cases lengths : items.length = cs.length
  · refine ⟨overrides_items unify lengths (fun x inside c given => (each x inside (data.item given)).1) fun v => ?_,
      overrides_items (flip unify) lengths (fun x inside c given => (each x inside (data.item given)).2) fun v => ?_⟩
    · rw [unify_lists_eq_ok, and_iff_right lengths]
      simp only [unifyItems_eq_ok]
    · rw [unify_lists_eq_ok, and_iff_right lengths.symm]
      simp only [unifyItems_eq_ok, ← List.zip_swap items cs, List.forall₂_map_left_iff, Prod.fst_swap, Prod.snd_swap]
      rfl
  · have apart : ¬(list items).Admits (list cs) := by
      rw [admits_list]
      exact fun all => lengths all.length_eq
    rw [unify, unify, if_neg lengths, if_neg (Ne.symm lengths)]
    exact ⟨overrides_error apart, overrides_error apart⟩

theorem exists_alternative_pairings {xs ys : List (Alternative Value)} {v : Value} :
    (∃ a ∈ (pairings xs ys).filterMap Outcome.alternative?, a.value = v) ↔
      ∃ x ∈ xs, ∃ y ∈ ys, x.value.unify y.value = .ok v := by
  constructor
  · rintro ⟨a, member, rfl⟩
    obtain ⟨x, left, y, right, unified, _⟩ := mem_alternatives_pairings.mp member
    exact ⟨x, left, y, right, unified⟩
  · rintro ⟨x, left, y, right, unified⟩
    exact ⟨⟨v, _⟩, mem_alternatives_pairings.mpr ⟨x, left, y, right, unified, rfl⟩, rfl⟩

theorem overrides_disjunction {alternatives : List (Alternative Value)} (data : c.Data)
    (each : ∀ x ∈ alternatives, Overrides x.value c (x.value.unify c) ∧ Overrides x.value c (c.unify x.value)) :
    Overrides (disjunction alternatives) c ((disjunction alternatives).unify c) ∧
      Overrides (disjunction alternatives) c (c.unify (disjunction alternatives)) := by
  have own : Alternative.ofValue c = [⟨c, false⟩] := ofValue_single data.single
  rw [unify_disjunction_left alternatives data.known data.single,
    unify_disjunction_right alternatives data.known data.single, own]
  refine ⟨overrides_settle (·.unify c) data (fun x inside => (each x inside).1) fun v => ?_,
    overrides_settle c.unify data (fun x inside => (each x inside).2) fun v => ?_⟩
  · simp only [exists_alternative_pairings, List.mem_singleton, exists_eq_left]
  · simp only [exists_alternative_pairings, List.mem_singleton, exists_eq_left]

end Rules

/-- Data overrides whatever it is unified with, on either side. -/
theorem overrides_unify {c : Value} (data : c.Data) (d : Value) :
    Overrides d c (d.unify c) ∧ Overrides d c (c.unify d) := by
  induction d using parts_induction generalizing c with
  | step d ih =>
    cases d with
    | top =>
      rw [top_unify, unify_top]
      exact ⟨overrides_self data (admits_top c), overrides_self data (admits_top c)⟩
    | kind k => exact overrides_kind data k
    | struct fields =>
      refine overrides_apart data rfl ?_
      rcases data.cases with scalar | ⟨items, rfl⟩
      · cases c <;> simp [typeName, isScalar] at scalar ⊢
      · simp [typeName]
    | list items => exact overrides_list data fun item inside c given => ih item inside given
    | disjunction alternatives =>
      exact overrides_disjunction data fun x inside => ih x.value (List.mem_map_of_mem inside) data
    | _ => exact overrides_scalar data rfl

/-- A constraint unifies with data just if it admits them, and what comes out is the data again: no kind, no
    disjunction and no default of the constraint. -/
theorem data_override_constraint {c : Value} (data : c.Data) (d : Value) :
    ((∃ v, d.unify c = .ok v) ↔ d.Admits c) ∧ ((∃ v, c.unify d = .ok v) ↔ d.Admits c) ∧
      ∀ v, d.unify c = .ok v ∨ c.unify d = .ok v → v.Data ∧ v.same c = true := by
  obtain ⟨⟨succeeds, equal⟩, succeeds', equal'⟩ := overrides_unify data d
  refine ⟨succeeds, succeeds', fun v => ?_⟩
  rintro (left | right)
  · exact equal v left
  · exact equal' v right

/-- Two of three alternatives admit a list, one of them as a default; neither the default nor those inside are left. -/
theorem data_override_constraint_nested :
    let region := disjunction [⟨string "eu-west-1", true⟩, ⟨string "us-east-1", false⟩]
    let d := disjunction [⟨list [region, kind .int], true⟩, ⟨list [kind .string, int 2], false⟩, ⟨struct [], false⟩]
    let c := list [string "us-east-1", int 2]
    c.Data ∧ d.Admits c ∧ ∃ v, d.unify c = .ok v ∧ v.Data ∧ v.same c = true := by
  intro region d c
  have data : c.Data := by
    refine .intro trivial fun part inside => ?_
    rcases List.mem_cons.mp inside with rfl | inside
    · exact Data.of_same_scalar rfl (by simp [same] : (string "us-east-1").same (string "us-east-1") = true)
    · rw [List.mem_singleton.mp inside]
      exact Data.of_same_scalar rfl (by simp [same] : (int 2).same (int 2) = true)
  obtain ⟨succeeds, _, equal⟩ := data_override_constraint data d
  have agree : (d.unify c).toBool = true := by decide +kernel
  cases result : d.unify c with
  | ok v => exact ⟨data, succeeds.mp ⟨v, result⟩, v, rfl, equal v (.inl result)⟩
  | error reason =>
    rw [result] at agree
    exact absurd agree Bool.false_ne_true

end Value

end StackLattice
