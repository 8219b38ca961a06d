import StackLattice.Proofs.Value.Extent

/-!
Branches of a value: a choice of alternatives wherever there are some, given by the instances it leaves.
Unification intersects the branches of its operands in all ways that leave something, and the order of
operands does not show in that.
-/

namespace StackLattice

open Syntax (LabelKind)

variable {kinds : String → LabelKind}

namespace Value

/-- A set is what one choice of alternatives leaves of the instances. -/
inductive Branch : Value → Set Value → Prop
  | leaf (v : Value) (leaf : v.isLeaf = true) : Branch v {c | v.Admits c}
  | struct (fields : List (Field Value)) (choice : String → Set Value)
      (others : ∀ label, Field.find? fields label = none → choice label = Set.univ)
      (chosen : ∀ label f, Field.find? fields label = some f → Branch f.value (choice label)) :
      Branch (struct fields) (structSet (signature fields) choice)
  | list (items : List Value) (choice : List (Set Value)) (lengths : items.length = choice.length)
      (chosen : ∀ pair ∈ items.zip choice, Branch pair.1 pair.2) : Branch (list items) (listSet choice)
  | disjunction (alternatives : List (Alternative Value)) (a : Alternative Value) (member : a ∈ alternatives)
      (P : Set Value) (chosen : Branch a.value P) : Branch (disjunction alternatives) P

def branches (v : Value) : Set (Set Value) := {P | v.Branch P}

theorem mem_branches {v : Value} {P : Set Value} : P ∈ v.branches ↔ v.Branch P := Iff.rfl

/-- The branches of the field with a label; any other label is not restricted. -/
def allowed (fields : List (Field Value)) (label : String) : Set (Set Value) :=
  match Field.find? fields label with
  | some f => f.value.branches
  | none => {Set.univ}

theorem allowed_of_some {fields : List (Field Value)} {label : String} {f : Field Value}
    (found : Field.find? fields label = some f) : allowed fields label = f.value.branches := by
  rw [allowed, found]

theorem allowed_of_none {fields : List (Field Value)} {label : String}
    (absent : Field.find? fields label = none) : allowed fields label = {Set.univ} := by
  rw [allowed, absent]

theorem branch_leaf {v : Value} (leaf : v.isLeaf = true) (P : Set Value) :
    v.Branch P ↔ P = {c | v.Admits c} := by
  constructor
  · intro h
    cases h <;> first | rfl | exact absurd leaf Bool.false_ne_true
  · rintro rfl
    exact .leaf v leaf

theorem branch_struct (fields : List (Field Value)) (P : Set Value) :
    (struct fields).Branch P ↔ ∃ choice : String → Set Value,
      (∀ label, choice label ∈ allowed fields label) ∧ P = structSet (signature fields) choice := by
  constructor
  · intro h
    cases h with
    | leaf _ leaf => exact absurd leaf Bool.false_ne_true
    | struct _ choice others chosen =>
      refine ⟨choice, fun label => ?_, rfl⟩
      cases found : Field.find? fields label with
      | none =>
        rw [allowed_of_none found]
        exact others label found
      | some f =>
        rw [allowed_of_some found]
        exact chosen label f found
  · rintro ⟨choice, chosen, rfl⟩
    refine .struct fields choice (fun label absent => ?_) fun label f found => ?_
    · have holds := chosen label
      rw [allowed_of_none absent] at holds
      exact holds
    · have holds := chosen label
      rw [allowed_of_some found] at holds
      exact holds

theorem branch_list (items : List Value) (P : Set Value) :
    (list items).Branch P ↔ ∃ choice, List.Forall₂ Branch items choice ∧ P = listSet choice := by
  constructor
  · intro h
    cases h with
    | leaf _ leaf => exact absurd leaf Bool.false_ne_true
    | list _ choice lengths chosen =>
      exact ⟨choice, List.forall₂_iff_zip.mpr ⟨lengths, fun member => chosen _ member⟩, rfl⟩
  · rintro ⟨choice, chosen, rfl⟩
    obtain ⟨lengths, zipped⟩ := List.forall₂_iff_zip.mp chosen
    exact .list items choice lengths fun pair member => zipped member

theorem branch_disjunction (alternatives : List (Alternative Value)) (P : Set Value) :
    (disjunction alternatives).Branch P ↔ ∃ a ∈ alternatives, a.value.Branch P := by
  constructor
  · intro h
    cases h with
    | leaf _ leaf => exact absurd leaf Bool.false_ne_true
    | disjunction _ a member _ chosen => exact ⟨a, member, chosen⟩
  · rintro ⟨a, member, chosen⟩
    exact .disjunction alternatives a member P chosen

/-- Whether the instances of a value are those of its branches. -/
def Branches (v : Value) : Prop := ∀ c, v.Admits c ↔ ∃ P, v.Branch P ∧ c ∈ P

theorem branches_struct {fields : List (Field Value)} (distinct : Field.Distinct fields)
    (inside : ∀ f ∈ fields, f.value.Branches) : (struct fields).Branches := by
  intro c
  constructor
  · intro admitted
    obtain ⟨given, rfl⟩ := struct_of_admits admitted
    rw [admits_struct] at admitted
    have each : ∀ label, ∃ S ∈ allowed fields label, ∀ f, Field.find? fields label = some f →
        ∃ g, Field.find? given label = some g ∧ (g.optional = true → f.optional = true) ∧ g.value ∈ S := by
      intro label
      cases found : Field.find? fields label with
      | none => exact ⟨Set.univ, by rw [allowed_of_none found]; rfl, fun f impossible => by cases impossible⟩
      | some f =>
        obtain ⟨g, inGiven, optional, ofField⟩ := admitted f (Field.mem_of_find? found)
        obtain ⟨S, branch, holds⟩ := (inside f (Field.mem_of_find? found) g.value).mp ofField
        refine ⟨S, by rw [allowed_of_some found]; exact branch, fun x same => ?_⟩
        cases same
        rw [Field.label_of_find? found] at inGiven
        exact ⟨g, inGiven, optional, holds⟩
    choose choice chosen holds using each
    refine ⟨_, (branch_struct fields _).mpr ⟨choice, chosen, rfl⟩, ?_⟩
    rw [mem_structSet_signature distinct]
    exact fun f member => holds f.label f (distinct.find?_of_mem member)
  · rintro ⟨P, branch, holds⟩
    obtain ⟨choice, chosen, rfl⟩ := (branch_struct fields P).mp branch
    obtain ⟨given, rfl, _⟩ := id holds
    rw [mem_structSet_signature distinct] at holds
    rw [admits_struct]
    intro f member
    obtain ⟨g, inGiven, optional, ofField⟩ := holds f member
    have branch := chosen f.label
    rw [allowed_of_some (distinct.find?_of_mem member)] at branch
    exact ⟨g, inGiven, optional, (inside f member g.value).mpr ⟨_, branch, ofField⟩⟩

theorem branches_items {items : List Value} (inside : ∀ x ∈ items, x.Branches) (given : List Value) :
    List.Forall₂ Admits items given ↔
      ∃ choice, List.Forall₂ Branch items choice ∧ List.Forall₂ (fun S x => x ∈ S) choice given := by
  induction items generalizing given with
  | nil => simp
  | cons x items ih =>
    have rest := ih fun y member => inside y (List.mem_cons_of_mem _ member)
    have first := inside x List.mem_cons_self
    simp only [List.forall₂_cons_left_iff, rest, first _]
    constructor
    · rintro ⟨c, cs, ⟨S, branch, holds⟩, ⟨choice, branches, hold⟩, rfl⟩
      exact ⟨S :: choice, ⟨S, choice, branch, branches, rfl⟩, .cons holds hold⟩
    · rintro ⟨_, ⟨S, choice, branch, branches, rfl⟩, holds⟩
      obtain ⟨c, cs, here, hold, rfl⟩ := List.forall₂_cons_left_iff.mp holds
      exact ⟨c, cs, ⟨S, branch, here⟩, ⟨choice, branches, hold⟩, rfl⟩

theorem branches_list {items : List Value} (inside : ∀ x ∈ items, x.Branches) : (list items).Branches := by
  intro c
  constructor
  · intro admitted
    obtain ⟨given, rfl⟩ := list_of_admits admitted
    rw [admits_list, branches_items inside] at admitted
    obtain ⟨choice, branches, holds⟩ := admitted
    exact ⟨_, (branch_list items _).mpr ⟨choice, branches, rfl⟩, (mem_listSet choice given).mpr holds⟩
  · rintro ⟨P, branch, holds⟩
    obtain ⟨choice, branches, rfl⟩ := (branch_list items P).mp branch
    obtain ⟨given, rfl, holds⟩ := holds
    rw [admits_list, branches_items inside]
    exact ⟨choice, branches, holds⟩

theorem branches_disjunction {alternatives : List (Alternative Value)}
    (inside : ∀ a ∈ alternatives, a.value.Branches) : (disjunction alternatives).Branches := by
  intro c
  rw [admits_disjunction]
  simp only [branch_disjunction]
  constructor
  · rintro ⟨a, member, admitted⟩
    obtain ⟨P, branch, holds⟩ := (inside a member c).mp admitted
    exact ⟨P, ⟨a, member, branch⟩, holds⟩
  · rintro ⟨P, ⟨a, member, branch⟩, holds⟩
    exact ⟨a, member, (inside a member c).mpr ⟨P, branch, holds⟩⟩

theorem WellFormed.branches {v : Value} (h : v.WellFormed) : v.Branches := by
  induction v using parts_induction with
  | step v ih =>
    have leaves (leaf : v.isLeaf = true) : v.Branches := by
      intro c
      simp only [branch_leaf leaf, exists_eq_left]
      rfl
    cases v with
    | struct fields =>
      exact branches_struct h.distinct fun f member => ih f.value (List.mem_map_of_mem member) (h.field member)
    | list items => exact branches_list fun x member => ih x member (h.item member)
    | disjunction alternatives =>
      exact branches_disjunction fun a member => ih a.value (List.mem_map_of_mem member) (h.alternative member)
    | _ => exact leaves rfl

theorem Tame.exists_branch {v : Value} (h : v.Tame kinds) : ∃ P, v.Branch P := by
  obtain ⟨c, admitted⟩ := h.exists_instance
  obtain ⟨P, branch, _⟩ := (h.wellFormed.branches c).mp admitted
  exact ⟨P, branch⟩

theorem Branch.nonempty {v : Value} {P : Set Value} (h : v.Branch P) (tame : v.Tame kinds) : P.Nonempty := by
  induction h with
  | leaf v leaf =>
    obtain ⟨c, admitted⟩ := tame.exists_instance
    exact ⟨c, admitted⟩
  | struct fields choice _ _ ih =>
    have distinct := tame.wellFormed.distinct
    exact nonempty_structSet distinct fun f member =>
      ih f.label f (distinct.find?_of_mem member) (tame.field member)
  | list items choice lengths _ ih =>
    refine nonempty_listSet fun S member => ?_
    have seconds : (items.zip choice).map Prod.snd = choice := List.map_snd_zip (le_of_eq lengths.symm)
    rw [← seconds] at member
    obtain ⟨pair, zipped, rfl⟩ := List.mem_map.mp member
    exact ih pair zipped (tame.item (List.of_mem_zip zipped).1)
  | disjunction alternatives a member P _ ih => exact ih (tame.alternative member)

def Alike (a b : Value) : Prop := ∀ P, a.Branch P ↔ b.Branch P

theorem alike_structs {xs ys : List (Field Value)}
    (fields : ∀ label, Option.Rel (fun x y : Field Value => x.value.Alike y.value ∧ x.optional = y.optional)
      (Field.find? xs label) (Field.find? ys label)) : (struct xs).Alike (struct ys) := by
  have same (label : String) :
      signature xs label = signature ys label ∧ allowed xs label = allowed ys label := by
    have related := fields label
    unfold signature allowed
    generalize Field.find? xs label = x, Field.find? ys label = y at related
    cases related with
    | none => exact ⟨rfl, rfl⟩
    | some agree => exact ⟨congrArg some agree.2, Set.ext agree.1⟩
  intro P
  rw [branch_struct, branch_struct, funext fun label => (same label).1]
  simp only [(same _).2]

theorem alike_lists {xs ys : List Value} (items : List.Forall₂ Alike xs ys) : (list xs).Alike (list ys) := by
  intro P
  rw [branch_list, branch_list]
  exact exists_congr fun choice => and_congr_left' (forall₂_congr_left items (fun _ _ _ _ alike => alike) choice)

theorem alike_disjunctions {xs ys : List (Alternative Value)}
    (alternatives : List.Forall₂ (fun x y => x.value.Alike y.value) xs ys) :
    (disjunction xs).Alike (disjunction ys) := by
  intro P
  rw [branch_disjunction, branch_disjunction]
  induction alternatives with
  | nil => rfl
  | cons first _ ih =>
    rw [List.exists_mem_cons_iff, List.exists_mem_cons_iff]
    exact or_congr (first P) ih

theorem alike_leaves {a b : Value} (left : a.isLeaf = true) (right : b.isLeaf = true)
    (same : ∀ c, a.Admits c ↔ b.Admits c) : a.Alike b := by
  intro P
  rw [branch_leaf left, branch_leaf right]
  simp only [same]

theorem alike_of_same {a b : Value} (left : a.WellFormed) (right : b.WellFormed) (h : a.same b = true) :
    a.Alike b := by
  induction a using parts_induction generalizing b with
  | step a ih =>
    have leaves (leaf : a.isLeaf = true) : a.Alike b := by
      have other : b.isLeaf = true := by
        cases a <;> cases b <;> first | rfl | exact absurd leaf Bool.false_ne_true | simp [same] at h
      exact alike_leaves leaf other (admits_of_same left right h)
    cases a with
    | struct xs =>
      obtain ⟨ys, rfl⟩ := eq_struct_of_same h
      refine alike_structs fun label => ?_
      have related := find?_of_same left.distinct right.distinct h label
      generalize Field.find? xs label = x, Field.find? ys label = y at related
      cases related with
      | none => exact .none
      | @some x y agree =>
        obtain ⟨inLeft, inRight, same, _, optional⟩ := agree
        have inside := ih x.value (List.mem_map_of_mem inLeft) (left.field inLeft) (right.field inRight) same
        exact .some ⟨inside, optional⟩
    | list xs =>
      obtain ⟨ys, rfl⟩ := eq_list_of_same h
      obtain ⟨lengths, agree⟩ := List.forall₂_iff_zip.mp ((same_list_iff xs ys).mp h)
      refine alike_lists (List.forall₂_iff_zip.mpr ⟨lengths, fun {x y} member => ?_⟩)
      obtain ⟨inLeft, inRight⟩ := List.of_mem_zip member
      exact ih x inLeft (left.item inLeft) (right.item inRight) (agree member)
    | disjunction xs =>
      obtain ⟨ys, rfl⟩ := eq_disjunction_of_same h
      obtain ⟨lengths, agree⟩ := List.forall₂_iff_zip.mp ((same_disjunction_iff xs ys).mp h)
      refine alike_disjunctions (List.forall₂_iff_zip.mpr ⟨lengths, fun {x y} member => ?_⟩)
      obtain ⟨inLeft, inRight⟩ := List.of_mem_zip member
      exact ih x.value (List.mem_map_of_mem inLeft) (left.alternative inLeft) (right.alternative inRight)
        (agree member).1
    | _ => exact leaves rfl

end Value

end StackLattice
