import Mathlib.Data.Nat.Init
import StackLattice.Proofs.Value.Proper

/-!
Equality of values up to the positions and the order of fields, and up to the order and the repetition of
alternatives.
-/

namespace StackLattice

namespace Value

/-- Whether two fields are of one kind, and both optional or neither. -/
def SameTraits (x y : Field Value) : Prop := x.kind = y.kind ∧ x.optional = y.optional

/-- The same scalars, fields of the same labels with matching values, matching elements, or alternatives that each
    have one that matches them on the other side. A value that is no disjunction is its own only alternative. -/
inductive Matches : Value → Value → Prop
  | leaf {a b : Value} (left : a.isLeaf = true) (right : b.isLeaf = true) (same : a.same b = true) : Matches a b
  | struct {xs ys : List (Field Value)}
      (traits : ∀ label, Option.Rel SameTraits (Field.find? xs label) (Field.find? ys label))
      (values : ∀ label x y, Field.find? xs label = some x → Field.find? ys label = some y →
        Matches x.value y.value) : Matches (struct xs) (struct ys)
  | list {xs ys : List Value} (lengths : xs.length = ys.length) (items : ∀ pair ∈ xs.zip ys, Matches pair.1 pair.2) :
      Matches (list xs) (list ys)
  | alternatives {a b : Value} (either : a.isDisjunction = true ∨ b.isDisjunction = true)
      (there back : Alternative Value → Alternative Value)
      (goes : ∀ x ∈ Alternative.ofValue a, there x ∈ Alternative.ofValue b ∧ x.marked = (there x).marked)
      (comes : ∀ y ∈ Alternative.ofValue b, back y ∈ Alternative.ofValue a ∧ (back y).marked = y.marked)
      (going : ∀ x ∈ Alternative.ofValue a, Matches x.value (there x).value)
      (coming : ∀ y ∈ Alternative.ofValue b, Matches (back y).value y.value) : Matches a b

def FieldsMatch (x y : Field Value) : Prop := SameTraits x y ∧ x.value.Matches y.value

theorem matches_struct {xs ys : List (Field Value)} : (struct xs).Matches (struct ys) ↔
    ∀ label, Option.Rel FieldsMatch (Field.find? xs label) (Field.find? ys label) := by
  constructor
  · intro h label
    cases h with
    | leaf left => cases left
    | alternatives either => simp [isDisjunction] at either
    | struct traits values => exact rel_imp (traits label) fun x y ofX ofY same => ⟨same, values label x y ofX ofY⟩
  · refine fun h => .struct (fun label => rel_imp (h label) fun _ _ _ _ agree => agree.1) fun label x y ofX ofY => ?_
    have related := h label
    rw [ofX, ofY] at related
    cases related with
    | some agree => exact agree.2

theorem matches_list {xs ys : List Value} :
    (list xs).Matches (list ys) ↔ List.Forall₂ Matches xs ys := by
  rw [List.forall₂_iff_zip]
  constructor
  · intro h
    cases h with
    | leaf left => cases left
    | alternatives either => simp [isDisjunction] at either
    | list lengths items => exact ⟨lengths, fun {x y} member => items (x, y) member⟩
  · exact fun ⟨lengths, items⟩ => .list lengths fun pair member => items member

theorem ofValue_single {v : Value} (single : v.isDisjunction = false) : Alternative.ofValue v = [⟨v, false⟩] := by
  cases v <;> first
    | rfl
    | exact absurd single.symm Bool.false_ne_true

theorem single_of_isLeaf {v : Value} (leaf : v.isLeaf = true) : v.isDisjunction = false := by
  cases v <;> first
    | rfl
    | exact absurd leaf Bool.false_ne_true

/-- Two alternatives of one mark that match. -/
def Counterparts (x y : Alternative Value) : Prop := x.marked = y.marked ∧ x.value.Matches y.value

/-- Values match if each alternative of either has a counterpart among those of the other. -/
theorem matches_iff {a b : Value} : a.Matches b ↔
    (∀ x ∈ Alternative.ofValue a, ∃ y ∈ Alternative.ofValue b, Counterparts x y) ∧
      ∀ y ∈ Alternative.ofValue b, ∃ x ∈ Alternative.ofValue a, Counterparts x y := by
  by_cases either : a.isDisjunction = true ∨ b.isDisjunction = true
  · constructor
    · intro h
      cases h with
      | alternatives _ there back goes comes going coming =>
        exact ⟨fun x member => ⟨there x, (goes x member).1, (goes x member).2, going x member⟩,
          fun y member => ⟨back y, (comes y member).1, (comes y member).2, coming y member⟩⟩
      | leaf left right => simp [single_of_isLeaf left, single_of_isLeaf right] at either
      | _ => simp [isDisjunction] at either
    · rintro ⟨goes, comes⟩
      have : Nonempty (Alternative Value) := ⟨⟨top, false⟩⟩
      choose! there inside going using goes
      choose! back within coming using comes
      exact .alternatives either there back (fun x member => ⟨inside x member, (going x member).1⟩)
        (fun y member => ⟨within y member, (coming y member).1⟩) (fun x member => (going x member).2)
        fun y member => (coming y member).2
  · rw [not_or, Bool.not_eq_true, Bool.not_eq_true] at either
    simp [ofValue_single either.1, ofValue_single either.2, Counterparts]

theorem forall₂_trans {α β γ : Type} {R : α → β → Prop} {S : β → γ → Prop} {T : α → γ → Prop} {xs : List α}
    {ys : List β} {zs : List γ} (first : List.Forall₂ R xs ys) (second : List.Forall₂ S ys zs)
    (step : ∀ x ∈ xs, ∀ y ∈ ys, ∀ z ∈ zs, R x y → S y z → T x z) : List.Forall₂ T xs zs := by
  induction first generalizing zs with
  | nil =>
    cases second
    exact .nil
  | cons head _ ih =>
    cases second with
    | cons head' rest' =>
      refine .cons (step _ List.mem_cons_self _ List.mem_cons_self _ List.mem_cons_self head head') ?_
      exact ih rest' fun x ofX y ofY z ofZ => step x (List.mem_cons_of_mem _ ofX) y (List.mem_cons_of_mem _ ofY) z
        (List.mem_cons_of_mem _ ofZ)

theorem sizeOf_triple_lt {a b c : Value}
    (several : a.isDisjunction = true ∨ b.isDisjunction = true ∨ c.isDisjunction = true) {x y z : Alternative Value}
    (ofA : x ∈ Alternative.ofValue a) (ofB : y ∈ Alternative.ofValue b) (ofC : z ∈ Alternative.ofValue c) :
    sizeOf x.value + sizeOf y.value + sizeOf z.value < sizeOf a + sizeOf b + sizeOf c := by
  have := sizeOf_le_of_mem_ofValue ofA
  have := sizeOf_le_of_mem_ofValue ofB
  have := sizeOf_le_of_mem_ofValue ofC
  rcases several with several | several | several
  · have := sizeOf_lt_of_mem_ofValue several ofA
    omega
  · have := sizeOf_lt_of_mem_ofValue several ofB
    omega
  · have := sizeOf_lt_of_mem_ofValue several ofC
    omega

section Leaves

variable {a b : Value}

theorem same_comm_leaf (leaf : a.isLeaf = true) (b : Value) : a.same b = b.same a := by
  cases scalar : a.isScalar with
  | true => exact same_comm_scalar scalar b
  | false =>
    cases a <;> first
      | exact absurd leaf Bool.false_ne_true
      | exact absurd scalar.symm Bool.false_ne_true
      | (cases b <;> simp only [same, Bool.beq_comm])

theorem same_congr_leaf (leaf : a.isLeaf = true) (h : a.same b = true) (c : Value) : a.same c = b.same c := by
  cases scalar : a.isScalar with
  | true => exact same_congr_scalar scalar h c
  | false =>
    cases a <;> first
      | exact absurd leaf Bool.false_ne_true
      | exact absurd scalar.symm Bool.false_ne_true
      | (cases b <;> first
          | rfl
          | (simp [same] at h; done)
          | (simp only [same, beq_iff_eq] at h; rw [h]))

theorem same_self_leaf (leaf : a.isLeaf = true) (proper : a.Proper) : a.same a = true := by
  cases a <;> first
    | exact absurd leaf Bool.false_ne_true
    | (simp only [same, beq_self_eq_true]; done)
    | (rw [same]; exact Decimal.Binary64.same_self proper.here)

theorem eq_of_not_isScalar (leaf : a.isLeaf = true) (several : a.isScalar = false) : a = top ∨ ∃ k, a = kind k := by
  cases a <;> first
    | exact .inl rfl
    | exact .inr ⟨_, rfl⟩
    | exact absurd leaf Bool.false_ne_true
    | exact absurd several.symm Bool.false_ne_true

theorem eq_of_admits_kinds {k k' : Kind} (agree : ∀ c, (kind k).Admits c ↔ (kind k').Admits c) : k = k' := by
  simp only [admits_kind] at agree
  have ofBool := agree (bool true)
  have ofInt := agree (int 0)
  have ofFloat := agree (float .nan)
  have ofString := agree (string "")
  cases k <;> cases k' <;> first
    | rfl
    | simp [Kind.admits] at ofBool ofInt ofFloat ofString

/-- Top and kinds admit values that are not equal. -/
theorem exists_apart (leaf : a.isLeaf = true) (several : a.isScalar = false) :
    ∃ c d, a.Admits c ∧ a.Admits d ∧ c.same d = false := by
  obtain rfl | ⟨k, rfl⟩ := eq_of_not_isScalar leaf several
  · exact ⟨null, bool true, admits_top _, admits_top _, by decide +kernel⟩
  · simp only [admits_kind]
    cases k with
    | bool => exact ⟨bool true, bool false, rfl, rfl, by decide +kernel⟩
    | int | number => exact ⟨int 0, int 1, rfl, rfl, by decide +kernel⟩
    | float => exact ⟨float .nan, float .nan, rfl, rfl, by decide +kernel⟩
    | string => exact ⟨string "", string "a", rfl, rfl, by decide +kernel⟩

theorem isScalar_of_admits (scalar : a.isScalar = true) (leaf : b.isLeaf = true)
    (agree : ∀ c, b.Admits c → a.Admits c) : b.isScalar = true := by
  cases several : b.isScalar with
  | true => rfl
  | false =>
    obtain ⟨c, d, ofC, ofD, apart⟩ := exists_apart leaf several
    have left := (admits_scalar scalar c).mp (agree c ofC)
    have right := (admits_scalar scalar d).mp (agree d ofD)
    rw [same_congr_scalar scalar left, apart] at right
    cases right

theorem same_of_admits_leaves (left : a.isLeaf = true) (right : b.isLeaf = true) (proper : a.Proper)
    (agree : ∀ c, a.Admits c ↔ b.Admits c) : a.same b = true := by
  cases scalar : a.isScalar with
  | true =>
    have own := (admits_scalar scalar a).mpr (same_self_leaf left proper)
    exact same_of_admits scalar (isScalar_of_admits scalar right fun c => (agree c).mpr) own ((agree a).mp own)
  | false =>
    have several : b.isScalar = false := by
      cases other : b.isScalar with
      | false => rfl
      | true => rw [isScalar_of_admits other left fun c => (agree c).mp] at scalar; cases scalar
    obtain rfl | ⟨k, rfl⟩ := eq_of_not_isScalar left scalar
    · obtain rfl | ⟨k, rfl⟩ := eq_of_not_isScalar right several
      · exact same_self_leaf left proper
      · have impossible := (agree null).mp (admits_top null)
        simp [Kind.admits] at impossible
    · obtain rfl | ⟨k', rfl⟩ := eq_of_not_isScalar right several
      · have impossible := (agree null).mpr (admits_top null)
        simp [Kind.admits] at impossible
      · rw [eq_of_admits_kinds agree]
        exact same_self_leaf left (eq_of_admits_kinds agree ▸ proper)

end Leaves

namespace Matches

variable {a b c : Value}

/-- Values that match and are no disjunctions are equal leaves, two structs or two lists. -/
theorem of_single (h : a.Matches b) (left : a.isDisjunction = false) (right : b.isDisjunction = false) :
    (a.isLeaf = true ∧ b.isLeaf = true ∧ a.same b = true) ∨
      (∃ xs ys, a = .struct xs ∧ b = .struct ys) ∨ ∃ xs ys, a = .list xs ∧ b = .list ys := by
  cases h with
  | leaf left right same => exact .inl ⟨left, right, same⟩
  | struct => exact .inr (.inl ⟨_, _, rfl, rfl⟩)
  | list => exact .inr (.inr ⟨_, _, rfl, rfl⟩)
  | alternatives either => simp [left, right] at either

theorem refl (proper : a.Proper) : a.Matches a := by
  induction a using parts_induction with
  | step a ih =>
    cases a with
    | struct fields =>
      refine matches_struct.mpr fun label => ?_
      cases found : Field.find? fields label with
      | none => exact .none
      | some f =>
        have member := Field.mem_of_find? found
        exact .some ⟨⟨rfl, rfl⟩, ih f.value (List.mem_map_of_mem member) (proper.field member)⟩
    | list items =>
      exact matches_list.mpr (List.forall₂_same.mpr fun item member => ih item member (proper.item member))
    | disjunction alternatives =>
      have each (x : Alternative Value) (member : x ∈ alternatives) : Counterparts x x :=
        ⟨rfl, ih x.value (List.mem_map_of_mem member) (proper.alternative member)⟩
      exact matches_iff.mpr ⟨fun x member => ⟨x, member, each x member⟩, fun x member => ⟨x, member, each x member⟩⟩
    | _ => exact .leaf rfl rfl (same_self_leaf rfl proper)

theorem symm (h : a.Matches b) : b.Matches a := by
  induction h with
  | leaf left right same => exact .leaf right left (same_comm_leaf left _ ▸ same)
  | struct traits values ih =>
    refine .struct (fun label => rel_symm (traits label) fun x y same => ⟨same.1.symm, same.2.symm⟩) ?_
    exact fun label y x ofY ofX => ih label x y ofX ofY
  | @list xs ys lengths items ih =>
    refine matches_list.mpr (List.Forall₂.flip (List.forall₂_iff_zip.mpr ⟨lengths, fun {x y} member => ?_⟩))
    exact ih (x, y) member
  | alternatives either there back goes comes _ _ going coming =>
    exact .alternatives either.symm back there (fun y member => ⟨(comes y member).1, (comes y member).2.symm⟩)
      (fun x member => ⟨(goes x member).1, (goes x member).2.symm⟩) coming going

theorem leaf_right (h : a.Matches b) (left : a.isLeaf = true) (right : b.isDisjunction = false) :
    b.isLeaf = true ∧ a.same b = true := by
  rcases h.of_single (single_of_isLeaf left) right with ⟨_, leaf, same⟩ | ⟨xs, _, rfl, _⟩ | ⟨xs, _, rfl, _⟩
  · exact ⟨leaf, same⟩
  · exact absurd left Bool.false_ne_true
  · exact absurd left Bool.false_ne_true

theorem eq_top (h : top.Matches b) (right : b.isDisjunction = false) : b = top := by
  obtain ⟨_, same⟩ := h.leaf_right rfl right
  cases b <;> first
    | rfl
    | simp [Value.same] at same

theorem eq_struct {xs : List (Field Value)} (h : (Value.struct xs).Matches b) (right : b.isDisjunction = false) :
    ∃ ys, b = .struct ys := by
  rcases h.of_single rfl right with ⟨leaf, _⟩ | ⟨_, ys, _, rfl⟩ | ⟨_, _, impossible, _⟩
  · exact absurd leaf Bool.false_ne_true
  · exact ⟨ys, rfl⟩
  · cases impossible

theorem eq_list {xs : List Value} (h : (Value.list xs).Matches b) (right : b.isDisjunction = false) :
    ∃ ys, b = .list ys := by
  rcases h.of_single rfl right with ⟨leaf, _⟩ | ⟨_, _, impossible, _⟩ | ⟨_, ys, _, rfl⟩
  · exact absurd leaf Bool.false_ne_true
  · cases impossible
  · exact ⟨ys, rfl⟩

theorem trans (first : a.Matches b) (second : b.Matches c) : a.Matches c := by
  induction size : sizeOf a + sizeOf b + sizeOf c using Nat.strong_induction_on generalizing a b c with
  | _ n ih =>
    by_cases several : a.isDisjunction = true ∨ b.isDisjunction = true ∨ c.isDisjunction = true
    · obtain ⟨goes, comes⟩ := matches_iff.mp first
      obtain ⟨goes', comes'⟩ := matches_iff.mp second
      have inside {x y z : Alternative Value} (ofX : x ∈ Alternative.ofValue a) (ofY : y ∈ Alternative.ofValue b)
          (ofZ : z ∈ Alternative.ofValue c) (left : Counterparts x y) (right : Counterparts y z) :
          Counterparts x z := by
        refine ⟨left.1.trans right.1, ih _ ?_ left.2 right.2 rfl⟩
        rw [← size]
        exact sizeOf_triple_lt several ofX ofY ofZ
      refine matches_iff.mpr ⟨fun x ofX => ?_, fun z ofZ => ?_⟩
      · obtain ⟨y, ofY, left⟩ := goes x ofX
        obtain ⟨z, ofZ, right⟩ := goes' y ofY
        exact ⟨z, ofZ, inside ofX ofY ofZ left right⟩
      · obtain ⟨y, ofY, right⟩ := comes' z ofZ
        obtain ⟨x, ofX, left⟩ := comes y ofY
        exact ⟨x, ofX, inside ofX ofY ofZ left right⟩
    · simp only [not_or, Bool.not_eq_true] at several
      obtain ⟨singleA, singleB, singleC⟩ := several
      rcases first.of_single singleA singleB with ⟨leafA, leafB, same⟩ | ⟨xs, ys, rfl, rfl⟩ | ⟨xs, ys, rfl, rfl⟩
      · obtain ⟨leafC, same'⟩ := second.leaf_right leafB singleC
        refine .leaf leafA leafC ?_
        rwa [same_congr_leaf leafA same]
      · obtain ⟨zs, rfl⟩ := second.eq_struct singleC
        · refine matches_struct.mpr fun label => ?_
          refine rel_trans (matches_struct.mp first label) (matches_struct.mp second label) ?_
          intro x y z ofX ofY ofZ agree agree'
          refine ⟨⟨agree.1.1.trans agree'.1.1, agree.1.2.trans agree'.1.2⟩, ih _ ?_ agree.2 agree'.2 rfl⟩
          have := sizeOf_fields_lt (Field.mem_of_find? ofX) (Field.mem_of_find? ofY)
          have := sizeOf_lt_of_mem_parts (v := .struct zs) (List.mem_map_of_mem (Field.mem_of_find? ofZ))
          omega
      · obtain ⟨zs, rfl⟩ := second.eq_list singleC
        · refine matches_list.mpr (forall₂_trans (matches_list.mp first) (matches_list.mp second) ?_)
          intro x ofX y ofY z ofZ left right
          refine ih _ ?_ left right rfl
          have := sizeOf_items_lt ofX ofY
          have := sizeOf_lt_of_mem_parts (v := .list zs) ofZ
          omega

theorem of_same (left : a.WellFormed) (right : b.WellFormed) (h : a.same b = true) : a.Matches b := by
  induction a using parts_induction generalizing b with
  | step a ih =>
    cases a with
    | struct xs =>
      obtain ⟨ys, rfl⟩ := eq_struct_of_same h
      refine matches_struct.mpr fun label => ?_
      have related := find?_of_same left.distinct right.distinct h label
      refine rel_imp related fun x y _ _ ⟨inLeft, inRight, same, traits⟩ => ⟨traits, ?_⟩
      exact ih x.value (List.mem_map_of_mem inLeft) (left.field inLeft) (right.field inRight) same
    | list xs =>
      obtain ⟨ys, rfl⟩ := eq_list_of_same h
      obtain ⟨lengths, agree⟩ := List.forall₂_iff_zip.mp ((same_list_iff xs ys).mp h)
      refine .list lengths fun pair member => ?_
      obtain ⟨inLeft, inRight⟩ := List.of_mem_zip member
      exact ih pair.1 inLeft (left.item inLeft) (right.item inRight) (agree member)
    | disjunction xs =>
      obtain ⟨ys, rfl⟩ := eq_disjunction_of_same h
      have related := (same_disjunction_iff xs ys).mp h
      have each : ∀ x ∈ xs, ∀ y ∈ ys, x.value.same y.value = true ∧ x.marked = y.marked → Counterparts x y :=
        fun x inLeft y inRight same => ⟨same.2, ih x.value (List.mem_map_of_mem inLeft) (left.alternative inLeft)
          (right.alternative inRight) same.1⟩
      refine matches_iff.mpr ⟨fun x inLeft => ?_, fun y inRight => ?_⟩
      · obtain ⟨y, inRight, same⟩ := exists_left_of_mem related.flip inLeft
        exact ⟨y, inRight, each x inLeft y inRight same⟩
      · obtain ⟨x, inLeft, same⟩ := exists_left_of_mem related inRight
        exact ⟨x, inLeft, each x inLeft y inRight same⟩
    | _ =>
      refine .leaf rfl ?_ h
      cases b <;> first | rfl | simp [same] at h

theorem admits_of_admits (h : a.Matches b) (left : a.WellFormed) (right : b.WellFormed) {c : Value}
    (admitted : a.Admits c) : b.Admits c := by
  induction h generalizing c with
  | leaf _ _ same => exact (admits_of_same left right same c).mp admitted
  | @struct xs ys traits _ ih =>
    obtain ⟨given, rfl⟩ := struct_of_admits admitted
    rw [admits_struct] at admitted ⊢
    intro y inRight
    have ofY := right.distinct.find?_of_mem inRight
    have related := traits y.label
    rw [ofY] at related
    cases ofX : Field.find? xs y.label with
    | none =>
      rw [ofX] at related
      cases related
    | some x =>
      rw [ofX] at related
      cases related with
      | some same =>
        have inLeft := Field.mem_of_find? ofX
        obtain ⟨g, found, flags, inside⟩ := admitted x inLeft
        refine ⟨g, ?_, fun optional => same.2 ▸ flags optional, ?_⟩
        · rw [← Field.label_of_find? ofX]
          exact found
        · exact ih _ x y ofX ofY (left.field inLeft) (right.field inRight) inside
  | @list xs ys lengths _ ih =>
    obtain ⟨given, rfl⟩ := list_of_admits admitted
    rw [admits_list] at admitted ⊢
    have related : List.Forall₂ (fun y x => ∀ c, x.Admits c → y.Admits c) ys xs := by
      refine List.Forall₂.flip (List.forall₂_iff_zip.mpr ⟨lengths, fun {x y} member c => ?_⟩)
      obtain ⟨inLeft, inRight⟩ := List.of_mem_zip member
      exact ih (x, y) member (left.item inLeft) (right.item inRight)
    exact forall₂_trans related admitted fun y _ x _ c _ implies inside => implies c inside
  | @alternatives a b _ there _ goes _ _ _ going _ =>
    rw [← holds_ofValue (p := fun v => v.Admits c) (admits_disjunction · c)] at admitted ⊢
    obtain ⟨x, inLeft, inside⟩ := admitted
    have inRight := (goes x inLeft).1
    exact ⟨there x, inRight, going x inLeft (everywhere_of_mem_ofValue left inLeft)
      (everywhere_of_mem_ofValue right inRight) inside⟩

theorem admits (h : a.Matches b) (left : a.WellFormed) (right : b.WellFormed) (c : Value) :
    a.Admits c ↔ b.Admits c :=
  ⟨h.admits_of_admits left right, h.symm.admits_of_admits right left⟩

end Matches

end Value

end StackLattice
