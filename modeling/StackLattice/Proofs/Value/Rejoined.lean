import StackLattice.Proofs.Value.Matching
import StackLattice.Proofs.Value.Meet

/-!
Unification does not depend on the order and the grouping of its operands, up to the order and the repetition of
alternatives. Without marks, what two values unify to has an alternative for each pair of theirs that unifies.
-/

namespace StackLattice

open Syntax (LabelKind)

variable {kinds : String → LabelKind}

namespace Value

section Joining

variable {a b v : Value}

theorem top_unify (b : Value) : top.unify b = .ok b := by
  rw [unify]

theorem unify_top (a : Value) : a.unify top = .ok a := by
  cases a <;> rw [unify] <;> simp

/-- What becomes of the fields of one label in two structs. -/
inductive FieldJoins : Option (Field Value) → Option (Field Value) → Option (Field Value) → Prop
  | left (x : Option (Field Value)) : FieldJoins x none x
  | right (y : Option (Field Value)) : FieldJoins none y y
  | both (x y : Field Value) (v : Value) (unified : x.value.unify y.value = .ok v) :
      FieldJoins (some x) (some y) (some (joinField x y v))

namespace FieldJoins

variable {x y z w : Option (Field Value)}

theorem none_left (h : FieldJoins none y z) : z = y := by cases h <;> rfl

theorem none_right (h : FieldJoins x none z) : z = x := by cases h <;> rfl

theorem unique (h : FieldJoins x y z) (h' : FieldJoins x y w) : z = w := by
  cases h with
  | left => rw [h'.none_right]
  | right => rw [h'.none_left]
  | both x y v unified =>
    cases h' with
    | both _ _ v' unified' =>
      rw [unified] at unified'
      cases unified'
      rfl

end FieldJoins

theorem fieldJoins_merged {xs ys met : List (Field Value)} (h : unifyFields xs ys = .ok met) (label : String) :
    FieldJoins (Field.find? xs label) (Field.find? ys label) (Field.find? (mergeFields xs met) label) := by
  have fields := find?_merged h label
  generalize Field.find? xs label = x, Field.find? ys label = y at fields ⊢
  cases x with
  | none =>
    rw [show Field.find? (mergeFields xs met) label = y by simpa using fields]
    exact .right y
  | some x =>
    cases y with
    | none =>
      rw [show Field.find? (mergeFields xs met) label = some x by simpa using fields]
      exact .left _
    | some y =>
      obtain ⟨v, unified, found⟩ := fields
      rw [found]
      exact .both x y v unified

/-- What becomes of the elements of two lists. -/
inductive ItemsJoin : List Value → List Value → List Value → Prop
  | nil : ItemsJoin [] [] []
  | cons {x y v : Value} {xs ys vs : List Value} (first : x.unify y = .ok v) (rest : ItemsJoin xs ys vs) :
      ItemsJoin (x :: xs) (y :: ys) (v :: vs)

theorem itemsJoin_of_unifyItems {index : Nat} {xs ys vs : List Value} (lengths : xs.length = ys.length)
    (h : unifyItems index xs ys = .ok vs) : ItemsJoin xs ys vs := by
  rw [unifyItems_eq_ok] at h
  induction xs generalizing ys vs with
  | nil =>
    rw [List.eq_nil_of_length_eq_zero lengths.symm] at h ⊢
    cases h
    exact .nil
  | cons x xs ih =>
    obtain _ | ⟨y, ys⟩ := ys
    · cases lengths
    cases h with
    | cons first rest => exact .cons first (ih (Nat.succ.inj lengths) rest)

/-- How unification succeeds. -/
inductive Joins : Value → Value → Value → Prop
  | topLeft (b : Value) : Joins top b b
  | topRight (a : Value) : Joins a top a
  | alternatives (a b v : Value) (left : a ≠ top) (right : b ≠ top)
      (either : a.isDisjunction = true ∨ b.isDisjunction = true)
      (settled : settle (pairings (Alternative.ofValue a) (Alternative.ofValue b)) = .ok v) : Joins a b v
  | leaves (a b v : Value) (left : a.isLeaf = true) (right : b.isLeaf = true) (leaf : v.isLeaf = true) : Joins a b v
  | structs (xs ys zs : List (Field Value)) (fields : ∀ label,
      FieldJoins (Field.find? xs label) (Field.find? ys label) (Field.find? zs label)) :
      Joins (struct xs) (struct ys) (struct zs)
  | lists (xs ys vs : List Value) (items : ItemsJoin xs ys vs) : Joins (list xs) (list ys) (list vs)

theorem isLeaf_of_kind_admits {k : Kind} (admits : k.admits v = true) : v.isLeaf = true := by
  cases k <;> cases v <;> first
    | rfl
    | exact absurd admits Bool.false_ne_true

theorem isLeaf_of_isScalar (scalar : v.isScalar = true) : v.isLeaf = true := by
  cases v <;> first
    | rfl
    | exact absurd scalar Bool.false_ne_true

theorem joins_of_unify (h : a.unify b = .ok v) : Joins a b v := by
  have rule := unify_rule a b
  generalize a.unify b = r at h rule
  cases rule with
  | topLeft => cases h; exact .topLeft _
  | topRight => cases h; exact .topRight _
  | alternatives _ _ left right either => exact .alternatives a b v left right either h
  | structs xs ys met fields => cases h; exact .structs xs ys _ (fieldJoins_merged fields)
  | lists xs ys met lengths items => cases h; exact .lists xs ys met (itemsJoin_of_unifyItems lengths items)
  | kinds => cases h; exact .leaves _ _ _ rfl rfl rfl
  | kindLeft k _ plain admits =>
    cases h
    have leaf := isLeaf_of_kind_admits admits
    exact .leaves _ _ _ rfl leaf leaf
  | kindRight _ k plain admits =>
    cases h
    have leaf := isLeaf_of_kind_admits admits
    exact .leaves _ _ _ leaf rfl leaf
  | equal _ _ left right =>
    cases h
    exact .leaves _ _ _ (isLeaf_of_isScalar left) (isLeaf_of_isScalar right) (isLeaf_of_isScalar left)
  | _ => cases h

theorem single_of_unify (left : a.isDisjunction = false) (right : b.isDisjunction = false) (h : a.unify b = .ok v) :
    v.isDisjunction = false := by
  cases joins_of_unify h with
  | topLeft => exact right
  | topRight => exact left
  | alternatives _ _ _ _ _ either => simp [left, right] at either
  | leaves _ _ _ _ _ leaf => exact single_of_isLeaf leaf
  | structs | lists => rfl

theorem isLeaf_of_unify (left : a.isLeaf = true) (right : b.isLeaf = true) (h : a.unify b = .ok v) :
    v.isLeaf = true := by
  cases joins_of_unify h with
  | topLeft => exact right
  | topRight => exact left
  | alternatives _ _ _ _ _ either => simp [single_of_isLeaf left, single_of_isLeaf right] at either
  | leaves _ _ _ _ _ leaf => exact leaf
  | structs | lists => exact absurd left Bool.false_ne_true

end Joining

section Offering

variable {a b c v : Value}

/-- A value has an alternative that matches this one. -/
inductive Offers (c : Value) : Value → Prop
  | single {v : Value} (single : v.isDisjunction = false) (same : c.Matches v) : Offers c v
  | alternative {alternatives : List (Alternative Value)} {a : Alternative Value} (member : a ∈ alternatives)
      (chosen : Offers c a.value) : Offers c (disjunction alternatives)

theorem offers_single (single : v.isDisjunction = false) : Offers c v ↔ c.Matches v := by
  constructor
  · intro h
    cases h with
    | single _ same => exact same
    | alternative => cases single
  · exact .single single

theorem offers_disjunction (alternatives : List (Alternative Value)) :
    Offers c (disjunction alternatives) ↔ ∃ a ∈ alternatives, Offers c a.value := by
  constructor
  · intro h
    cases h with
    | single single => cases single
    | alternative member chosen => exact ⟨_, member, chosen⟩
  · rintro ⟨a, member, chosen⟩
    exact .alternative member chosen

theorem Tame.single_of_mem (h : v.Tame kinds) {u : Alternative Value} (member : u ∈ Alternative.ofValue v) :
    u.value.isDisjunction = false := by
  cases several : v.isDisjunction with
  | false =>
    rw [ofValue_single several, List.mem_singleton] at member
    rwa [member]
  | true =>
    cases v <;> first
      | exact absurd several Bool.false_ne_true
      | exact Separate.single h.here u member

theorem Tame.unmarked_of_mem (h : v.Tame kinds) {u : Alternative Value} (member : u ∈ Alternative.ofValue v) :
    u.marked = false := by
  cases several : v.isDisjunction with
  | false =>
    rw [ofValue_single several, List.mem_singleton] at member
    rw [member]
  | true =>
    cases v <;> first
      | exact absurd several Bool.false_ne_true
      | exact Separate.unmarked h.here u member

theorem Tame.of_mem (h : v.Tame kinds) {u : Alternative Value} (member : u ∈ Alternative.ofValue v) :
    u.value.Tame kinds := everywhere_of_mem_ofValue h member

theorem Tame.offers_iff (h : v.Tame kinds) :
    Offers c v ↔ ∃ u ∈ Alternative.ofValue v, c.Matches u.value := by
  rw [← holds_ofValue (p := Offers c) offers_disjunction v]
  refine exists_congr fun u => and_congr_right fun member => ?_
  exact offers_single (h.single_of_mem member)

/-- Values match if they have the same alternatives. -/
theorem Tame.matches_iff (left : a.Tame kinds) (right : b.Tame kinds) :
    a.Matches b ↔ ∀ c, Offers c a ↔ Offers c b := by
  constructor
  · intro h c
    obtain ⟨goes, comes⟩ := Value.matches_iff.mp h
    rw [left.offers_iff, right.offers_iff]
    constructor
    · rintro ⟨x, member, same⟩
      obtain ⟨y, inside, agree⟩ := goes x member
      exact ⟨y, inside, same.trans agree.2⟩
    · rintro ⟨y, member, same⟩
      obtain ⟨x, inside, agree⟩ := comes y member
      exact ⟨x, inside, same.trans agree.2.symm⟩
  · intro h
    refine Value.matches_iff.mpr ⟨fun x member => ?_, fun y member => ?_⟩
    · have own := left.offers_iff.mpr ⟨x, member, .refl (left.of_mem member).proper⟩
      obtain ⟨y, inside, same⟩ := right.offers_iff.mp ((h x.value).mp own)
      exact ⟨y, inside, (left.unmarked_of_mem member).trans (right.unmarked_of_mem inside).symm, same⟩
    · have own := right.offers_iff.mpr ⟨y, member, .refl (right.of_mem member).proper⟩
      obtain ⟨x, inside, same⟩ := left.offers_iff.mp ((h y.value).mpr own)
      exact ⟨x, inside, (left.unmarked_of_mem inside).trans (right.unmarked_of_mem member).symm, same.symm⟩

theorem offers_disjoin {alternatives : List (Alternative Value)} (each : ∀ a ∈ alternatives, a.value.Tame kinds) :
    Offers c (disjoin alternatives) ↔ ∃ a ∈ alternatives, Offers c a.value := by
  refine holds_disjoin offers_disjunction fun i left j right same => ?_
  have tameI : i.value.Tame kinds := everywhere_of_mem_flatMap each left
  have tameJ : j.value.Tame kinds := everywhere_of_mem_flatMap each right
  exact ((Tame.matches_iff tameI tameJ).mp (.of_same tameI.wellFormed tameJ.wellFormed same) c).mpr

/-- What two values unify to has the alternatives that pairs of theirs unify to. -/
theorem offers_unify (left : a.Tame kinds) (right : b.Tame kinds) (h : a.unify b = .ok v) :
    Offers c v ↔ ∃ x ∈ Alternative.ofValue a, ∃ y ∈ Alternative.ofValue b, ∃ w,
      x.value.unify y.value = .ok w ∧ c.Matches w := by
  have pairs : (∃ x ∈ Alternative.ofValue a, ∃ y ∈ Alternative.ofValue b, ∃ w,
      x.value.unify y.value = .ok w ∧ Offers c w) ↔ ∃ x ∈ Alternative.ofValue a, ∃ y ∈ Alternative.ofValue b, ∃ w,
      x.value.unify y.value = .ok w ∧ c.Matches w := by
    refine exists_congr fun x => and_congr_right fun inLeft => exists_congr fun y => and_congr_right fun inRight => ?_
    refine exists_congr fun w => and_congr_right fun unified => ?_
    exact offers_single (single_of_unify (left.single_of_mem inLeft) (right.single_of_mem inRight) unified)
  rw [← pairs]
  cases joins_of_unify h with
  | topLeft => simp [ofValue_single (v := top) rfl, top_unify, holds_ofValue (p := Offers c) offers_disjunction]
  | topRight => simp [ofValue_single (v := top) rfl, unify_top, holds_ofValue (p := Offers c) offers_disjunction]
  | alternatives _ _ _ _ _ _ settled =>
    rw [← holds_settle (p := Offers c), settled]
    · simp
    · intro alternatives each
      have tame (u : Alternative Value) (member : u ∈ alternatives) : u.value.Tame kinds := by
        obtain ⟨x, inLeft, y, inRight, unified⟩ := each u member
        exact tame_unify (left.of_mem inLeft) (right.of_mem inRight) unified
      exact offers_disjoin tame
  | leaves _ _ _ leafA leafB =>
    simp [ofValue_single (single_of_isLeaf leafA), ofValue_single (single_of_isLeaf leafB), h]
  | structs | lists => simp [Alternative.ofValue, h]

end Offering

/-- Tame values that match. -/
structure Twins (kinds : String → LabelKind) (a a' : Value) : Prop where
  left : a.Tame kinds
  right : a'.Tame kinds
  same : a.Matches a'

namespace Twins

variable {a b a' b' v v' : Value}

theorem refl (tame : a.Tame kinds) : Twins kinds a a := ⟨tame, tame, .refl tame.proper⟩

theorem symm (h : Twins kinds a a') : Twins kinds a' a := ⟨h.right, h.left, h.same.symm⟩

theorem exists_alternative (h : Twins kinds a a') {x : Alternative Value} (member : x ∈ Alternative.ofValue a) :
    ∃ y ∈ Alternative.ofValue a', Twins kinds x.value y.value := by
  obtain ⟨y, inside, same⟩ := (Value.matches_iff.mp h.same).1 x member
  exact ⟨y, inside, h.left.of_mem member, h.right.of_mem inside, same.2⟩

theorem admits (h : Twins kinds a a') (c : Value) : a.Admits c ↔ a'.Admits c :=
  h.same.admits h.left.wellFormed h.right.wellFormed c

theorem field {xs ys : List (Field Value)} (h : Twins kinds (struct xs) (struct ys)) (label : String) :
    Option.Rel (fun x y => (x ∈ xs ∧ y ∈ ys) ∧ (x.kind = kinds label ∧ y.kind = kinds label) ∧
      x.optional = y.optional ∧ Twins kinds x.value y.value) (Field.find? xs label) (Field.find? ys label) := by
  refine rel_imp (matches_struct.mp h.same label) fun x y ofX ofY agree => ?_
  have inLeft := Field.mem_of_find? ofX
  have inRight := Field.mem_of_find? ofY
  refine ⟨⟨inLeft, inRight⟩, ⟨?_, ?_⟩, agree.1.2, h.left.field inLeft, h.right.field inRight, agree.2⟩
  · rw [((tame_struct xs).mp h.left).1.2 x inLeft, Field.label_of_find? ofX]
  · rw [((tame_struct ys).mp h.right).1.2 y inRight, Field.label_of_find? ofY]

theorem items {xs ys : List Value} (h : Twins kinds (list xs) (list ys)) :
    List.Forall₂ (fun x y => (x ∈ xs ∧ y ∈ ys) ∧ Twins kinds x y) xs ys := by
  obtain ⟨lengths, agree⟩ := List.forall₂_iff_zip.mp (matches_list.mp h.same)
  refine List.forall₂_iff_zip.mpr ⟨lengths, fun {x y} member => ?_⟩
  obtain ⟨inLeft, inRight⟩ := List.of_mem_zip member
  exact ⟨⟨inLeft, inRight⟩, h.left.item inLeft, h.right.item inRight, agree member⟩

theorem exists_swapped (left : Twins kinds a a') (right : Twins kinds b b') (h : a.unify b = .ok v) :
    ∃ v', b'.unify a' = .ok v' := by
  obtain ⟨c, ofA, ofB⟩ := (exists_unify_iff left.left.proper right.left.proper).mp ⟨v, h⟩
  exact (exists_unify_iff right.right.proper left.right.proper).mpr ⟨c, (right.admits c).mp ofB, (left.admits c).mp ofA⟩

end Twins

theorem rel_self {fields : List (Field Value)} (proper : (struct fields).Proper) (label : String) :
    Option.Rel FieldsMatch (Field.find? fields label) (Field.find? fields label) :=
  matches_struct.mp (.refl proper) label

section Swapping

variable {a b a' b' v v' : Value}

def Swaps (a b a' b' : Value) : Prop := ∀ v v', a.unify b = .ok v → b'.unify a' = .ok v' → v.Matches v'

theorem swaps_alternatives (left : Twins kinds a a') (right : Twins kinds b b')
    (pairs : ∀ x ∈ Alternative.ofValue a, ∀ y ∈ Alternative.ofValue b, ∀ x' ∈ Alternative.ofValue a',
      ∀ y' ∈ Alternative.ofValue b', Twins kinds x.value x'.value → Twins kinds y.value y'.value →
        Swaps x.value y.value x'.value y'.value) : Swaps a b a' b' := by
  intro v v' h h'
  refine (Tame.matches_iff (tame_unify left.left right.left h) (tame_unify right.right left.right h')).mpr fun c => ?_
  rw [offers_unify left.left right.left h, offers_unify right.right left.right h']
  constructor
  · rintro ⟨x, inA, y, inB, w, unified, same⟩
    obtain ⟨x', inA', twins⟩ := left.exists_alternative inA
    obtain ⟨y', inB', twins'⟩ := right.exists_alternative inB
    obtain ⟨w', unified'⟩ := twins.exists_swapped twins' unified
    have agree := pairs x inA y inB x' inA' y' inB' twins twins' w w' unified unified'
    exact ⟨y', inB', x', inA', w', unified', same.trans agree⟩
  · rintro ⟨y', inB', x', inA', w', unified', same⟩
    obtain ⟨x, inA, twins⟩ := left.symm.exists_alternative inA'
    obtain ⟨y, inB, twins'⟩ := right.symm.exists_alternative inB'
    obtain ⟨w, unified⟩ := twins'.exists_swapped twins unified'
    have agree := pairs x inA y inB x' inA' y' inB' twins.symm twins'.symm w w' unified unified'
    exact ⟨x, inA, y, inB, w, unified, same.trans agree.symm⟩

theorem swaps_leaves (left : Twins kinds a a') (right : Twins kinds b b') (leafA : a.isLeaf = true)
    (leafA' : a'.isLeaf = true) (leafB : b.isLeaf = true) (leafB' : b'.isLeaf = true) : Swaps a b a' b' := by
  intro v v' h h'
  have leaf := isLeaf_of_unify leafA leafB h
  have leaf' := isLeaf_of_unify leafB' leafA' h'
  refine .leaf leaf leaf' (same_of_admits_leaves leaf leaf' (tame_unify left.left right.left h).proper fun c => ?_)
  rw [admits_unify left.left.wellFormed right.left.wellFormed h,
    admits_unify right.right.wellFormed left.right.wellFormed h', left.admits, right.admits, and_comm]

theorem swaps_structs {xs ys xs' ys' : List (Field Value)} (left : Twins kinds (struct xs) (struct xs'))
    (right : Twins kinds (struct ys) (struct ys'))
    (values : ∀ x ∈ xs, ∀ y ∈ ys, ∀ x' ∈ xs', ∀ y' ∈ ys', Twins kinds x.value x'.value →
      Twins kinds y.value y'.value → Swaps x.value y.value x'.value y'.value) :
    Swaps (struct xs) (struct ys) (struct xs') (struct ys') := by
  intro v v' h h'
  obtain ⟨met, fields, rfl⟩ := unify_structs_eq_ok.mp h
  obtain ⟨met', fields', rfl⟩ := unify_structs_eq_ok.mp h'
  refine matches_struct.mpr fun label => ?_
  have joined := fieldJoins_merged fields label
  have joined' := fieldJoins_merged fields' label
  have ofX := left.field label
  have ofY := right.field label
  generalize Field.find? xs label = x, Field.find? xs' label = x', Field.find? ys label = y,
    Field.find? ys' label = y', Field.find? (mergeFields xs met) label = z,
    Field.find? (mergeFields ys' met') label = z' at joined joined' ofX ofY ⊢
  cases ofX with
  | none =>
    cases ofY with
    | none => cases joined <;> cases joined' <;> exact .none
    | some agree =>
      obtain ⟨_, ⟨kind, kind'⟩, optional, twins⟩ := agree
      cases joined
      cases joined'
      exact .some ⟨⟨kind.trans kind'.symm, optional⟩, twins.same⟩
  | some agree =>
    obtain ⟨⟨inX, inX'⟩, ⟨kind, kind'⟩, optional, twins⟩ := agree
    cases ofY with
    | none =>
      cases joined
      cases joined'
      exact .some ⟨⟨kind.trans kind'.symm, optional⟩, twins.same⟩
    | some agree' =>
      obtain ⟨⟨inY, inY'⟩, ⟨_, other⟩, optional', twins'⟩ := agree'
      cases joined with
      | both _ _ w unified =>
        cases joined' with
        | both _ _ w' unified' =>
          refine .some ⟨⟨kind.trans other.symm, ?_⟩, ?_⟩
          · simp only [joinField, optional, optional', Bool.and_comm]
          · exact values _ inX _ inY _ inX' _ inY' twins twins' w w' unified unified'

theorem items_swapped {R S : Value → Value → Prop} {xs ys vs xs' ys' vs' : List Value} (joined : ItemsJoin xs ys vs)
    (joined' : ItemsJoin ys' xs' vs') (left : List.Forall₂ R xs xs') (right : List.Forall₂ S ys ys')
    (step : ∀ x y x' y' v v', R x x' → S y y' → x.unify y = .ok v → y'.unify x' = .ok v' → v.Matches v') :
    List.Forall₂ Matches vs vs' := by
  induction joined generalizing xs' ys' vs' with
  | nil =>
    cases left
    cases right
    cases joined'
    exact .nil
  | cons first _ ih =>
    cases left with
    | cons ofX ofXs =>
      cases right with
      | cons ofY ofYs =>
        cases joined' with
        | cons first' rest' => exact .cons (step _ _ _ _ _ _ ofX ofY first first') (ih rest' ofXs ofYs)

theorem swaps_lists {xs ys xs' ys' : List Value} (left : Twins kinds (list xs) (list xs'))
    (right : Twins kinds (list ys) (list ys')) (values : ∀ x ∈ xs, ∀ y ∈ ys, ∀ x' ∈ xs', ∀ y' ∈ ys',
      Twins kinds x x' → Twins kinds y y' → Swaps x y x' y') : Swaps (list xs) (list ys) (list xs') (list ys') := by
  intro v v' h h'
  obtain ⟨lengths, vs, unified, rfl⟩ := unify_lists_eq_ok.mp h
  obtain ⟨lengths', vs', unified', rfl⟩ := unify_lists_eq_ok.mp h'
  have joined := itemsJoin_of_unifyItems lengths unified
  have joined' := itemsJoin_of_unifyItems lengths' unified'
  refine matches_list.mpr (items_swapped joined joined' left.items right.items ?_)
  intro x y x' y' w w' ⟨⟨inX, inX'⟩, twins⟩ ⟨⟨inY, inY'⟩, twins'⟩ first first'
  exact values x inX y inY x' inX' y' inY' twins twins' w w' first first'

/-- The operands of unification may be replaced with values that match them, and swapped. -/
theorem swaps (left : Twins kinds a a') (right : Twins kinds b b') : Swaps a b a' b' := by
  induction size : sizeOf a + sizeOf b + sizeOf a' + sizeOf b' using Nat.strong_induction_on
    generalizing a b a' b' with
  | _ n ih =>
    subst size
    by_cases several : (a.isDisjunction = true ∨ b.isDisjunction = true) ∨
      a'.isDisjunction = true ∨ b'.isDisjunction = true
    · refine swaps_alternatives left right fun x inA y inB x' inA' y' inB' twins twins' => ih _ ?_ twins twins' rfl
      have := sizeOf_le_of_mem_ofValue inA
      have := sizeOf_le_of_mem_ofValue inB
      have := sizeOf_le_of_mem_ofValue inA'
      have := sizeOf_le_of_mem_ofValue inB'
      rcases several with several | several
      · have := sizeOf_alternatives_lt several inA inB
        omega
      · have := sizeOf_alternatives_lt several inA' inB'
        omega
    · simp only [not_or, Bool.not_eq_true] at several
      obtain ⟨⟨singleA, singleB⟩, singleA', singleB'⟩ := several
      intro v v' h h'
      cases joins_of_unify h with
      | topLeft =>
        rw [left.same.eq_top singleA', unify_top, Except.ok.injEq] at h'
        exact h' ▸ right.same
      | topRight =>
        rw [right.same.eq_top singleB', top_unify, Except.ok.injEq] at h'
        exact h' ▸ left.same
      | alternatives _ _ _ _ _ either => simp [singleA, singleB] at either
      | leaves _ _ _ leafA leafB =>
        have leafA' := (left.same.leaf_right leafA singleA').1
        have leafB' := (right.same.leaf_right leafB singleB').1
        exact swaps_leaves left right leafA leafA' leafB leafB' v v' h h'
      | structs xs ys =>
        obtain ⟨xs', rfl⟩ := left.same.eq_struct singleA'
        obtain ⟨ys', rfl⟩ := right.same.eq_struct singleB'
        refine swaps_structs left right (fun x inX y inY x' inX' y' inY' twins twins' => ?_) _ v' h h'
        refine ih _ ?_ twins twins' rfl
        have := sizeOf_fields_lt inX inY
        have := sizeOf_fields_lt inX' inY'
        omega
      | lists xs ys =>
        obtain ⟨xs', rfl⟩ := left.same.eq_list singleA'
        obtain ⟨ys', rfl⟩ := right.same.eq_list singleB'
        refine swaps_lists left right (fun x inX y inY x' inX' y' inY' twins twins' => ?_) _ v' h h'
        refine ih _ ?_ twins twins' rfl
        have := sizeOf_items_lt inX inY
        have := sizeOf_items_lt inX' inY'
        omega

theorem matches_comm (left : a.Tame kinds) (right : b.Tame kinds) (h : a.unify b = .ok v)
    (h' : b.unify a = .ok v') : v.Matches v' := swaps (.refl left) (.refl right) v v' h h'

/-- The operands of unification may be replaced with values that match them. -/
theorem exists_unify_congr {v : Value} (left : Twins kinds a a') (right : Twins kinds b b') (h : a.unify b = .ok v) :
    ∃ v', a'.unify b' = .ok v' ∧ Twins kinds v v' := by
  obtain ⟨u, swapped⟩ := left.exists_swapped right h
  obtain ⟨v', again⟩ := (Twins.refl right.right).exists_swapped (.refl left.right) swapped
  have tame := tame_unify left.right right.right again
  refine ⟨v', again, tame_unify left.left right.left h, tame, ?_⟩
  exact (swaps left right v u h swapped).trans (swaps (.refl right.right) (.refl left.right) u v' swapped again)

end Swapping

section Regrouping

variable {a b c v : Value}

/-- An alternative of a result is what a pair of alternatives unifies to. -/
theorem exists_pair (left : a.Tame kinds) (right : b.Tame kinds) (h : a.unify b = .ok v) {u : Alternative Value}
    (member : u ∈ Alternative.ofValue v) : ∃ x ∈ Alternative.ofValue a, ∃ y ∈ Alternative.ofValue b, ∃ w,
      x.value.unify y.value = .ok w ∧ Twins kinds u.value w := by
  have tame := tame_unify left right h
  have offered := tame.offers_iff.mpr ⟨u, member, .refl (tame.of_mem member).proper⟩
  obtain ⟨x, inA, y, inB, w, unified, same⟩ := (offers_unify left right h).mp offered
  exact ⟨x, inA, y, inB, w, unified, tame.of_mem member, tame_unify (left.of_mem inA) (right.of_mem inB) unified, same⟩

/-- What a pair of alternatives unifies to is an alternative of the result. -/
theorem exists_result (left : a.Tame kinds) (right : b.Tame kinds) (h : a.unify b = .ok v) {x y : Alternative Value}
    (inA : x ∈ Alternative.ofValue a) (inB : y ∈ Alternative.ofValue b) {w : Value}
    (unified : x.value.unify y.value = .ok w) : ∃ u ∈ Alternative.ofValue v, Twins kinds w u.value := by
  have tame := tame_unify left right h
  have own := tame_unify (left.of_mem inA) (right.of_mem inB) unified
  have offered := (offers_unify left right h).mpr ⟨x, inA, y, inB, w, unified, .refl own.proper⟩
  obtain ⟨u, member, same⟩ := tame.offers_iff.mp offered
  exact ⟨u, member, own, tame.of_mem member, same⟩

/-- Whether the results of unifying three values match, however they are grouped. -/
def Regroups (a b c : Value) : Prop := ∀ ab v bc w, a.unify b = .ok ab → ab.unify c = .ok v →
  b.unify c = .ok bc → a.unify bc = .ok w → v.Matches w

theorem regroups_alternatives (tameA : a.Tame kinds) (tameB : b.Tame kinds) (tameC : c.Tame kinds)
    (triples : ∀ x ∈ Alternative.ofValue a, ∀ y ∈ Alternative.ofValue b, ∀ z ∈ Alternative.ofValue c,
      Regroups x.value y.value z.value) : Regroups a b c := by
  intro ab v bc w first last inner outer
  have tameAB := tame_unify tameA tameB first
  have tameBC := tame_unify tameB tameC inner
  refine (Tame.matches_iff (tame_unify tameAB tameC last) (tame_unify tameA tameBC outer)).mpr fun d => ?_
  rw [offers_unify tameAB tameC last, offers_unify tameA tameBC outer]
  constructor
  · rintro ⟨s, inAB, z, inC, t, unified, same⟩
    obtain ⟨x, inA, y, inB, q, ofXY, twins⟩ := exists_pair tameA tameB first inAB
    obtain ⟨t', ofXYZ, match₁⟩ := exists_unify_congr twins (.refl (tameC.of_mem inC)) unified
    obtain ⟨r, u, ofYZ, ofXR⟩ :=
      exists_regrouped (tameA.of_mem inA).proper (tameB.of_mem inB).proper (tameC.of_mem inC).proper ofXY ofXYZ
    have match₂ := triples x inA y inB z inC q t' r u ofXY ofXYZ ofYZ ofXR
    obtain ⟨r', inBC, twins'⟩ := exists_result tameB tameC inner inB inC ofYZ
    obtain ⟨u', result, match₃⟩ := exists_unify_congr (.refl (tameA.of_mem inA)) twins' ofXR
    exact ⟨x, inA, r', inBC, u', result, ((same.trans match₁.same).trans match₂).trans match₃.same⟩
  · rintro ⟨x, inA, s, inBC, t, unified, same⟩
    obtain ⟨y, inB, z, inC, r, ofYZ, twins⟩ := exists_pair tameB tameC inner inBC
    obtain ⟨t', ofXR, match₁⟩ := exists_unify_congr (.refl (tameA.of_mem inA)) twins unified
    obtain ⟨q, u, ofXY, ofXYZ⟩ :=
      exists_ungrouped (tameA.of_mem inA).proper (tameB.of_mem inB).proper (tameC.of_mem inC).proper ofYZ ofXR
    have match₂ := triples x inA y inB z inC q u r t' ofXY ofXYZ ofYZ ofXR
    obtain ⟨q', inAB, twins'⟩ := exists_result tameA tameB first inA inB ofXY
    obtain ⟨u', result, match₃⟩ := exists_unify_congr twins' (.refl (tameC.of_mem inC)) ofXYZ
    exact ⟨q', inAB, z, inC, u', result, ((same.trans match₁.same).trans match₂.symm).trans match₃.same⟩

theorem regroups_leaves (properA : a.Proper) (properB : b.Proper) (properC : c.Proper)
    (leafA : a.isLeaf = true) (leafB : b.isLeaf = true) (leafC : c.isLeaf = true) : Regroups a b c := by
  intro ab v bc w first last inner outer
  have properAB := proper_unify properA properB first
  have properBC := proper_unify properB properC inner
  have leaf := isLeaf_of_unify (isLeaf_of_unify leafA leafB first) leafC last
  have leaf' := isLeaf_of_unify leafA (isLeaf_of_unify leafB leafC inner) outer
  refine .leaf leaf leaf' (same_of_admits_leaves leaf leaf' (proper_unify properAB properC last) fun i => ?_)
  rw [admits_unify properAB.wellFormed properC.wellFormed last,
    admits_unify properA.wellFormed properBC.wellFormed outer,
    admits_unify properA.wellFormed properB.wellFormed first,
    admits_unify properB.wellFormed properC.wellFormed inner, and_assoc]

theorem regroups_structs {xs ys zs : List (Field Value)} (properX : (struct xs).Proper)
    (properY : (struct ys).Proper) (properZ : (struct zs).Proper)
    (values : ∀ x ∈ xs, ∀ y ∈ ys, ∀ z ∈ zs, Regroups x.value y.value z.value) :
    Regroups (struct xs) (struct ys) (struct zs) := by
  intro ab v bc w first last inner outer
  obtain ⟨met₁, fields₁, rfl⟩ := unify_structs_eq_ok.mp first
  obtain ⟨met₂, fields₂, rfl⟩ := unify_structs_eq_ok.mp last
  obtain ⟨met₃, fields₃, rfl⟩ := unify_structs_eq_ok.mp inner
  obtain ⟨met₄, fields₄, rfl⟩ := unify_structs_eq_ok.mp outer
  refine matches_struct.mpr fun label => ?_
  have joined₁ := fieldJoins_merged fields₁ label
  have joined₂ := fieldJoins_merged fields₂ label
  have joined₃ := fieldJoins_merged fields₃ label
  have joined₄ := fieldJoins_merged fields₄ label
  have proper := proper_unify (proper_unify properX properY first) properZ last
  have ofX x (found : Field.find? xs label = some x) := Field.mem_of_find? found
  have ofY y (found : Field.find? ys label = some y) := Field.mem_of_find? found
  have ofZ z (found : Field.find? zs label = some z) := Field.mem_of_find? found
  have own := rel_self proper label
  generalize Field.find? xs label = x, Field.find? ys label = y, Field.find? zs label = z,
    Field.find? (mergeFields xs met₁) label = q, Field.find? (mergeFields (mergeFields xs met₁) met₂) label = s,
    Field.find? (mergeFields ys met₃) label = r,
    Field.find? (mergeFields xs met₄) label = t at joined₁ joined₂ joined₃ joined₄ ofX ofY ofZ own ⊢
  cases joined₁ with
  | left =>
    cases joined₃.none_left
    cases joined₂.unique joined₄
    exact own
  | right =>
    cases joined₂.unique joined₃
    cases joined₄.none_left
    exact own
  | both x y v₁ unified₁ =>
    cases joined₂ with
    | left =>
      cases joined₃.none_right
      cases (FieldJoins.both x y v₁ unified₁).unique joined₄
      exact own
    | both _ z v₂ unified₂ =>
      cases joined₃ with
      | both _ _ v₃ unified₃ =>
        cases joined₄ with
        | both _ _ v₄ unified₄ =>
          refine .some ⟨⟨rfl, ?_⟩, ?_⟩
          · simp only [joinField, Bool.and_assoc]
          · exact values x (ofX x rfl) y (ofY y rfl) z (ofZ z rfl) v₁ v₂ v₃ v₄ unified₁ unified₂ unified₃ unified₄

theorem items_regrouped {xs ys zs qs ss rs ts : List Value} (joined₁ : ItemsJoin xs ys qs)
    (joined₂ : ItemsJoin qs zs ss) (joined₃ : ItemsJoin ys zs rs) (joined₄ : ItemsJoin xs rs ts)
    (values : ∀ x ∈ xs, ∀ y ∈ ys, ∀ z ∈ zs, Regroups x y z) : List.Forall₂ Matches ss ts := by
  induction joined₁ generalizing zs ss rs ts with
  | nil =>
    cases joined₂
    cases joined₄
    exact .nil
  | cons first _ ih =>
    cases joined₂ with
    | cons second joined₂ =>
      cases joined₃ with
      | cons third joined₃ =>
        cases joined₄ with
        | cons fourth joined₄ =>
          refine .cons ?_ (ih joined₂ joined₃ joined₄ fun x inX y inY z inZ => ?_)
          · exact values _ List.mem_cons_self _ List.mem_cons_self _ List.mem_cons_self _ _ _ _ first second third fourth
          · exact values x (List.mem_cons_of_mem _ inX) y (List.mem_cons_of_mem _ inY) z (List.mem_cons_of_mem _ inZ)

theorem regroups_lists {xs ys zs : List Value} (values : ∀ x ∈ xs, ∀ y ∈ ys, ∀ z ∈ zs, Regroups x y z) :
    Regroups (list xs) (list ys) (list zs) := by
  intro ab v bc w first last inner outer
  obtain ⟨lengths₁, qs, unified₁, rfl⟩ := unify_lists_eq_ok.mp first
  obtain ⟨lengths₂, ss, unified₂, rfl⟩ := unify_lists_eq_ok.mp last
  obtain ⟨lengths₃, rs, unified₃, rfl⟩ := unify_lists_eq_ok.mp inner
  obtain ⟨lengths₄, ts, unified₄, rfl⟩ := unify_lists_eq_ok.mp outer
  exact matches_list.mpr (items_regrouped (itemsJoin_of_unifyItems lengths₁ unified₁)
    (itemsJoin_of_unifyItems lengths₂ unified₂) (itemsJoin_of_unifyItems lengths₃ unified₃)
    (itemsJoin_of_unifyItems lengths₄ unified₄) values)

theorem regroups_top (properA : a.Proper) (properB : b.Proper) (properC : c.Proper)
    (someTop : a = top ∨ b = top ∨ c = top) : Regroups a b c := by
  intro ab v bc w first last inner outer
  have same : v = w := by
    rcases someTop with rfl | rfl | rfl
    · rw [top_unify, Except.ok.injEq] at first outer
      rw [← first, inner, Except.ok.injEq] at last
      exact last.symm.trans outer
    · rw [unify_top, Except.ok.injEq] at first
      rw [top_unify, Except.ok.injEq] at inner
      rw [← first, inner, outer, Except.ok.injEq] at last
      exact last.symm
    · rw [unify_top, Except.ok.injEq] at last inner
      rw [← inner, first, Except.ok.injEq] at outer
      exact last.symm.trans outer
  exact same ▸ .refl (proper_unify (proper_unify properA properB first) properC last)

/-- The grouping of operands that are no disjunctions does not show in the result, if that of their parts does not. -/
theorem regroups_single (properA : a.Proper) (properB : b.Proper) (properC : c.Proper)
    (singleA : a.isDisjunction = false) (singleB : b.isDisjunction = false) (singleC : c.isDisjunction = false)
    (inside : ∀ x ∈ a.parts, ∀ y ∈ b.parts, ∀ z ∈ c.parts, Regroups x y z) : Regroups a b c := by
  by_cases someTop : a = top ∨ b = top ∨ c = top
  · exact regroups_top properA properB properC someTop
  simp only [not_or] at someTop
  obtain ⟨_, _, last⟩ := someTop
  intro ab v bc w h₁ h₂ h₃ h₄
  cases joins_of_unify h₁ with
  | topLeft | topRight => contradiction
  | alternatives _ _ _ _ _ either => simp [singleA, singleB] at either
  | leaves _ _ _ leafA leafB =>
    have leafC : c.isLeaf = true := by
      cases joins_of_unify h₃ with
      | topLeft | topRight => contradiction
      | alternatives _ _ _ _ _ either => simp [singleB, singleC] at either
      | leaves _ _ _ _ leaf => exact leaf
      | structs | lists => exact absurd leafB Bool.false_ne_true
    exact regroups_leaves properA properB properC leafA leafB leafC ab v bc w h₁ h₂ h₃ h₄
  | structs xs ys =>
    cases joins_of_unify h₃ with
    | topRight => contradiction
    | alternatives _ _ _ _ _ either => simp [singleB, singleC] at either
    | leaves _ _ _ leaf => exact absurd leaf Bool.false_ne_true
    | structs _ zs =>
      refine regroups_structs properA properB properC (fun x inX y inY z inZ => ?_) _ v _ w h₁ h₂ h₃ h₄
      exact inside _ (List.mem_map_of_mem inX) _ (List.mem_map_of_mem inY) _ (List.mem_map_of_mem inZ)
  | lists xs ys =>
    cases joins_of_unify h₃ with
    | topRight => contradiction
    | alternatives _ _ _ _ _ either => simp [singleB, singleC] at either
    | leaves _ _ _ leaf => exact absurd leaf Bool.false_ne_true
    | lists _ zs => exact regroups_lists inside _ v _ w h₁ h₂ h₃ h₄

/-- The grouping of the operands of unification does not show in the result. -/
theorem regroups (tameA : a.Tame kinds) (tameB : b.Tame kinds) (tameC : c.Tame kinds) : Regroups a b c := by
  induction size : sizeOf a + sizeOf b + sizeOf c using Nat.strong_induction_on generalizing a b c with
  | _ n ih =>
    subst size
    by_cases several : a.isDisjunction = true ∨ b.isDisjunction = true ∨ c.isDisjunction = true
    · refine regroups_alternatives tameA tameB tameC fun x inA y inB z inC => ?_
      exact ih _ (sizeOf_triple_lt several inA inB inC) (tameA.of_mem inA) (tameB.of_mem inB) (tameC.of_mem inC) rfl
    simp only [not_or, Bool.not_eq_true] at several
    obtain ⟨singleA, singleB, singleC⟩ := several
    refine regroups_single tameA.proper tameB.proper tameC.proper singleA singleB singleC fun x inA y inB z inC => ?_
    refine ih _ ?_ (tameA.inside x inA) (tameB.inside y inB) (tameC.inside z inC) rfl
    have := sizeOf_lt_of_mem_parts inA
    have := sizeOf_lt_of_mem_parts inB
    have := sizeOf_lt_of_mem_parts inC
    omega

end Regrouping

end Value

end StackLattice
