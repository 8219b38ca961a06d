import StackLattice.Proofs.Value.Classes

/-!
Structs up to matching: their labels, which of them are not optional, and the classes of their fields. Of structs
that are unified these are put together label by label.
-/

namespace StackLattice.Value

open Syntax (LabelKind)

variable {kinds : String → LabelKind}

/-- What matters of a struct. -/
@[ext]
structure Outline (kinds : String → LabelKind) where
  labels : Set String
  required : Set String
  /-- One for a label that there is no field of. -/
  classAt : String → Class kinds

namespace Outline

instance : One (Outline kinds) := ⟨∅, ∅, 1⟩

noncomputable instance : Mul (Outline kinds) := ⟨fun o o' =>
  ⟨o.labels ∪ o'.labels, o.required ∪ o'.required, o.classAt * o'.classAt⟩⟩

noncomputable instance : CommMonoid (Outline kinds) where
  mul_assoc o o' o'' := Outline.ext (Set.union_assoc _ _ _) (Set.union_assoc _ _ _) (mul_assoc _ _ _)
  one_mul o := Outline.ext (Set.empty_union _) (Set.empty_union _) (one_mul _)
  mul_one o := Outline.ext (Set.union_empty _) (Set.union_empty _) (mul_one _)
  mul_comm o o' := Outline.ext (Set.union_comm _ _) (Set.union_comm _ _) (mul_comm _ _)

section Products

variable {α : Type} (o : α → Outline kinds) (xs : List α) (label : String)

theorem mem_labels_prod : label ∈ (xs.map o).prod.labels ↔ ∃ x ∈ xs, label ∈ (o x).labels := by
  induction xs with
  | nil => exact ⟨fun impossible => impossible.elim, by simp⟩
  | cons x xs ih =>
    rw [List.map_cons, List.prod_cons, List.exists_mem_cons_iff, ← ih]
    exact Iff.rfl

theorem mem_required_prod : label ∈ (xs.map o).prod.required ↔ ∃ x ∈ xs, label ∈ (o x).required := by
  induction xs with
  | nil => exact ⟨fun impossible => impossible.elim, by simp⟩
  | cons x xs ih =>
    rw [List.map_cons, List.prod_cons, List.exists_mem_cons_iff, ← ih]
    exact Iff.rfl

theorem classAt_prod : (xs.map o).prod.classAt label = (xs.map fun x => (o x).classAt label).prod := by
  induction xs with
  | nil => rfl
  | cons x xs ih =>
    rw [List.map_cons, List.prod_cons, List.map_cons, List.prod_cons, ← ih]
    rfl

end Products

end Outline

noncomputable def classAt (kinds : String → LabelKind) (f : Option (Field Value)) : Class kinds :=
  open Classical in
  match f with
  | none => 1
  | some f => if tame : f.value.Tame kinds then .of tame else 0

noncomputable def outline (kinds : String → LabelKind) (fields : List (Field Value)) : Outline kinds where
  labels := {label | (Field.find? fields label).isSome}
  required := {label | ∃ f, Field.find? fields label = some f ∧ f.optional = false}
  classAt label := classAt kinds (Field.find? fields label)

section Structs

variable {xs ys zs : List (Field Value)}

theorem classAt_some {f : Field Value} (tame : f.value.Tame kinds) : classAt kinds (some f) = .of tame := by
  rw [classAt, dif_pos tame]

theorem classAt_ne_zero (tame : (struct xs).Tame kinds) (label : String) :
    (outline kinds xs).classAt label ≠ 0 := by
  show classAt kinds (Field.find? xs label) ≠ 0
  cases found : Field.find? xs label with
  | none => exact Class.of_ne_zero tame_top
  | some f =>
    have own := tame.field (Field.mem_of_find? found)
    rw [classAt_some own]
    exact Class.of_ne_zero own

theorem matches_of_outline (left : (struct xs).Tame kinds) (right : (struct ys).Tame kinds)
    (same : outline kinds xs = outline kinds ys) : (struct xs).Matches (struct ys) := by
  refine matches_struct.mpr fun label => ?_
  have labels : (Field.find? xs label).isSome = (Field.find? ys label).isSome :=
    Bool.eq_iff_iff.mpr (Set.ext_iff.mp (congrArg Outline.labels same) label)
  have required : (∃ f, Field.find? xs label = some f ∧ f.optional = false) ↔
      ∃ f, Field.find? ys label = some f ∧ f.optional = false :=
    Set.ext_iff.mp (congrArg Outline.required same) label
  have classes : classAt kinds (Field.find? xs label) = classAt kinds (Field.find? ys label) :=
    congrFun (congrArg Outline.classAt same) label
  cases ofX : Field.find? xs label with
  | none =>
    rw [ofX] at labels
    rw [Option.isSome_eq_false_iff.mp labels.symm |> Option.isNone_iff_eq_none.mp]
    exact .none
  | some x =>
    rw [ofX] at labels required classes
    obtain ⟨y, ofY⟩ := Option.isSome_iff_exists.mp labels.symm
    rw [ofY] at required classes ⊢
    have inX := Field.mem_of_find? ofX
    have inY := Field.mem_of_find? ofY
    rw [classAt_some (left.field inX), classAt_some (right.field inY), Class.of_eq_of_iff] at classes
    refine .some ⟨⟨?_, ?_⟩, classes⟩
    · rw [((tame_struct xs).mp left).1.2 x inX, ((tame_struct ys).mp right).1.2 y inY, Field.label_of_find? ofX,
        Field.label_of_find? ofY]
    · simpa using required

section Joined

variable {x y z : Option (Field Value)} (h : FieldJoins x y z)

include h

theorem isSome_joined : z.isSome ↔ x.isSome ∨ y.isSome := by
  cases h <;> simp

theorem required_joined : (∃ f, z = some f ∧ f.optional = false) ↔
    (∃ f, x = some f ∧ f.optional = false) ∨ ∃ f, y = some f ∧ f.optional = false := by
  cases h with
  | left | right => simp
  | both x y v unified =>
    simp only [Option.some.injEq, exists_eq_left', joinField]
    exact Bool.and_eq_false_iff

theorem classAt_joined (left : ∀ f, x = some f → f.value.Tame kinds) (right : ∀ f, y = some f → f.value.Tame kinds) :
    classAt kinds z = classAt kinds x * classAt kinds y := by
  cases h with
  | left => exact (mul_one _).symm
  | right => exact (one_mul _).symm
  | both x y v unified =>
    have tameX := left x rfl
    have tameY := right y rfl
    rw [classAt_some tameX, classAt_some tameY, ← Class.of_unify tameX tameY unified]
    exact classAt_some _

end Joined

theorem outline_merged (left : (struct xs).Tame kinds) (right : (struct ys).Tame kinds) {met : List (Field Value)}
    (h : unifyFields xs ys = .ok met) :
    outline kinds (mergeFields xs met) = outline kinds xs * outline kinds ys := by
  have joined := fieldJoins_merged h
  refine Outline.ext (Set.ext fun label => ?_) (Set.ext fun label => ?_) (funext fun label => ?_)
  · exact isSome_joined (joined label)
  · exact required_joined (joined label)
  · exact classAt_joined (joined label) (fun f found => left.field (Field.mem_of_find? found))
      fun f found => right.field (Field.mem_of_find? found)

end Structs

/-- What a body can start from: nothing at all, or a struct of this outline. -/
inductive Starts (kinds : String → LabelKind) : Class kinds → Bool → Outline kinds → Prop
  | top : Starts kinds 1 false 1
  | struct {fields : List (Field Value)} (tame : (struct fields).Tame kinds) :
      Starts kinds (.of tame) true (outline kinds fields)

namespace Starts

variable {c c' : Class kinds} {isStruct isStruct' : Bool} {o o' : Outline kinds}

theorem classAt_ne_zero (h : Starts kinds c isStruct o) (label : String) : o.classAt label ≠ 0 := by
  cases h with
  | top => exact Class.of_ne_zero tame_top
  | struct tame => exact Value.classAt_ne_zero tame label

theorem unique (h : Starts kinds c isStruct o) (h' : Starts kinds c' isStruct o) : c = c' := by
  cases h with
  | top =>
    cases h'
    rfl
  | struct tame =>
    generalize same : outline kinds _ = o at h'
    cases h' with
    | struct tame' => exact Class.of_eq_of_iff.mpr (matches_of_outline tame tame' same)

theorem mul (h : Starts kinds c isStruct o) (h' : Starts kinds c' isStruct' o') (live : c * c' ≠ 0) :
    Starts kinds (c * c') (isStruct || isStruct') (o * o') := by
  cases h with
  | top => simpa using h'
  | struct tame =>
    cases h' with
    | top => simpa using Starts.struct tame
    | struct tame' =>
      obtain ⟨v, unified⟩ := Class.exists_unify live
      obtain ⟨met, fields, rfl⟩ := unify_structs_eq_ok.mp unified
      rw [← Class.of_unify tame tame' unified, ← outline_merged tame tame' fields]
      exact .struct _

theorem prod {α : Type} {xs : List α} {c : α → Class kinds} {isStruct : α → Bool} {o : α → Outline kinds}
    (each : ∀ x ∈ xs, Starts kinds (c x) (isStruct x) (o x)) (live : (xs.map c).prod ≠ 0) :
    Starts kinds (xs.map c).prod (xs.any isStruct) (xs.map o).prod := by
  induction xs with
  | nil => exact .top
  | cons x xs ih =>
    rw [List.map_cons, List.prod_cons] at live ⊢
    rw [List.map_cons, List.prod_cons, List.any_cons]
    refine (each x List.mem_cons_self).mul (ih (fun y member => each y (List.mem_cons_of_mem _ member)) ?_) live
    exact fun dead => live (by rw [dead, mul_zero])

end Starts

end StackLattice.Value
