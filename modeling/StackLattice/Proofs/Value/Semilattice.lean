import StackLattice.Proofs.Value.Equivalence
import StackLattice.Proofs.Value.Rejoined

/-!
Without alternatives, unification is a partial semilattice operation with respect to the equality of values. Its
result takes positions and kinds of labels from the left, so it is commutative for operands that agree on the kind of
each label that they share.
-/

namespace StackLattice

namespace Value

/-- Distinct labels, no float that is no number, and no disjunction. -/
def SimpleHere : Value → Prop
  | struct fields => Field.Distinct fields
  | float x => x.isNaN = false
  | disjunction _ => False
  | _ => True

def Simple (v : Value) : Prop := v.Everywhere SimpleHere

namespace Simple

variable {v : Value}

theorem proper (h : v.Simple) : v.Proper := by
  refine Everywhere.imp h fun v here => ?_
  cases v with
  | disjunction alternatives => exact False.elim here
  | _ => exact here

theorem single (h : v.Simple) : v.isDisjunction = false := by
  cases v with
  | disjunction alternatives => exact False.elim h.here
  | _ => rfl

end Simple

theorem simple_struct (fields : List (Field Value)) :
    (struct fields).Simple ↔ Field.Distinct fields ∧ ∀ f ∈ fields, f.value.Simple := by
  rw [Simple, Everywhere.iff_parts]
  simp only [parts, List.forall_mem_map]
  rfl

theorem simple_list (items : List Value) : (list items).Simple ↔ ∀ item ∈ items, item.Simple := by
  rw [Simple, Everywhere.iff_parts]
  exact and_iff_right trivial

theorem simple_unify {a b v : Value} (left : a.Simple) (right : b.Simple) (h : a.unify b = .ok v) : v.Simple := by
  refine everywhere_unify (fun _ => trivial) (fun _ => trivial) ?_ ?_ left right h
  · exact fun _ _ _ left right fields => distinct_mergeFields left (distinct_unifyFields fields right)
  · intro a b alternatives (left : a.Simple) (right : b.Simple) either _ _
    simp [left.single, right.single] at either

theorem same_of_matches {a b : Value} (left : a.Simple) (right : b.Simple) (h : a.Matches b) :
    a.same b = true := by
  induction h with
  | leaf _ _ same => exact same
  | @struct xs ys traits _ ih =>
    have labels : (xs.map (·.label)).Perm (ys.map (·.label)) := by
      refine (List.perm_ext_iff_of_nodup left.proper.wellFormed.distinct right.proper.wellFormed.distinct).mpr ?_
      intro label
      rw [Field.mem_labels, Field.mem_labels]
      have related := traits label
      generalize Field.find? xs label = x, Field.find? ys label = y at related
      cases related <;> rfl
    refine (same_struct_iff xs ys).mpr ⟨by simpa using labels.length_eq, fun x inLeft => ?_⟩
    have ofX := left.proper.wellFormed.distinct.find?_of_mem inLeft
    have related := traits x.label
    rw [ofX] at related
    generalize ofY : Field.find? ys x.label = y at related ⊢
    cases related with
    | @some _ y same =>
      have inRight := Field.mem_of_find? ofY
      exact ⟨y, rfl, ih _ x y ofX ofY (left.field inLeft) (right.field inRight), same⟩
  | list lengths _ ih =>
    refine (same_list_iff _ _).mpr (List.forall₂_iff_zip.mpr ⟨lengths, fun {x y} member => ?_⟩)
    obtain ⟨inLeft, inRight⟩ := List.of_mem_zip member
    exact ih (x, y) member (left.item inLeft) (right.item inRight)
  | alternatives either => simp [left.single, right.single] at either

section Repeating

theorem joinField_self (f : Field Value) : joinField f f f.value = f := by
  obtain ⟨label, kind, optional, position, value⟩ := f
  simp [joinField]

theorem mergeFields_self {fields : List (Field Value)} (distinct : Field.Distinct fields) :
    mergeFields fields fields = fields := by
  have kept : fields.map (fun f => (Field.find? fields f.label).getD f) = fields := by
    refine (List.map_congr_left fun f member => ?_).trans (List.map_id fields)
    rw [distinct.find?_of_mem member]
    rfl
  have added : fields.filter (fun g => (Field.find? fields g.label).isNone) = [] := by
    rw [List.filter_eq_nil_iff]
    intro g member
    simp [distinct.find?_of_mem member]
  rw [mergeFields, kept, added, List.append_nil]

/-- A value that is unified with itself stays what it is, with its positions and the order of its fields. -/
theorem unify_self {a : Value} (simple : a.Simple) : a.unify a = .ok a := by
  induction a using parts_induction with
  | step a ih =>
    have scalars (scalar : a.isScalar = true) : a.unify a = .ok a := by
      rw [unify_scalars scalar scalar, same_self_leaf (isLeaf_of_isScalar scalar) simple.proper, if_pos rfl]
    cases a with
    | top => exact top_unify top
    | kind k => cases k <;> rw [unify] <;> simp [Kind.meet]
    | struct fields =>
      have distinct := simple.proper.wellFormed.distinct
      refine unify_structs_eq_ok.mpr ⟨fields, ?_, by rw [mergeFields_self distinct]⟩
      rw [unifyFields_eq_mapM, mapM_eq_ok]
      refine List.forall₂_same.mpr fun f member => ?_
      rw [meetField, distinct.find?_of_mem member]
      simp only [ih f.value (List.mem_map_of_mem member) (simple.field member), joinField_self]
    | list items =>
      refine unify_lists_eq_ok.mpr ⟨rfl, items, ?_, rfl⟩
      rw [unifyItems_self, List.forall₂_same]
      exact fun item member => ih item member (simple.item member)
    | disjunction alternatives => exact absurd simple.single Bool.false_ne_true.symm
    | _ => exact scalars rfl

end Repeating

section Swapping

/-- Whether each label that two values share has one kind in both, at every depth. -/
inductive SharedKinds : Value → Value → Prop
  | structs {xs ys : List (Field Value)}
      (kinds : ∀ label x y, Field.find? xs label = some x → Field.find? ys label = some y → x.kind = y.kind)
      (values : ∀ label x y, Field.find? xs label = some x → Field.find? ys label = some y →
        SharedKinds x.value y.value) : SharedKinds (struct xs) (struct ys)
  | lists {xs ys : List Value} (items : ∀ pair ∈ xs.zip ys, SharedKinds pair.1 pair.2) :
      SharedKinds (list xs) (list ys)
  | apart {a b : Value} (shapes : a.isLeaf = true ∨ a.typeName ≠ b.typeName) : SharedKinds a b

/-- Whether the results of unifying two values in either order match. -/
def Commutes (a b : Value) : Prop := ∀ v w, a.unify b = .ok v → b.unify a = .ok w → v.Matches w

theorem commutes_structs {xs ys : List (Field Value)} (properX : (struct xs).Proper) (properY : (struct ys).Proper)
    (kinds : ∀ label x y, Field.find? xs label = some x → Field.find? ys label = some y → x.kind = y.kind)
    (values : ∀ label x y, Field.find? xs label = some x → Field.find? ys label = some y →
      Commutes x.value y.value) : Commutes (struct xs) (struct ys) := by
  intro v w h h'
  obtain ⟨met, fields, rfl⟩ := unify_structs_eq_ok.mp h
  obtain ⟨met', fields', rfl⟩ := unify_structs_eq_ok.mp h'
  refine matches_struct.mpr fun label => ?_
  have joined := fieldJoins_merged fields label
  have joined' := fieldJoins_merged fields' label
  have ofX := rel_self properX label
  have ofY := rel_self properY label
  have kinds := kinds label
  have values := values label
  generalize Field.find? xs label = x, Field.find? ys label = y, Field.find? (mergeFields xs met) label = z,
    Field.find? (mergeFields ys met') label = z' at joined joined' ofX ofY kinds values ⊢
  cases joined with
  | left => exact joined'.none_left ▸ ofX
  | right => exact joined'.none_right ▸ ofY
  | both x y u unified =>
    cases joined' with
    | both _ _ u' unified' =>
      refine .some ⟨⟨kinds x y rfl rfl, ?_⟩, values x y rfl rfl u u' unified unified'⟩
      simp only [joinField, Bool.and_comm]

theorem items_commuted {xs ys vs ws : List Value} (joined : ItemsJoin xs ys vs) (joined' : ItemsJoin ys xs ws)
    (items : ∀ pair ∈ xs.zip ys, Commutes pair.1 pair.2) : List.Forall₂ Matches vs ws := by
  induction joined generalizing ws with
  | nil =>
    cases joined'
    exact .nil
  | cons first _ ih =>
    cases joined' with
    | cons first' rest' =>
      refine .cons (items _ List.mem_cons_self _ _ first first') (ih rest' fun pair member => ?_)
      exact items pair (List.mem_cons_of_mem _ member)

theorem commutes_apart {a b : Value} (left : a.Simple) (right : b.Simple)
    (shapes : a.isLeaf = true ∨ a.typeName ≠ b.typeName) : Commutes a b := by
  intro v w h h'
  cases joins_of_unify h with
  | topLeft =>
    rw [unify_top, Except.ok.injEq] at h'
    exact h' ▸ .refl right.proper
  | topRight =>
    rw [top_unify, Except.ok.injEq] at h'
    exact h' ▸ .refl left.proper
  | alternatives _ _ _ _ _ either => simp [left.single, right.single] at either
  | leaves _ _ _ leafA leafB =>
    have leaf := isLeaf_of_unify leafA leafB h
    have leaf' := isLeaf_of_unify leafB leafA h'
    refine .leaf leaf leaf' (same_of_admits_leaves leaf leaf' (simple_unify left right h).proper fun c => ?_)
    rw [admits_unify left.proper.wellFormed right.proper.wellFormed h,
      admits_unify right.proper.wellFormed left.proper.wellFormed h', and_comm]
  | structs | lists => rcases shapes with leaf | apart <;> contradiction

theorem commutes {a b : Value} (left : a.Simple) (right : b.Simple) (shared : SharedKinds a b) : Commutes a b := by
  induction shared with
  | structs kinds _ ih =>
    refine commutes_structs left.proper right.proper kinds fun label x y ofX ofY => ?_
    exact ih label x y ofX ofY (left.field (Field.mem_of_find? ofX)) (right.field (Field.mem_of_find? ofY))
  | @lists xs ys _ ih =>
    intro v w h h'
    obtain ⟨lengths, vs, unified, rfl⟩ := unify_lists_eq_ok.mp h
    obtain ⟨lengths', ws, unified', rfl⟩ := unify_lists_eq_ok.mp h'
    refine matches_list.mpr (items_commuted (itemsJoin_of_unifyItems lengths unified)
      (itemsJoin_of_unifyItems lengths' unified') fun pair member => ?_)
    obtain ⟨inLeft, inRight⟩ := List.of_mem_zip member
    exact ih pair member (left.item inLeft) (right.item inRight)
  | apart shapes => exact commutes_apart left right shapes

end Swapping

theorem regroups_simple {a b c : Value} (simpleA : a.Simple) (simpleB : b.Simple) (simpleC : c.Simple) :
    Regroups a b c := by
  induction a using parts_induction generalizing b c with
  | step a ih =>
    refine regroups_single simpleA.proper simpleB.proper simpleC.proper simpleA.single simpleB.single simpleC.single ?_
    exact fun x inA y inB z inC => ih x inA (simpleA.inside x inA) (simpleB.inside y inB) (simpleC.inside z inC)

/-- Both fail, or both succeed with equal values. -/
inductive Agree : Except Conflict Value → Except Conflict Value → Prop
  | ok {v w : Value} (same : v.same w = true) : Agree (.ok v) (.ok w)
  | error (c d : Conflict) : Agree (.error c) (.error d)

theorem agree_of_ok {r r' : Except Conflict Value} (succeed : (∃ v, r = .ok v) ↔ ∃ w, r' = .ok w)
    (same : ∀ v w, r = .ok v → r' = .ok w → v.same w = true) : Agree r r' := by
  cases r with
  | ok v =>
    obtain ⟨w, rfl⟩ := succeed.mp ⟨v, rfl⟩
    exact .ok (same v w rfl rfl)
  | error c =>
    cases r' with
    | ok w =>
      obtain ⟨v, impossible⟩ := succeed.mpr ⟨w, rfl⟩
      cases impossible
    | error d => exact .error c d

theorem agree_swapped {a b : Value} (left : a.Simple) (right : b.Simple) (shared : SharedKinds a b) :
    Agree (a.unify b) (b.unify a) := by
  refine agree_of_ok ?_ fun v w h h' => ?_
  · rw [exists_unify_iff left.proper right.proper, exists_unify_iff right.proper left.proper]
    simp only [and_comm]
  · exact same_of_matches (simple_unify left right h) (simple_unify right left h') (commutes left right shared v w h h')

theorem agree_regrouped {a b c : Value} (simpleA : a.Simple) (simpleB : b.Simple) (simpleC : c.Simple) :
    Agree ((a.unify b).bind (·.unify c)) ((b.unify c).bind a.unify) := by
  have left (v : Value) : (a.unify b).bind (·.unify c) = .ok v ↔ ∃ ab, a.unify b = .ok ab ∧ ab.unify c = .ok v := by
    cases a.unify b <;> simp [Except.bind]
  have right (w : Value) : (b.unify c).bind a.unify = .ok w ↔ ∃ bc, b.unify c = .ok bc ∧ a.unify bc = .ok w := by
    cases b.unify c <;> simp [Except.bind]
  refine agree_of_ok ?_ fun v w h h' => ?_
  · simp only [left, right]
    constructor
    · rintro ⟨v, ab, first, last⟩
      obtain ⟨bc, w, inner, outer⟩ := exists_regrouped simpleA.proper simpleB.proper simpleC.proper first last
      exact ⟨w, bc, inner, outer⟩
    · rintro ⟨w, bc, inner, outer⟩
      obtain ⟨ab, v, first, last⟩ := exists_ungrouped simpleA.proper simpleB.proper simpleC.proper inner outer
      exact ⟨v, ab, first, last⟩
  · obtain ⟨ab, first, last⟩ := (left v).mp h
    obtain ⟨bc, inner, outer⟩ := (right w).mp h'
    have simpleAB := simple_unify simpleA simpleB first
    have simpleBC := simple_unify simpleB simpleC inner
    exact same_of_matches (simple_unify simpleAB simpleC last) (simple_unify simpleA simpleBC outer)
      (regroups_simple simpleA simpleB simpleC ab v bc w first last inner outer)

/-- Without alternatives and floats that are no numbers, unification is idempotent and associative, and it is
    commutative if the operands agree on the kinds of the labels that they share. -/
theorem unify_partial_semilattice {a b c : Value} (simpleA : a.Simple) (simpleB : b.Simple) (simpleC : c.Simple) :
    (a.unify a = .ok a ∧ a.same a = true) ∧
      Agree ((a.unify b).bind (·.unify c)) ((b.unify c).bind a.unify) ∧
      (SharedKinds a b → Agree (a.unify b) (b.unify a)) :=
  ⟨⟨unify_self simpleA, same_self simpleA.proper⟩,
    agree_regrouped simpleA simpleB simpleC, agree_swapped simpleA simpleB⟩

theorem simple_leaf {v : Value} (leaf : v.parts = []) (here : v.SimpleHere) : v.Simple := .intro here (by simp [leaf])

/-- An optional declaration, one of the same fields in the other order, and one that adds elements to a list. -/
theorem unify_partial_semilattice_of_declarations :
    let a := struct [{ label := "x", optional := true, value := kind .number }, { label := "y", value := top }]
    let b := struct [{ label := "y", value := list [kind .int] }, { label := "x", value := int 1 }]
    let c := struct [{ label := "y", value := list [int 2] }]
    a.unify a = .ok a ∧ Agree ((a.unify b).bind (·.unify c)) ((b.unify c).bind a.unify) ∧
      Agree (a.unify b) (b.unify a) := by
  intro a b c
  have simpleA : a.Simple := by
    simp only [a, simple_struct, List.forall_mem_cons]
    exact ⟨by simp [Field.Distinct], simple_leaf rfl trivial, simple_leaf rfl trivial, fun _ none => absurd none List.not_mem_nil⟩
  have simpleB : b.Simple := by
    simp only [b, simple_struct, simple_list, List.forall_mem_cons]
    exact ⟨by simp [Field.Distinct], ⟨simple_leaf rfl trivial, fun _ none => absurd none List.not_mem_nil⟩, simple_leaf rfl trivial,
      fun _ none => absurd none List.not_mem_nil⟩
  have simpleC : c.Simple := by
    simp only [c, simple_struct, simple_list, List.forall_mem_cons]
    exact ⟨by simp [Field.Distinct], ⟨simple_leaf rfl trivial, fun _ none => absurd none List.not_mem_nil⟩,
      fun _ none => absurd none List.not_mem_nil⟩
  have shared : SharedKinds a b := by
    refine .structs (fun label x y ofX ofY => ?_) fun label x y ofX _ => .apart (.inl ?_)
    · have inX := Field.mem_of_find? ofX
      have inY := Field.mem_of_find? ofY
      simp only [List.mem_cons, List.not_mem_nil, or_false] at inX inY
      rcases inX with rfl | rfl <;> rcases inY with rfl | rfl <;> rfl
    · have inX := Field.mem_of_find? ofX
      simp only [List.mem_cons, List.not_mem_nil, or_false] at inX
      rcases inX with rfl | rfl <;> rfl
  obtain ⟨⟨self, _⟩, regrouped, swapped⟩ := unify_partial_semilattice simpleA simpleB simpleC
  exact ⟨self, regrouped, swapped shared⟩

end Value

end StackLattice
