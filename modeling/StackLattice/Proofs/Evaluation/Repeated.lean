import StackLattice.Proofs.Evaluation.Exported
import StackLattice.Proofs.Value.Marks
import StackLattice.Proofs.Value.Normal
import StackLattice.Proofs.Value.Semilattice

/-!
Repeating a declaration. A normal value is not what it is unified with itself to, as pairs of open alternatives may
unify, but no pair except that of the default with itself is marked, so both have the same document.
-/

namespace StackLattice.Value

/-- Whether a value has, as deep down as another one does or less deep, the same document as that one. -/
def Mirrors (a b : Value) : Prop :=
  ∀ path position depth d, a.documentAt path position depth = .ok d →
    ∀ path' position' depth', depth' ≤ depth → ∃ d', b.documentAt path' position' depth' = .ok d' ∧ d.same d' = true

theorem documentAt_eq_ok {a : Value} {path : String} {position : Option Position} {depth : Nat} {d : Document}
    (h : a.documentAt path position depth = .ok d) : ¬evaluationLimit < depth := by
  intro deep
  rw [documentAt.eq_def, if_pos deep] at h
  cases h

theorem not_documentAt_of_not_isScalar {a : Value} (leaf : a.isLeaf = true) (several : a.isScalar = false)
    {path : String} {position : Option Position} {depth : Nat} {d : Document} :
    a.documentAt path position depth ≠ .ok d := by
  intro h
  have shallow := documentAt_eq_ok h
  obtain rfl | ⟨k, rfl⟩ := eq_of_not_isScalar leaf several <;>
  · rw [documentAt, if_neg shallow] at h
    cases h

theorem isFinite_of_same {x y : Decimal.Binary64} (h : x.same y = true) (finite : x.isFinite = true) :
    y.isFinite = true := by
  obtain ⟨_, _, rfl | ⟨_, zero⟩⟩ := (Decimal.Binary64.same_iff x y).mp h
  · exact finite
  · rw [Decimal.Binary64.isZero, beq_iff_eq] at zero
    rw [Decimal.Binary64.isFinite, zero]
    rfl

theorem mirrors_scalar {a b : Value} (scalar : a.isScalar = true) (h : a.same b = true) : a.Mirrors b := by
  intro path position depth d exported path' position' depth' less
  have shallow := documentAt_eq_ok exported
  have shallow' : ¬evaluationLimit < depth' := fun deep => shallow (Nat.lt_of_lt_of_le deep less)
  obtain rfl := Exports.of_scalar scalar ⟨path, position, depth, exported⟩
  refine ⟨b.scalarDocument, ?_, same_scalarDocument scalar h⟩
  cases a <;> cases b <;> first
    | exact absurd scalar Bool.false_ne_true
    | (simp [same] at h; done)
    | (rw [documentAt, if_neg shallow']; done)
    | skip
  case float.float x y =>
    rw [documentAt, if_neg shallow] at exported
    split at exported
    · rw [same] at h
      rw [documentAt, if_neg shallow', if_pos (isFinite_of_same h ‹_›)]
      rfl
    · cases exported
  all_goals
    rw [documentAt, if_neg shallow']
    rfl

theorem mirrors_items {xs ys : List Value} (items : List.Forall₂ Mirrors xs ys) {index depth : Nat} {path : String}
    {position : Option Position} {ds : List Document} (h : documentItems xs index path position depth = .ok ds)
    (index' : Nat) (path' : String) (position' : Option Position) {depth' : Nat} (less : depth' ≤ depth) :
    ∃ ds', documentItems ys index' path' position' depth' = .ok ds' ∧
      List.Forall₂ (fun d d' => d.same d' = true) ds ds' := by
  induction items generalizing index index' ds with
  | nil =>
    rw [documentItems] at h
    cases h
    exact ⟨[], by rw [documentItems], .nil⟩
  | @cons x y xs ys mirrors _ ih =>
    rw [documentItems] at h
    obtain ⟨d, first, h⟩ := bind_eq_ok h
    obtain ⟨ds, rest, h⟩ := bind_eq_ok h
    cases h
    obtain ⟨d', first', same⟩ := mirrors _ _ _ _ first (joinPath path' (toString index')) position' (depth' + 1)
      (Nat.add_le_add_right less 1)
    obtain ⟨ds', rest', sames⟩ := ih rest (index' + 1)
    refine ⟨d' :: ds', ?_, .cons same sames⟩
    rw [documentItems, first', rest']
    rfl

theorem mirrors_list {xs ys : List Value} (items : List.Forall₂ Mirrors xs ys) : (list xs).Mirrors (list ys) := by
  intro path position depth d exported path' position' depth' less
  have shallow := documentAt_eq_ok exported
  have shallow' : ¬evaluationLimit < depth' := fun deep => shallow (Nat.lt_of_lt_of_le deep less)
  rw [documentAt, if_neg shallow] at exported
  obtain ⟨ds, inside, exported⟩ := bind_eq_ok exported
  cases exported
  obtain ⟨ds', inside', sames⟩ := mirrors_items items inside 0 path' position' less
  refine ⟨.list ds', ?_, by rwa [Document.same, Document.sameItems_iff]⟩
  rw [documentAt, if_neg shallow', inside']
  rfl

/-- The exported fields of a struct have documents, and nothing else has. -/
theorem documentFields_eq_ok {fields : List (Field Value)} {path : String} {position : Option Position} {depth : Nat}
    {entries : List (String × Document)} : documentFields fields path position depth = .ok entries ↔
      List.Forall₂ (Entry fun f d =>
        f.value.documentAt (joinPath path f.label) (f.position.or position) (depth + 1) = .ok d)
        (fields.filter (·.isExported)) entries := by
  induction fields generalizing entries with
  | nil => simp [documentFields, eq_comm]
  | cons f fields ih =>
    rw [documentFields]
    by_cases exported : f.isExported = true
    · rw [if_pos exported, List.filter_cons_of_pos exported, List.forall₂_cons_left_iff]
      constructor
      · intro h
        obtain ⟨d, first, h⟩ := bind_eq_ok h
        obtain ⟨ds, rest, h⟩ := bind_eq_ok h
        cases h
        exact ⟨(f.label, d), ds, ⟨rfl, first⟩, ih.mp rest, rfl⟩
      · rintro ⟨⟨label, d⟩, ds, ⟨rfl, first⟩, rest, rfl⟩
        rw [first, ih.mpr rest]
        rfl
    · rw [if_neg exported, List.filter_cons_of_neg exported]
      exact ih

theorem mirrors_struct {xs ys : List (Field Value)} (left : Field.Distinct xs) (right : Field.Distinct ys)
    (fields : ∀ label, Option.Rel (fun x y : Field Value => x.isExported = y.isExported ∧ x.value.Mirrors y.value)
      (Field.find? xs label) (Field.find? ys label)) : (struct xs).Mirrors (struct ys) := by
  intro path position depth d exported path' position' depth' less
  have shallow := documentAt_eq_ok exported
  have shallow' : ¬evaluationLimit < depth' := fun deep => shallow (Nat.lt_of_lt_of_le deep less)
  rw [documentAt, if_neg shallow] at exported
  obtain ⟨es, inside, exported⟩ := bind_eq_ok exported
  cases exported
  rw [documentFields_eq_ok] at inside
  have forward := exists_exported left fields
  have backward := exists_exported right (R := fun y x => x.Mirrors y) fun label =>
    rel_symm (fields label) fun x y agree => ⟨agree.1.symm, agree.2⟩
  have distinct := left.filter (·.isExported)
  have distinct' := right.filter (·.isExported)
  obtain ⟨es', inside'⟩ : ∃ es', List.Forall₂ (Entry fun f d =>
      f.value.documentAt (joinPath path' f.label) (f.position.or position') (depth' + 1) = .ok d)
      (ys.filter (·.isExported)) es' := by
    refine exists_forall₂_of_forall fun y member => ?_
    obtain ⟨x, inLeft, _, mirrors⟩ := backward y member
    obtain ⟨d, _, first⟩ := lookup_entries distinct inside inLeft
    obtain ⟨d', first', _⟩ := mirrors _ _ _ _ first _ _ _ (Nat.add_le_add_right less 1)
    exact ⟨(y.label, d'), rfl, first'⟩
  have lengths : (xs.filter (·.isExported)).length = (ys.filter (·.isExported)).length := by
    apply le_antisymm
    · exact distinct.length_le fun x member => (forward x member).imp fun _ agree => ⟨agree.1, agree.2.1⟩
    · exact distinct'.length_le fun y member => (backward y member).imp fun _ agree => ⟨agree.1, agree.2.1⟩
  refine ⟨.object es', ?_, same_entries distinct' inside inside' lengths fun x member => ?_⟩
  · rw [documentAt, if_neg shallow', documentFields_eq_ok.mpr inside']
    rfl
  · obtain ⟨y, member', label, mirrors⟩ := forward x member
    refine ⟨y, member', label, fun d d' first first' => ?_⟩
    obtain ⟨d'', again, same⟩ := mirrors _ _ _ _ first _ _ _ (Nat.add_le_add_right less 1)
    rw [first'] at again
    cases again
    exact same

theorem filter_forall₂ {α β : Type} {R : α → β → Prop} {p : α → Bool} {q : β → Bool} {xs : List α} {ys : List β}
    (h : List.Forall₂ R xs ys) (agree : ∀ x y, R x y → p x = q y) :
    List.Forall₂ R (xs.filter p) (ys.filter q) := by
  induction h with
  | nil => exact .nil
  | @cons x y xs ys first _ ih =>
    rw [List.filter_cons, List.filter_cons, agree x y first]
    split
    · exact .cons first ih
    · exact ih

/-- Equal disjunctions stand for equal values. -/
theorem resolved_of_same {xs ys : List (Alternative Value)} (h : (disjunction xs).same (disjunction ys) = true)
    {x : Alternative Value} (default : xs.filter (·.marked) = [x]) :
    ∃ y ∈ ys, ys.filter (·.marked) = [y] ∧ x.value.same y.value = true := by
  have related := filter_forall₂ (p := (·.marked)) (q := (·.marked)) ((same_disjunction_iff xs ys).mp h)
    fun _ _ agree => agree.2
  rw [default] at related
  obtain ⟨y, rest, agree, others, default'⟩ := List.forall₂_cons_left_iff.mp related
  rw [List.forall₂_nil_left_iff.mp others] at default'
  have member : y ∈ ys.filter (·.marked) := by simp [default']
  exact ⟨y, (List.mem_filter.mp member).1, default', agree.1⟩

theorem mirrors_resolved {xs : List (Alternative Value)} {x : Alternative Value} {b : Value}
    (default : xs.filter (·.marked) = [x])
    (mirrors : x.value.Mirrors b ∨ ∃ ys y, b = disjunction ys ∧ ys.filter (·.marked) = [y] ∧ x.value.Mirrors y.value) :
    (disjunction xs).Mirrors b := by
  intro path position depth d exported path' position' depth' less
  have shallow := documentAt_eq_ok exported
  have shallow' : ¬evaluationLimit < depth' := fun deep => shallow (Nat.lt_of_lt_of_le deep less)
  rw [documentAt_disjunction shallow, show (disjunction xs).resolved = some x.value by simp [resolved, default]] at exported
  rcases mirrors with mirrors | ⟨ys, y, rfl, default', mirrors⟩
  · exact mirrors _ _ _ _ exported _ _ _ (Nat.le_succ_of_le less)
  · rw [documentAt_disjunction shallow', show (disjunction ys).resolved = some y.value by simp [resolved, default']]
    exact mirrors _ _ _ _ exported _ _ _ (Nat.add_le_add_right less 1)

theorem mirrors_unresolved {xs : List (Alternative Value)} (none : ∀ x, xs.filter (·.marked) ≠ [x]) (b : Value) :
    (disjunction xs).Mirrors b := by
  intro path position depth d exported
  rw [documentAt_disjunction (documentAt_eq_ok exported)] at exported
  have unresolved : (disjunction xs).resolved = Option.none := by
    rw [resolved]
    split
    · exact absurd ‹_› (none _)
    · rfl
  rw [unresolved] at exported
  cases exported

/-- The one marked alternative of a disjunction that is unified with itself is what the default is unified with itself
    to, or an equal one. -/
theorem exists_default_of_unify_self {xs : List (Alternative Value)} {x : Alternative Value} {w : Value}
    (proper : (disjunction xs).Proper) (normal : (disjunction xs).Normal) (default : xs.filter (·.marked) = [x])
    (h : (disjunction xs).unify (disjunction xs) = .ok w) :
    ∃ us u r, w = ofDistinct us ∧ us.filter (·.marked) = [u] ∧ u.value.Proper ∧
      x.value.unify x.value = .ok r ∧ u.value.same r = true := by
  have isDefault : x ∈ xs.filter (·.marked) := by simp [default]
  obtain ⟨member, marked⟩ := List.mem_filter.mp isDefault
  have counted (y : Alternative Value) : counts xs y = y.marked := by
    have some : Alternative.anyMarked xs = true := List.any_eq_true.mpr ⟨x, member, marked⟩
    rw [counts, some, Bool.not_true, Bool.or_false]
  have isOnly {y : Alternative Value} (inside : y ∈ xs) (marked : y.marked = true) : y = x := by
    have found := List.mem_filter.mpr ⟨inside, marked⟩
    rwa [default, List.mem_singleton] at found
  cases joins_of_unify h with
  | alternatives _ _ _ _ _ _ settled =>
    obtain ⟨_, rfl⟩ := settle_eq_ok.mp settled
    have each : ∀ a ∈ (pairings xs xs).filterMap Outcome.alternative?, a.value.Proper ∧ a.value.isDisjunction = false := by
      intro a inside
      obtain ⟨y, left, z, right, unified, _⟩ := mem_alternatives_pairings.mp inside
      have single := Normalized.single normal.here
      exact ⟨proper_unify (proper.alternative left) (proper.alternative right) unified,
        single_of_unify (single y left) (single z right) unified⟩
    obtain ⟨c, admitted⟩ := (proper.alternative member).exists_instance
    obtain ⟨r, repeated⟩ := (exists_unify_iff (proper.alternative member) (proper.alternative member)).mpr
      ⟨c, admitted, admitted⟩
    obtain ⟨u, left, default', same⟩ := Alternative.filter_marked_dedup (r := r) (fun a inside => (each a inside).1)
      ⟨⟨r, true⟩, mem_alternatives_pairings.mpr ⟨x, member, x, member, repeated, by simp [counted, marked]⟩, rfl⟩
      fun a inside mark => by
        obtain ⟨y, left, z, right, unified, both⟩ := mem_alternatives_pairings.mp inside
        rw [mark, counted, counted, eq_comm, Bool.and_eq_true] at both
        rw [isOnly left both.1, isOnly right both.2, repeated] at unified
        exact (Except.ok.inj unified).symm
    refine ⟨_, u, r, ?_, default', ?_, repeated, same⟩
    · exact congrArg (fun us => ofDistinct (Alternative.dedup us))
        (Alternative.flatMap_flatten_of_single fun a inside => (each a inside).2)
    · obtain ⟨a, inside, value⟩ := Alternative.value_of_mem_dedup left
      exact value ▸ (each a inside).1
  | leaves _ _ _ left => cases left

theorem mirrors_unify_self {v w w' : Value} (proper : v.Proper) (normal : v.Normal) (h : v.unify v = .ok w)
    (wellFormed : w'.WellFormed) (same : w.same w' = true) : v.Mirrors w' := by
  induction v using parts_induction generalizing w w' with
  | step v ih =>
    have wellW := wellFormed_unify proper.wellFormed proper.wellFormed h
    have leaves (leaf : v.isLeaf = true) (simple : v.Simple) : v.Mirrors w' := by
      rw [unify_self simple] at h
      cases h
      cases scalar : v.isScalar with
      | true => exact mirrors_scalar scalar same
      | false => exact fun _ _ _ _ exported => absurd exported (not_documentAt_of_not_isScalar leaf scalar)
    cases v with
    | struct fields =>
      obtain ⟨met, fields', rfl⟩ := unify_structs_eq_ok.mp h
      obtain ⟨ys, rfl⟩ := eq_struct_of_same same
      refine mirrors_struct proper.wellFormed.distinct wellFormed.distinct fun label => ?_
      have joined := fieldJoins_merged fields' label
      have related := find?_of_same wellW.distinct wellFormed.distinct same label
      cases found : Field.find? fields label with
      | none =>
        rw [found] at joined
        rw [joined.none_left] at related
        cases ofRight : Field.find? ys label with
        | none => exact .none
        | some y =>
          rw [ofRight] at related
          cases related
      | some f =>
        rw [found] at joined
        have member := Field.mem_of_find? found
        generalize Field.find? (mergeFields fields met) label = m, ofRight : Field.find? ys label = y at joined related
        cases joined with
        | both _ _ u unified =>
          cases related with
          | some agree =>
            obtain ⟨_, inRight, same, kind, optional⟩ := agree
            refine .some ⟨?_, ih f.value (List.mem_map_of_mem member) (proper.field member) (normal.field member)
              unified (wellFormed.field inRight) same⟩
            rw [Field.isExported, Field.isExported, ← kind, ← optional]
            simp [joinField]
    | list items =>
      obtain ⟨_, met, unified, rfl⟩ := unify_lists_eq_ok.mp h
      obtain ⟨ys, rfl⟩ := eq_list_of_same same
      rw [unifyItems_self] at unified
      refine mirrors_list (forall₂_trans unified ((same_list_iff met ys).mp same) ?_)
      intro item member v _ y inRight repeated same
      exact ih item member (proper.item member) (normal.item member) repeated (wellFormed.item inRight) same
    | disjunction xs =>
      by_cases default : ∃ x, xs.filter (·.marked) = [x]
      · obtain ⟨x, default⟩ := default
        obtain ⟨us, u, r, rfl, default', properU, repeated, equal⟩ :=
          exists_default_of_unify_self proper normal default h
        have isDefault : x ∈ xs.filter (·.marked) := by simp [default]
        have member := (List.mem_filter.mp isDefault).1
        have properX := proper.alternative member
        have properR := proper_unify properX properX repeated
        have reversed := same_symm properU.wellFormed properR.wellFormed equal
        have mirrors {y : Value} (wellFormed : y.WellFormed) (same : u.value.same y = true) : x.value.Mirrors y :=
          ih x.value (List.mem_map_of_mem member) properX (normal.alternative member) repeated wellFormed
            (same_trans properR.wellFormed properU.wellFormed wellFormed reversed same)
        rcases ofDistinct_of_default default' with alone | ⟨several, _⟩
        · rw [alone] at same
          exact mirrors_resolved default (.inl (mirrors wellFormed same))
        · rw [several] at same
          obtain ⟨ys, rfl⟩ := eq_disjunction_of_same same
          obtain ⟨y, inRight, default'', same⟩ := resolved_of_same same default'
          exact mirrors_resolved default (.inr ⟨ys, y, rfl, default'', mirrors (wellFormed.alternative inRight) same⟩)
      · exact mirrors_unresolved (not_exists.mp default) w'
    | _ => exact leaves rfl (simple_leaf rfl proper.here)

/-- A normal value unifies with itself, and if it has a document, the result has an equal one. -/
theorem document_unify_self {v : Value} (proper : v.Proper) (normal : v.Normal) :
    ∃ w, v.unify v = .ok w ∧ ∀ d, v.document = .ok d → ∃ d', w.document = .ok d' ∧ d.same d' = true := by
  obtain ⟨c, admitted⟩ := proper.exists_instance
  obtain ⟨w, unified⟩ := (exists_unify_iff proper proper).mpr ⟨c, admitted, admitted⟩
  have properW := proper_unify proper proper unified
  refine ⟨w, unified, fun d exported => ?_⟩
  exact mirrors_unify_self proper normal unified properW.wellFormed (same_self properW) _ _ _ d exported _ _ _ le_rfl

/-- A default with an open struct beside another one, with which it unifies. -/
theorem document_unify_self_of_open_structs :
    let a := struct [{ label := "a", value := int 1 }]
    let b := struct [{ label := "b", value := int 2 }]
    let v := struct [{ label := "x", value := disjunction [⟨a, true⟩, ⟨b, false⟩] }]
    v.document = .ok (.object [("x", .object [("a", .int 1)])]) ∧
      ∃ w, v.unify v = .ok w ∧ ∃ d, w.document = .ok d ∧ (Document.object [("x", .object [("a", .int 1)])]).same d = true := by
  intro a b v
  have labelled (label : String) (u : Value) : Field.Distinct [({ label, value := u } : Field Value)] :=
    List.pairwise_singleton _ _
  have proper : v.Proper := by
    refine .intro (labelled "x" _) (List.forall_mem_singleton.mpr (.intro (List.cons_ne_nil _ _) ?_))
    refine List.forall_mem_cons.mpr ⟨.intro (labelled "a" _) ?_, List.forall_mem_singleton.mpr (.intro (labelled "b" _) ?_)⟩
    · exact List.forall_mem_singleton.mpr (.intro trivial fun _ impossible => absurd impossible List.not_mem_nil)
    · exact List.forall_mem_singleton.mpr (.intro trivial fun _ impossible => absurd impossible List.not_mem_nil)
  have normal : v.Normal := by
    have normalA : a.Normal := normal_struct (List.forall_mem_singleton.mpr (normal_leaf rfl))
    have normalB : b.Normal := normal_struct (List.forall_mem_singleton.mpr (normal_leaf rfl))
    refine normal_struct (List.forall_mem_singleton.mpr ((normal_disjunction _).mpr ⟨⟨le_rfl, ?_, ?_, ⟨b, false⟩, ?_⟩, ?_⟩))
    · simp [a, b, isDisjunction]
    · have apart : a.same b = false := by decide +kernel
      simpa using apart
    · simp
    · exact List.forall_mem_cons.mpr ⟨normalA, List.forall_mem_singleton.mpr normalB⟩
  have exported : v.document = .ok (.object [("x", .object [("a", .int 1)])]) := by
    have default : (disjunction [⟨a, true⟩, ⟨b, false⟩]).documentAt (joinPath "" "x") none 1 =
        .ok (.object [("a", .int 1)]) := by
      rw [documentAt_disjunction (by decide)]
      simp [a, resolved, documentAt, documentFields, evaluationLimit, Field.isExported, Bind.bind, Except.bind,
        Pure.pure, Except.pure]
    have fields : documentFields [{ label := "x", value := disjunction [⟨a, true⟩, ⟨b, false⟩] }] "" none 0 =
        .ok [("x", .object [("a", .int 1)])] :=
      documentFields_eq_ok.mpr (.cons ⟨rfl, default⟩ .nil)
    rw [document, documentAt, if_neg (by decide), fields]
    rfl
  obtain ⟨w, unified, mirrors⟩ := document_unify_self proper normal
  exact ⟨exported, w, unified, mirrors _ exported⟩

end StackLattice.Value
