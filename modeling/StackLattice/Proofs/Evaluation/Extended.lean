import StackLattice.Proofs.Evaluation.Exported
import StackLattice.Proofs.Syntax.Accepted
import StackLattice.Proofs.Value.Rejoined

/-!
Unification never loses output: whatever a value without disjunctions is exported to, what it unifies to with another
value is exported to an extension of that.
-/

namespace StackLattice

open Syntax (exists_of_any exists_of_toBool)

namespace Document

mutual

/-- Whether another document has all the data of this one. It may have further entries, at any depth, in any order. -/
def extendedBy : Document → Document → Bool
  | null, null => true
  | bool a, bool b => a == b
  | int a, int b => a == b
  | float a, float b => a == b
  | string a, string b => a == b
  | list xs, list ys => itemsExtendedBy xs ys
  | object xs, object ys => entriesExtendedBy xs ys
  | _, _ => false

def itemsExtendedBy : List Document → List Document → Bool
  | [], [] => true
  | x :: xs, y :: ys => x.extendedBy y && itemsExtendedBy xs ys
  | _, _ => false

def entriesExtendedBy : List (String × Document) → List (String × Document) → Bool
  | [], _ => true
  | (key, x) :: xs, ys =>
    (match ys.lookup key with
      | some y => x.extendedBy y
      | none => false) && entriesExtendedBy xs ys

end

theorem extendedBy_list_iff (xs ys : List Document) :
    (list xs).extendedBy (list ys) = true ↔ List.Forall₂ (fun x y => x.extendedBy y = true) xs ys := by
  rw [extendedBy]
  induction xs generalizing ys with
  | nil => cases ys <;> simp [itemsExtendedBy]
  | cons x xs ih => cases ys <;> simp [itemsExtendedBy, ih]

theorem extendedBy_object_iff (xs ys : List (String × Document)) :
    (object xs).extendedBy (object ys) = true ↔
      ∀ x ∈ xs, ∃ y, ys.lookup x.1 = some y ∧ x.2.extendedBy y = true := by
  rw [extendedBy]
  induction xs with
  | nil => simp [entriesExtendedBy]
  | cons x xs ih =>
    obtain ⟨key, x⟩ := x
    rw [entriesExtendedBy, Bool.and_eq_true, ih, List.forall_mem_cons]
    refine and_congr_left' ?_
    cases ys.lookup key <;> simp

end Document

namespace Value

/-- A predicate holds of a value, or of all the alternatives of a disjunction, at whatever depth they are nested. -/
inductive Throughout (p : Value → Prop) : Value → Prop
  | single {v : Value} (single : v.isDisjunction = false) (holds : p v) : Throughout p v
  | several {alternatives : List (Alternative Value)} (each : ∀ a ∈ alternatives, Throughout p a.value) :
      Throughout p (disjunction alternatives)

theorem exists_of_resolved {alternatives : List (Alternative Value)} {w : Value}
    (h : (disjunction alternatives).resolved = some w) : ∃ a ∈ alternatives, a.value = w := by
  simp only [resolved] at h
  split at h
  · rename_i only filtered
    cases h
    have left : only ∈ alternatives.filter (·.marked) := by simp [filtered]
    exact ⟨only, (List.mem_filter.mp left).1, rfl⟩
  · cases h

theorem Exports.of_disjunction {alternatives : List (Alternative Value)} {d : Document}
    (h : (disjunction alternatives).Exports d) :
    ∃ w, (disjunction alternatives).resolved = some w ∧ w.Exports d := by
  rcases h.cases with ⟨scalar, _⟩ | ⟨_, _, same, _⟩ | ⟨_, _, same, _⟩ | ⟨_, w, same, resolved, exports⟩
  · cases scalar
  · cases same
  · cases same
  · cases same
    exact ⟨w, resolved, exports⟩

namespace Throughout

variable {p : Value → Prop} {v : Value}

theorem disjunction_iff {alternatives : List (Alternative Value)} :
    Throughout p (disjunction alternatives) ↔ ∀ a ∈ alternatives, Throughout p a.value := by
  refine ⟨fun h => ?_, .several⟩
  cases h with
  | single single => cases single
  | several each => exact each

/-- No disjunction of alternatives brings in anything new. -/
theorem disjoin {alternatives : List (Alternative Value)} (each : ∀ a ∈ alternatives, Throughout p a.value) :
    Throughout p (disjoin alternatives) := by
  have several : ∀ alternatives : List (Alternative Value),
      ¬Throughout p (disjunction alternatives) ↔ ∃ a ∈ alternatives, ¬Throughout p a.value := by
    intro alternatives
    simp only [disjunction_iff, not_forall, exists_prop]
  by_contra missed
  obtain ⟨u, distinct, missed⟩ := (holds_ofDistinct (p := fun v => ¬Throughout p v) several _).mp missed
  obtain ⟨i, flat, same⟩ := Alternative.value_of_mem_dedup distinct
  obtain ⟨a, inside, member⟩ := List.mem_flatMap.mp flat
  rw [same] at missed
  exact (holds_flatten (p := fun v => ¬Throughout p v) several a).mp ⟨i, member, missed⟩ (each a inside)

/-- What a value is exported to is what an alternative is, which the predicate holds of. -/
theorem exported (h : Throughout p v) {d : Document} (exports : v.Exports d) : ∃ w, p w ∧ w.Exports d := by
  induction h with
  | single _ holds => exact ⟨_, holds, exports⟩
  | several _ ih =>
    obtain ⟨w, resolved, exports⟩ := exports.of_disjunction
    obtain ⟨a, inside, rfl⟩ := exists_of_resolved resolved
    exact ih a inside exports

end Throughout

section Fields

variable {xs ys met : List (Field Value)} {es es' : List (String × Document)}

theorem lookup_exported {f : Field Value} (inside : List.Forall₂ ExportsField (xs.filter (·.isExported)) es)
    (found : Field.find? xs f.label = some f) (exported : f.isExported = true) :
    ∃ d, es.lookup f.label = some d ∧ f.value.Exports d := by
  induction xs generalizing es with
  | nil => cases found
  | cons g xs ih =>
    rw [Field.find?_cons] at found
    rw [List.filter_cons] at inside
    by_cases here : g.label = f.label
    · rw [if_pos here] at found
      cases found
      rw [if_pos exported] at inside
      obtain ⟨⟨key, d⟩, rest, ⟨same, exports⟩, _, rfl⟩ := List.forall₂_cons_left_iff.mp inside
      cases same
      exact ⟨d, List.lookup_cons_self, exports⟩
    · rw [if_neg here] at found
      split at inside
      · obtain ⟨⟨key, _⟩, rest, ⟨same, _⟩, tail, rfl⟩ := List.forall₂_cons_left_iff.mp inside
        cases same
        obtain ⟨d, looked, exports⟩ := ih tail found
        exact ⟨d, by rw [List.lookup_cons, beq_false_of_ne (Ne.symm here)]; exact looked, exports⟩
      · exact ih inside found

/-- The output of a struct extends that of another one when each field that the other one exports is exported by it
    under the same label, with an extension of what it was. -/
theorem extended_struct {zs : List (Field Value)} (inside : List.Forall₂ ExportsField (xs.filter (·.isExported)) es)
    (inside' : List.Forall₂ ExportsField (zs.filter (·.isExported)) es')
    (each : ∀ x ∈ xs, x.isExported = true → ∃ z, Field.find? zs x.label = some z ∧ z.isExported = true ∧
      ∀ d d', x.value.Exports d → z.value.Exports d' → d.extendedBy d' = true) :
    (Document.object es).extendedBy (.object es') = true := by
  rw [Document.extendedBy_object_iff]
  intro e member
  obtain ⟨x, filtered, key, exports⟩ := exists_left_of_mem inside member
  obtain ⟨inLeft, exported⟩ := List.mem_filter.mp filtered
  obtain ⟨z, found, exported', extends'⟩ := each x inLeft exported
  have label := Field.label_of_find? found
  rw [← label] at found
  obtain ⟨d', looked, exports'⟩ := lookup_exported inside' found exported'
  refine ⟨d', ?_, extends' e.2 d' exports exports'⟩
  rw [key, ← label, looked]

/-- A field that is exported stays so, whatever it is unified with. -/
theorem exported_joinField {f g : Field Value} {v : Value} (h : f.isExported = true) :
    (joinField f g v).isExported = true := by
  simp only [Field.isExported, joinField, Bool.and_eq_true, Bool.not_eq_true', beq_iff_eq] at h ⊢
  exact ⟨h.1, by rw [h.2, Bool.false_and]⟩

theorem extended_list {items zs : List Value} {ds ds' : List Document} (inside : List.Forall₂ Exports items ds)
    (inside' : List.Forall₂ Exports zs ds')
    (each : List.Forall₂ (fun x z => ∀ d d', x.Exports d → z.Exports d' → d.extendedBy d' = true) items zs) :
    (Document.list ds).extendedBy (.list ds') = true := by
  rw [Document.extendedBy_list_iff]
  induction each generalizing ds ds' with
  | nil =>
    cases inside
    cases inside'
    exact .nil
  | cons first _ ih =>
    obtain ⟨d, ds, here, rest, rfl⟩ := List.forall₂_cons_left_iff.mp inside
    obtain ⟨d', ds', here', rest', rfl⟩ := List.forall₂_cons_left_iff.mp inside'
    exact .cons (first d d' here here') (ih rest rest')

end Fields

theorem extendedBy_scalarDocument {v : Value} (scalar : v.isScalar = true) :
    v.scalarDocument.extendedBy v.scalarDocument = true := by
  cases v <;> first
    | exact absurd scalar Bool.false_ne_true
    | simp [scalarDocument, Document.extendedBy]

/-- Wherever a value stands, it is exported to the same data. -/
theorem extended_self {v : Value} (wellFormed : v.WellFormed) {d d' : Document} (h : v.Exports d) (h' : v.Exports d') :
    d.extendedBy d' = true := by
  induction v using parts_induction generalizing d d' with
  | step v ih =>
    rcases h.cases with ⟨scalar, rfl⟩ | ⟨items, ds, rfl, rfl, inside⟩ | ⟨fields, es, rfl, rfl, inside⟩ |
      ⟨alternatives, w, rfl, resolved, inside⟩
    · rw [h'.of_scalar scalar]
      exact extendedBy_scalarDocument scalar
    · obtain ⟨ds', rfl, inside'⟩ := h'.of_list
      refine extended_list inside inside' (List.forall₂_same.mpr fun item member d d' => ?_)
      exact ih item member (wellFormed.item member)
    · obtain ⟨es', rfl, inside'⟩ := h'.of_struct
      refine extended_struct inside inside' fun x member exported => ?_
      refine ⟨x, wellFormed.distinct.find?_of_mem member, exported, fun d d' => ?_⟩
      exact ih x.value (List.mem_map_of_mem member) (wellFormed.field member)
    · obtain ⟨w', resolved', inside'⟩ := h'.of_disjunction
      rw [resolved] at resolved'
      cases resolved'
      obtain ⟨a, member, rfl⟩ := exists_of_resolved resolved
      exact ih a.value (List.mem_map_of_mem member) (wellFormed.alternative member) inside inside'

/-- Whether whatever a value is exported to extends a document. -/
def Extends (d : Document) (v : Value) : Prop := ∀ d', v.Exports d' → d.extendedBy d' = true

section Unification

variable {a b v : Value} {d : Document}

theorem Exports.shape (h : v.Exports d) : v.isPlain = true ∨ v.isDisjunction = true := by
  rcases h.cases with ⟨scalar, _⟩ | ⟨_, _, rfl, _⟩ | ⟨_, _, rfl, _⟩ | ⟨_, _, rfl, _⟩
  · cases v <;> first
      | exact .inl rfl
      | exact absurd scalar Bool.false_ne_true
  · exact .inl rfl
  · exact .inl rfl
  · exact .inr rfl

theorem forall₂_of_itemsJoin {R : Value → Value → Prop} {xs ys vs : List Value} (joined : ItemsJoin xs ys vs)
    (each : ∀ x ∈ xs, ∀ y ∈ ys, ∀ v, x.unify y = .ok v → R x v) : List.Forall₂ R xs vs := by
  induction joined with
  | nil => exact .nil
  | cons first _ ih =>
    refine .cons (each _ List.mem_cons_self _ List.mem_cons_self _ first) (ih fun x left y right => ?_)
    exact each x (List.mem_cons_of_mem _ left) y (List.mem_cons_of_mem _ right)

theorem extends_throughout (undivided : a.Undivided) (wellFormed : a.WellFormed) (exports : a.Exports d) :
    Throughout (Extends d) a :=
  .single undivided.here fun _ => extended_self wellFormed exports

/-- Unification keeps what a value without disjunctions is exported to, in whichever alternative. -/
theorem extends_unify (undivided : a.Undivided) (wellFormed : a.WellFormed) (exports : a.Exports d)
    (h : a.unify b = .ok v) : Throughout (Extends d) v := by
  induction a, b using pair_induction generalizing d v with
  | step a b ih =>
    have kept := extends_throughout undivided wellFormed exports
    have rule := unify_rule a b
    generalize a.unify b = result at h rule
    cases rule with
    | topRight | kindRight | equal =>
      cases h
      exact kept
    | topLeft | kinds | kindLeft =>
      rcases exports.shape with plain | several
      · cases plain
      · cases several
    | alternatives _ _ _ _ either =>
      obtain ⟨_, rfl⟩ := settle_eq_ok.mp h
      refine .disjoin fun c member => ?_
      obtain ⟨x, inLeft, y, inRight, unified, _⟩ := mem_alternatives_pairings.mp member
      have smaller := sizeOf_alternatives_lt either inLeft inRight
      rw [ofValue_single undivided.here, List.mem_singleton] at inLeft
      subst inLeft
      exact ih a y.value smaller undivided wellFormed exports unified
    | structs xs ys met fields =>
      cases h
      obtain ⟨es, rfl, inside⟩ := exports.of_struct
      refine .single rfl fun d' exports' => ?_
      obtain ⟨es', rfl, inside'⟩ := exports'.of_struct
      refine extended_struct inside inside' fun x member exported => ?_
      have left := wellFormed.distinct.find?_of_mem member
      have joined := fieldJoins_merged fields x.label
      rw [left] at joined
      cases right : Field.find? ys x.label with
      | none =>
        rw [right] at joined
        exact ⟨x, joined.none_right, exported, fun _ _ => extended_self (wellFormed.field member)⟩
      | some y =>
        rw [right] at joined
        generalize found : Field.find? (mergeFields xs met) x.label = z at joined
        cases joined with
        | both _ _ w unified =>
          refine ⟨_, rfl, exported_joinField exported, fun d d' ofLeft ofBoth => ?_⟩
          have smaller := sizeOf_fields_lt member (Field.mem_of_find? right)
          have all := ih _ _ smaller (undivided.field member) (wellFormed.field member) ofLeft unified
          obtain ⟨w, extends', exports⟩ := all.exported ofBoth
          exact extends' d' exports
    | lists xs ys met lengths items =>
      cases h
      obtain ⟨ds, rfl, inside⟩ := exports.of_list
      refine .single rfl fun d' exports' => ?_
      obtain ⟨ds', rfl, inside'⟩ := exports'.of_list
      refine extended_list inside inside' ?_
      refine forall₂_of_itemsJoin (itemsJoin_of_unifyItems lengths items) fun x left y right w unified d d' ofLeft ofBoth => ?_
      have smaller := sizeOf_items_lt left right
      have all := ih _ _ smaller (undivided.item left) (wellFormed.item left) ofLeft unified
      obtain ⟨w, extends', exports⟩ := all.exported ofBoth
      exact extends' d' exports
    | _ => cases h

end Unification

/-- What a value without disjunctions is exported to is kept by all it is unified with: if the result is exported at
    all, then to an extension. -/
theorem document_extendedBy_unified {a b v : Value} {d d' : Document} (undivided : a.Undivided)
    (wellFormed : a.WellFormed) (before : a.document = .ok d) (unified : a.unify b = .ok v)
    (after : v.document = .ok d') : d.extendedBy d' = true := by
  obtain ⟨w, extends', exports⟩ :=
    (extends_unify undivided wellFormed ⟨_, _, _, before⟩ unified).exported ⟨_, _, _, after⟩
  exact extends' d' exports

/-- The default of the other value clashes, so another alternative of it is taken; a field that it has as an optional
    one is still exported, and a field is added inside a list. -/
theorem document_extendedBy_unified_alternatives :
    let a := struct [{ label := "port", value := int 80 }, { label := "rules", value := list [struct []] }]
    let rule := struct [{ label := "action", value := string "allow" }]
    let b := disjunction [⟨struct [{ label := "port", value := kind .string }], true⟩,
      ⟨struct [{ label := "rules", value := list [rule] },
        { label := "port", optional := true, value := disjunction [⟨int 443, true⟩, ⟨int 80, false⟩] }], false⟩]
    a.Undivided ∧ a.WellFormed ∧ ∃ d v d', a.document = .ok d ∧ a.unify b = .ok v ∧ v.document = .ok d' ∧
      d.extendedBy d' = true := by
  intro a rule b
  have undivided : a.Undivided := by
    refine .intro rfl fun part inside => ?_
    rcases List.mem_cons.mp inside with rfl | inside
    · exact .intro rfl (by simp [parts])
    · rw [List.mem_singleton.mp inside]
      refine .intro rfl fun part inside => ?_
      rw [List.mem_singleton.mp inside]
      exact .intro rfl (by simp [parts])
  have wellFormed : a.WellFormed := by
    simp [a, Field.Distinct]
    exact wellFormed_of_parts_eq_nil rfl
  obtain ⟨d, before⟩ := exists_of_toBool (show a.document.toBool = true by decide +kernel)
  obtain ⟨v, unified, output⟩ := exists_of_any (p := fun v : Value => v.document.toBool)
    (show ((a.unify b).toOption.any fun v : Value => v.document.toBool) = true by decide +kernel)
  obtain ⟨d', after⟩ := exists_of_toBool output
  have extends' := document_extendedBy_unified undivided wellFormed before unified after
  exact ⟨undivided, wellFormed, d, v, d', before, unified, after, extends'⟩

end Value

end StackLattice
