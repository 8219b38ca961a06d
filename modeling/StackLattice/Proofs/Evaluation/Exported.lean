import StackLattice.Evaluation.Export
import StackLattice.Proofs.Document.Same
import StackLattice.Proofs.Evaluation.Operators

/-!
What the parts of a value are exported to. Tame values of the same branches are exported to the same document.
-/

namespace StackLattice

open Syntax (LabelKind)

variable {kinds : String → LabelKind}

theorem Field.Distinct.filter {fields : List (Field Value)} (h : Distinct fields) (p : Field Value → Bool) :
    Distinct (fields.filter p) := List.Nodup.sublist (List.filter_sublist.map _) h

theorem Field.Distinct.length_le {xs ys : List (Field Value)} (h : Distinct xs)
    (found : ∀ x ∈ xs, ∃ y ∈ ys, y.label = x.label) : xs.length ≤ ys.length := by
  have subset : xs.map (·.label) ⊆ ys.map (·.label) := by
    intro label member
    obtain ⟨x, inside, rfl⟩ := List.mem_map.mp member
    obtain ⟨y, there, same⟩ := found x inside
    exact List.mem_map.mpr ⟨y, there, same⟩
  simpa using (List.subperm_of_subset h subset).length_le

namespace Value

def Exports (v : Value) (d : Document) : Prop :=
  ∃ path position depth, v.documentAt path position depth = .ok d

def scalarDocument : Value → Document
  | bool b => .bool b
  | int n => .int n
  | float x => .float x
  | string s => .string s
  | _ => .null

theorem exports_items {items : List Value} {ds : List Document} {index depth : Nat} {path : String}
    {position : Option Position} (h : documentItems items index path position depth = .ok ds) :
    List.Forall₂ Exports items ds := by
  induction items generalizing index ds with
  | nil =>
    rw [documentItems] at h
    cases h
    exact .nil
  | cons item items ih =>
    rw [documentItems] at h
    obtain ⟨d, first, h⟩ := bind_eq_ok h
    obtain ⟨ds, rest, h⟩ := bind_eq_ok h
    cases h
    exact .cons ⟨_, _, _, first⟩ (ih rest)

/-- Whether an entry is that of a field, with a document that the field is related to. -/
def Entry (R : Field Value → Document → Prop) (f : Field Value) (entry : String × Document) : Prop :=
  entry.1 = f.label ∧ R f entry.2

def ExportsField : Field Value → String × Document → Prop := Entry fun f => f.value.Exports

theorem exports_fields {fields : List (Field Value)} {entries : List (String × Document)} {depth : Nat}
    {path : String} {position : Option Position}
    (h : documentFields fields path position depth = .ok entries) :
    List.Forall₂ ExportsField (fields.filter (·.isExported)) entries := by
  induction fields generalizing entries with
  | nil =>
    rw [documentFields] at h
    cases h
    exact .nil
  | cons f fields ih =>
    rw [documentFields] at h
    by_cases exported : f.isExported = true
    · rw [if_pos exported] at h
      obtain ⟨d, first, h⟩ := bind_eq_ok h
      obtain ⟨ds, rest, h⟩ := bind_eq_ok h
      cases h
      rw [List.filter_cons_of_pos exported]
      exact .cons ⟨rfl, _, _, _, first⟩ (ih rest)
    · rw [if_neg exported] at h
      rw [List.filter_cons_of_neg exported]
      exact ih h

/-- Only scalars, structs, lists, and disjunctions with one default have a document. -/
theorem Exports.cases {v : Value} {d : Document} (h : v.Exports d) :
    (v.isScalar = true ∧ d = v.scalarDocument) ∨
      (∃ items ds, v = list items ∧ d = .list ds ∧ List.Forall₂ Exports items ds) ∨
      (∃ fields entries, v = struct fields ∧ d = .object entries ∧
        List.Forall₂ ExportsField (fields.filter (·.isExported)) entries) ∨
      ∃ alternatives w, v = disjunction alternatives ∧ v.resolved = some w ∧ w.Exports d := by
  obtain ⟨path, position, depth, h⟩ := h
  rw [documentAt.eq_def] at h
  split at h
  · cases h
  · cases v with
    | list items =>
      obtain ⟨ds, inside, h⟩ := bind_eq_ok h
      cases h
      exact .inr (.inl ⟨items, ds, rfl, rfl, exports_items inside⟩)
    | struct fields =>
      obtain ⟨entries, inside, h⟩ := bind_eq_ok h
      cases h
      exact .inr (.inr (.inl ⟨fields, entries, rfl, rfl, exports_fields inside⟩))
    | disjunction alternatives =>
      simp only [] at h
      split at h
      · rename_i w resolved
        exact .inr (.inr (.inr ⟨alternatives, w, rfl, resolved, _, _, _, h⟩))
      · cases h
    | float x =>
      simp only [] at h
      split at h
      · cases h
        exact .inl ⟨rfl, rfl⟩
      · cases h
    | top | kind k => cases h
    | _ =>
      cases h
      exact .inl ⟨rfl, rfl⟩

/-- Structs of the same branches have the same labels, each optional or not and of the same branches in both. -/
theorem fields_of_branches {xs ys : List (Field Value)} (left : (struct xs).Tame kinds)
    (right : (struct ys).Tame kinds) (same : (struct xs).branches = (struct ys).branches) (label : String) :
    Option.Rel (fun x y : Field Value => x ∈ xs ∧ y ∈ ys ∧ x.isExported = y.isExported ∧
      x.value.branches = y.value.branches) (Field.find? xs label) (Field.find? ys label) := by
  have flags : signature xs = signature ys := by
    choose choice chosen using Evaluation.allowed_nonempty left
    have branch : structSet (signature xs) choice ∈ (struct xs).branches :=
      (branch_struct xs _).mpr ⟨choice, chosen, rfl⟩
    rw [same] at branch
    obtain ⟨choice', chosen', sets⟩ := (branch_struct ys _).mp branch
    exact signature_unique left.wellFormed.distinct right.wellFormed.distinct
      (Evaluation.nonempty_of_allowed left chosen) (Evaluation.nonempty_of_allowed right chosen') sets
  have here := congrFun flags label
  unfold signature at here
  cases inLeft : Field.find? xs label with
  | none =>
    cases inRight : Field.find? ys label with
    | none => exact .none
    | some y => simp [inLeft, inRight] at here
  | some x =>
    cases inRight : Field.find? ys label with
    | none => simp [inLeft, inRight] at here
    | some y =>
      have optional : x.optional = y.optional := by simpa [inLeft, inRight] using here
      have memberX := Field.mem_of_find? inLeft
      have memberY := Field.mem_of_find? inRight
      have kind : x.kind = y.kind := by
        have ofLeft : x.kind = kinds x.label := left.here.2 x memberX
        have ofRight : y.kind = kinds y.label := right.here.2 y memberY
        rw [ofLeft, ofRight, Field.label_of_find? inLeft, Field.label_of_find? inRight]
      refine .some ⟨memberX, memberY, ?_, ?_⟩
      · rw [Field.isExported, Field.isExported, kind, optional]
      · rw [← Evaluation.selections_struct left inLeft, same, Evaluation.selections_struct right inRight]

/-- The exported fields of one struct are found in another one whose fields are exported just as they are. -/
theorem exists_exported {xs ys : List (Field Value)} (left : Field.Distinct xs) {R : Value → Value → Prop}
    (fields : ∀ label, Option.Rel (fun x y : Field Value => x.isExported = y.isExported ∧ R x.value y.value)
      (Field.find? xs label) (Field.find? ys label)) :
    ∀ x ∈ xs.filter (·.isExported), ∃ y ∈ ys.filter (·.isExported), y.label = x.label ∧ R x.value y.value := by
  intro x member
  obtain ⟨inLeft, exported⟩ := List.mem_filter.mp member
  have related := fields x.label
  rw [left.find?_of_mem inLeft] at related
  generalize found : Field.find? ys x.label = found? at related
  cases related with
  | some agree =>
    obtain ⟨exports, holds⟩ := agree
    exact ⟨_, List.mem_filter.mpr ⟨Field.mem_of_find? found, exports ▸ exported⟩, Field.label_of_find? found, holds⟩

theorem exported_of_branches {xs ys : List (Field Value)} (left : (struct xs).Tame kinds)
    (right : (struct ys).Tame kinds) (same : (struct xs).branches = (struct ys).branches) :
    ∀ x ∈ xs.filter (·.isExported), ∃ y ∈ ys.filter (·.isExported), y.label = x.label ∧
      x.value.branches = y.value.branches :=
  exists_exported left.wellFormed.distinct (R := fun x y => x.branches = y.branches) fun label =>
    rel_imp (fields_of_branches left right same label) fun _ _ _ _ agree => agree.2.2

theorem items_of_choices {xs ys : List Value} (left : ∀ x ∈ xs, x.Tame kinds) (right : ∀ y ∈ ys, y.Tame kinds)
    (same : ∀ choice, List.Forall₂ Branch xs choice ↔ List.Forall₂ Branch ys choice) :
    List.Forall₂ (fun x y => x.branches = y.branches) xs ys := by
  induction xs generalizing ys with
  | nil =>
    have empty := (same []).mp .nil
    rw [List.forall₂_nil_right_iff] at empty
    rw [empty]
    exact .nil
  | cons x xs ih =>
    obtain ⟨P, first⟩ := (left x List.mem_cons_self).exists_branch
    obtain ⟨choice, rest⟩ := exists_forall₂_of_forall fun x' member =>
      (left x' (List.mem_cons_of_mem _ member)).exists_branch
    obtain ⟨y, ys, first', rest', rfl⟩ := List.forall₂_cons_right_iff.mp ((same (P :: choice)).mp (.cons first rest))
    refine .cons (Set.ext fun Q => ?_) (ih (fun x' member => left x' (List.mem_cons_of_mem _ member))
      (fun y' member => right y' (List.mem_cons_of_mem _ member)) fun choice => ?_)
    · have both := same (Q :: choice)
      rwa [List.forall₂_cons, List.forall₂_cons, and_iff_left rest, and_iff_left rest'] at both
    · have both := same (P :: choice)
      rwa [List.forall₂_cons, List.forall₂_cons, and_iff_right first, and_iff_right first'] at both

theorem items_of_branches {xs ys : List Value} (left : (list xs).Tame kinds) (right : (list ys).Tame kinds)
    (same : (list xs).branches = (list ys).branches) :
    List.Forall₂ (fun x y => x.branches = y.branches) xs ys := by
  have inhabited {items : List Value} (tame : (list items).Tame kinds) {choice : List (Set Value)}
      (chosen : List.Forall₂ Branch items choice) : ∀ S ∈ choice, S.Nonempty := by
    intro S member
    obtain ⟨x, inside, branch⟩ := exists_left_of_mem chosen member
    exact Branch.nonempty branch (tame.item inside)
  have forward {items items' : List Value} (tame : (list items).Tame kinds) (tame' : (list items').Tame kinds)
      (same : (list items).branches = (list items').branches) (choice : List (Set Value))
      (chosen : List.Forall₂ Branch items choice) : List.Forall₂ Branch items' choice := by
    have branch : listSet choice ∈ (list items).branches := (branch_list items _).mpr ⟨choice, chosen, rfl⟩
    rw [same] at branch
    obtain ⟨choice', chosen', sets⟩ := (branch_list items' _).mp branch
    rwa [listSet_injective (inhabited tame chosen) (inhabited tame' chosen') sets]
  refine items_of_choices (fun x member => left.item member) (fun y member => right.item member) fun choice => ?_
  exact ⟨forward left right same choice, forward right left same.symm choice⟩

theorem same_scalarDocument {a b : Value} (scalar : a.isScalar = true) (h : a.same b = true) :
    a.scalarDocument.same b.scalarDocument = true := by
  cases a <;> cases b <;> first
    | exact absurd scalar Bool.false_ne_true
    | simp_all [same, scalarDocument, Document.same]

theorem lookup_entries {R : Field Value → Document → Prop} {fields : List (Field Value)}
    {entries : List (String × Document)} (distinct : Field.Distinct fields)
    (each : List.Forall₂ (Entry R) fields entries) {f : Field Value} (member : f ∈ fields) :
    ∃ d, entries.lookup f.label = some d ∧ R f d := by
  induction each with
  | nil => cases member
  | @cons g entry fields entries first _ ih =>
    obtain ⟨key, d⟩ := entry
    obtain ⟨same, exported⟩ := first
    cases same
    rcases List.mem_cons.mp member with rfl | inside
    · exact ⟨d, List.lookup_cons_self, exported⟩
    · have other : (f.label == g.label) = false := beq_false_of_ne (distinct.head f inside).symm
      obtain ⟨d', found, exported'⟩ := ih distinct.tail inside
      exact ⟨d', by rw [List.lookup_cons, other]; exact found, exported'⟩

theorem isPlain_of_exports {v : Value} {d : Document} (tame : v.Tame kinds) (h : v.Exports d) :
    v.isPlain = true := by
  rcases h.cases with ⟨scalar, _⟩ | ⟨_, _, rfl, _⟩ | ⟨_, _, rfl, _⟩ | ⟨_, _, rfl, resolved, _⟩
  · cases v <;> first | rfl | exact absurd scalar Bool.false_ne_true
  · rfl
  · rfl
  · rw [tame.resolved] at resolved
    cases resolved

/-- Tame values with documents are of one shape if they have an instance in common. -/
theorem shapes_of_exports {a b c : Value} {d d' : Document} (left : a.Tame kinds) (right : b.Tame kinds)
    (h : a.Exports d) (h' : b.Exports d') (ofLeft : a.Admits c) (ofRight : b.Admits c) :
    (a.isScalar = true ∧ b.isScalar = true) ∨ (∃ xs ys, a = list xs ∧ b = list ys) ∨
      ∃ xs ys, a = struct xs ∧ b = struct ys := by
  have plain := isPlain_of_exports left h
  have plain' := isPlain_of_exports right h'
  have types := (typeName_of_admits plain ofLeft).trans (typeName_of_admits plain' ofRight).symm
  cases a <;> cases b <;> simp_all [isScalar, isPlain, typeName]

theorem same_of_admits_scalars {a b c : Value} (left : a.isScalar = true) (right : b.isScalar = true)
    (ofLeft : a.Admits c) (ofRight : b.Admits c) : a.same b = true := by
  rw [admits_scalar left] at ofLeft
  rw [admits_scalar right] at ofRight
  rw [same_congr_scalar left ofLeft, ← same_comm_scalar right, ofRight]

theorem Exports.of_scalar {v : Value} {d : Document} (scalar : v.isScalar = true) (h : v.Exports d) :
    d = v.scalarDocument := by
  rcases h.cases with ⟨_, same⟩ | ⟨_, _, rfl, _⟩ | ⟨_, _, rfl, _⟩ | ⟨_, _, rfl, _⟩
  · exact same
  all_goals exact absurd scalar Bool.false_ne_true

theorem Exports.of_list {items : List Value} {d : Document} (h : (list items).Exports d) :
    ∃ ds, d = .list ds ∧ List.Forall₂ Exports items ds := by
  rcases h.cases with ⟨scalar, _⟩ | ⟨_, ds, same, rfl, inside⟩ | ⟨_, _, same, _⟩ | ⟨_, _, same, _⟩
  · exact absurd scalar Bool.false_ne_true
  · cases same
    exact ⟨ds, rfl, inside⟩
  all_goals cases same

theorem Exports.of_struct {fields : List (Field Value)} {d : Document} (h : (struct fields).Exports d) :
    ∃ entries, d = .object entries ∧ List.Forall₂ ExportsField (fields.filter (·.isExported)) entries := by
  rcases h.cases with ⟨scalar, _⟩ | ⟨_, _, same, _⟩ | ⟨_, entries, same, rfl, inside⟩ | ⟨_, _, same, _⟩
  · exact absurd scalar Bool.false_ne_true
  · cases same
  · cases same
    exact ⟨entries, rfl, inside⟩
  · cases same

theorem same_items {xs ys : List Value} {ds ds' : List Document} (inside : List.Forall₂ Exports xs ds)
    (inside' : List.Forall₂ Exports ys ds') {R : Value → Value → Prop} (related : List.Forall₂ R xs ys)
    (each : ∀ x ∈ xs, ∀ y ∈ ys, R x y → ∀ d d', x.Exports d → y.Exports d' → d.same d' = true) :
    (Document.list ds).same (.list ds') = true := by
  rw [Document.same, Document.sameItems_iff]
  induction related generalizing ds ds' with
  | nil =>
    cases inside
    cases inside'
    exact .nil
  | @cons x y xs ys first _ ih =>
    cases inside with
    | cons here rest =>
      cases inside' with
      | cons here' rest' =>
        refine .cons (each x List.mem_cons_self y List.mem_cons_self first _ _ here here') ?_
        exact ih rest rest' fun x' member y' member' =>
          each x' (List.mem_cons_of_mem _ member) y' (List.mem_cons_of_mem _ member')

theorem same_entries {R S : Field Value → Document → Prop} {xs ys : List (Field Value)}
    {es es' : List (String × Document)} (distinct : Field.Distinct ys) (inside : List.Forall₂ (Entry R) xs es)
    (inside' : List.Forall₂ (Entry S) ys es') (lengths : xs.length = ys.length)
    (each : ∀ x ∈ xs, ∃ y ∈ ys, y.label = x.label ∧ ∀ d d', R x d → S y d' → d.same d' = true) :
    (Document.object es).same (.object es') = true := by
  rw [Document.same_object_iff, ← inside.length_eq, ← inside'.length_eq]
  refine ⟨lengths, fun e member => ?_⟩
  obtain ⟨x, inLeft, key, exported⟩ := exists_left_of_mem inside member
  obtain ⟨y, inRight, label, same⟩ := each x inLeft
  obtain ⟨d', found, exported'⟩ := lookup_entries distinct inside' inRight
  refine ⟨d', ?_, same e.2 d' exported exported'⟩
  rw [key, ← label, found]

/-- What is exported of a tame value is determined by its branches. -/
theorem document_same {a b : Value} (left : a.Tame kinds) (right : b.Tame kinds) (same : a.branches = b.branches)
    {d d' : Document} (h : a.Exports d) (h' : b.Exports d') : d.same d' = true := by
  induction a using parts_induction generalizing b d d' with
  | step a ih =>
    obtain ⟨c, ofLeft⟩ := left.exists_instance
    have ofRight : b.Admits c := by
      obtain ⟨P, branch, holds⟩ := (left.wellFormed.branches c).mp ofLeft
      rw [← mem_branches, same] at branch
      exact (right.wellFormed.branches c).mpr ⟨P, branch, holds⟩
    rcases shapes_of_exports left right h h' ofLeft ofRight with ⟨scalar, scalar'⟩ | ⟨xs, ys, rfl, rfl⟩ | ⟨xs, ys, rfl, rfl⟩
    · rw [h.of_scalar scalar, h'.of_scalar scalar']
      exact same_scalarDocument scalar (same_of_admits_scalars scalar scalar' ofLeft ofRight)
    · obtain ⟨ds, rfl, inside⟩ := h.of_list
      obtain ⟨ds', rfl, inside'⟩ := h'.of_list
      exact same_items inside inside' (items_of_branches left right same) fun x member y member' alike d d' =>
        ih x member (left.item member) (right.item member') alike
    · obtain ⟨es, rfl, inside⟩ := h.of_struct
      obtain ⟨es', rfl, inside'⟩ := h'.of_struct
      have distinct := left.wellFormed.distinct.filter (·.isExported)
      have distinct' := right.wellFormed.distinct.filter (·.isExported)
      have forward := exported_of_branches left right same
      have backward := exported_of_branches right left same.symm
      have lengths : (xs.filter (·.isExported)).length = (ys.filter (·.isExported)).length := by
        apply le_antisymm
        · exact distinct.length_le fun x member => (forward x member).imp fun _ agree => ⟨agree.1, agree.2.1⟩
        · exact distinct'.length_le fun y member => (backward y member).imp fun _ agree => ⟨agree.1, agree.2.1⟩
      refine same_entries distinct' inside inside' lengths fun x member => ?_
      obtain ⟨y, member', label, alike⟩ := forward x member
      have inLeft := (List.mem_filter.mp member).1
      have inRight := (List.mem_filter.mp member').1
      refine ⟨y, member', label, fun d d' => ?_⟩
      exact ih x.value (List.mem_map_of_mem inLeft) (left.field inLeft) (right.field inRight) alike

end Value

end StackLattice
