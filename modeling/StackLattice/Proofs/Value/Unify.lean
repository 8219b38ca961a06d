import StackLattice.Proofs.Value.Same

/-!
What unification does, one rule at a time: `unify_rule` says once which rule two values fall under, and
the lists of fields, elements and alternatives have one equation each.
-/

namespace StackLattice

/-- The alternatives of a value; a value that is no disjunction is its own only one. -/
def Alternative.ofValue : Value → List (Alternative Value)
  | .disjunction alternatives => alternatives
  | v => [⟨v, false⟩]

namespace Value

def isDisjunction : Value → Bool
  | disjunction _ => true
  | _ => false

/-- Whether there is no disjunction in a value. -/
def Undivided (v : Value) : Prop := v.Everywhere fun part => part.isDisjunction = false

def isPlain : Value → Bool
  | top | kind _ | disjunction _ => false
  | _ => true

/-- Whether an alternative counts as a default: without any mark among them, all of them do. -/
def counts (alternatives : List (Alternative Value)) (a : Alternative Value) : Bool :=
  a.marked || !Alternative.anyMarked alternatives

/-- The outcomes of all pairs of alternatives. -/
def pairings (xs ys : List (Alternative Value)) : List Outcome :=
  xs.flatMap fun x => ys.map fun y => ⟨x.value.unify y.value, counts xs x && counts ys y⟩

theorem unifyRow_eq (marked rightMarked : Bool) (x : Value) (ys : List (Alternative Value)) :
    unifyRow marked rightMarked x ys =
      ys.map fun y => ⟨x.unify y.value, marked && (y.marked || !rightMarked)⟩ := by
  induction ys with
  | nil => rw [unifyRow]; rfl
  | cons y ys ih => rw [unifyRow, ih]; rfl

theorem unifyPairs_eq (leftMarked rightMarked : Bool) (xs ys : List (Alternative Value)) :
    unifyPairs leftMarked rightMarked xs ys = xs.flatMap fun x => ys.map fun y =>
      ⟨x.value.unify y.value, (x.marked || !leftMarked) && (y.marked || !rightMarked)⟩ := by
  induction xs with
  | nil => rw [unifyPairs]; rfl
  | cons x xs ih => rw [unifyPairs, unifyRow_eq, ih]; rfl

theorem unifyLeft_eq (leftMarked : Bool) (xs : List (Alternative Value)) (b : Value) :
    unifyLeft leftMarked xs b = xs.map fun x => ⟨x.value.unify b, x.marked || !leftMarked⟩ := by
  induction xs with
  | nil => rw [unifyLeft]; rfl
  | cons x xs ih => rw [unifyLeft, ih]; rfl

theorem unifyRight_eq (rightMarked : Bool) (a : Value) (ys : List (Alternative Value)) :
    unifyRight rightMarked a ys = ys.map fun y => ⟨a.unify y.value, y.marked || !rightMarked⟩ := by
  induction ys with
  | nil => rw [unifyRight]; rfl
  | cons y ys ih => rw [unifyRight, ih]; rfl

/-- How two values are unified. -/
inductive Rule : Value → Value → Except Conflict Value → Prop
  | topLeft (b : Value) : Rule top b (.ok b)
  | topRight (a : Value) : Rule a top (.ok a)
  | alternatives (a b : Value) (left : a ≠ top) (right : b ≠ top)
      (either : a.isDisjunction = true ∨ b.isDisjunction = true) :
      Rule a b (settle (pairings (Alternative.ofValue a) (Alternative.ofValue b)))
  | kinds (x y k : Kind) (meet : x.meet y = some k) : Rule (kind x) (kind y) (.ok (kind k))
  | kindsApart (x y : Kind) (meet : x.meet y = none) :
      Rule (kind x) (kind y) (.error { clash := .values (kind x) (kind y) })
  | kindLeft (k : Kind) (b : Value) (plain : b.isPlain = true) (admits : k.admits b = true) :
      Rule (kind k) b (.ok b)
  | kindRight (a : Value) (k : Kind) (plain : a.isPlain = true) (admits : k.admits a = true) :
      Rule a (kind k) (.ok a)
  | kindLeftApart (k : Kind) (b : Value) (plain : b.isPlain = true) (admits : k.admits b = false) :
      Rule (kind k) b (.error { clash := .values (kind k) b })
  | kindRightApart (a : Value) (k : Kind) (plain : a.isPlain = true) (admits : k.admits a = false) :
      Rule a (kind k) (.error { clash := .values a (kind k) })
  | structs (xs ys met : List (Field Value)) (fields : unifyFields xs ys = .ok met) :
      Rule (struct xs) (struct ys) (.ok (struct (mergeFields xs met)))
  | structsApart (xs ys : List (Field Value)) (c : Conflict) (fields : unifyFields xs ys = .error c) :
      Rule (struct xs) (struct ys) (.error c)
  | lists (xs ys met : List Value) (lengths : xs.length = ys.length)
      (items : unifyItems 0 xs ys = .ok met) : Rule (list xs) (list ys) (.ok (list met))
  | listsApart (xs ys : List Value) (lengths : xs.length = ys.length) (c : Conflict)
      (items : unifyItems 0 xs ys = .error c) : Rule (list xs) (list ys) (.error c)
  | lengthsApart (xs ys : List Value) (lengths : xs.length ≠ ys.length) :
      Rule (list xs) (list ys) (.error { clash := .lengths xs.length ys.length })
  | equal (a b : Value) (left : a.isScalar = true) (right : b.isScalar = true) (same : a.same b = true) :
      Rule a b (.ok a)
  | unequal (a b : Value) (left : a.isScalar = true) (right : b.isScalar = true)
      (same : a.same b = false) : Rule a b (.error { clash := .values a b })
  | shapesApart (a b : Value) (left : a.isPlain = true) (right : b.isPlain = true)
      (shapes : a.typeName ≠ b.typeName) : Rule a b (.error { clash := .values a b })

theorem unify_disjunctions (xs ys : List (Alternative Value)) :
    (disjunction xs).unify (disjunction ys) = settle (pairings xs ys) := by
  rw [unify, unifyPairs_eq]
  rfl

theorem unify_disjunction_left (xs : List (Alternative Value)) {b : Value} (top : b ≠ top)
    (single : b.isDisjunction = false) :
    (disjunction xs).unify b = settle (pairings xs (Alternative.ofValue b)) := by
  have other : ∀ ys, b = disjunction ys → False := by
    rintro ys rfl
    cases single
  have own : Alternative.ofValue b = [⟨b, false⟩] := by cases b <;> first | rfl | exact absurd single.symm Bool.false_ne_true
  rw [unify, unifyLeft_eq, own] <;> try assumption
  simp [pairings, counts, Alternative.anyMarked, List.map_eq_flatMap]

theorem unify_disjunction_right {a : Value} (ys : List (Alternative Value)) (top : a ≠ top)
    (single : a.isDisjunction = false) :
    a.unify (disjunction ys) = settle (pairings (Alternative.ofValue a) ys) := by
  have other : ∀ xs, a = disjunction xs → False := by
    rintro xs rfl
    cases single
  have own : Alternative.ofValue a = [⟨a, false⟩] := by cases a <;> first | rfl | exact absurd single.symm Bool.false_ne_true
  rw [unify, unifyRight_eq, own] <;> try assumption
  simp [pairings, counts, Alternative.anyMarked]

theorem unify_of_isDisjunction {a b : Value} (left : a ≠ top) (right : b ≠ top)
    (either : a.isDisjunction = true ∨ b.isDisjunction = true) :
    a.unify b = settle (pairings (Alternative.ofValue a) (Alternative.ofValue b)) := by
  cases ha : a.isDisjunction with
  | true =>
    cases a <;> try cases ha
    rename_i xs
    cases hb : b.isDisjunction with
    | true =>
      cases b <;> try cases hb
      exact unify_disjunctions _ _
    | false => exact unify_disjunction_left xs right hb
  | false =>
    have hb : b.isDisjunction = true := by simpa [ha] using either
    cases b <;> try cases hb
    exact unify_disjunction_right _ left ha

theorem rule_of_disjunction {a b : Value} (left : a ≠ top) (right : b ≠ top)
    (either : a.isDisjunction = true ∨ b.isDisjunction = true) : Rule a b (a.unify b) := by
  rw [unify_of_isDisjunction left right either]
  exact .alternatives a b left right either

theorem rule_of_kinds (x y : Kind) : Rule (kind x) (kind y) ((kind x).unify (kind y)) := by
  rw [unify]
  split
  · exact .kinds x y _ ‹_›
  · exact .kindsApart x y ‹_›

theorem unify_kind_left (k : Kind) {b : Value} (plain : b.isPlain = true) :
    (kind k).unify b = if k.admits b then .ok b else .error { clash := .values (kind k) b } := by
  cases b <;> first | exact absurd plain Bool.false_ne_true | rw [unify] <;> simp

theorem rule_of_kind_left (k : Kind) {b : Value} (plain : b.isPlain = true) :
    Rule (kind k) b ((kind k).unify b) := by
  rw [unify_kind_left k plain]
  split
  · exact .kindLeft k b plain ‹_›
  · exact .kindLeftApart k b plain (Bool.eq_false_iff.mpr ‹_›)

theorem unify_kind_right {a : Value} (k : Kind) (plain : a.isPlain = true) :
    a.unify (kind k) = if k.admits a then .ok a else .error { clash := .values a (kind k) } := by
  cases a <;> first | exact absurd plain Bool.false_ne_true | rw [unify] <;> simp

theorem rule_of_kind_right {a : Value} (k : Kind) (plain : a.isPlain = true) :
    Rule a (kind k) (a.unify (kind k)) := by
  rw [unify_kind_right k plain]
  split
  · exact .kindRight a k plain ‹_›
  · exact .kindRightApart a k plain (Bool.eq_false_iff.mpr ‹_›)

theorem rule_of_structs (xs ys : List (Field Value)) :
    Rule (struct xs) (struct ys) ((struct xs).unify (struct ys)) := by
  rw [unify]
  cases fields : unifyFields xs ys with
  | ok met => exact .structs xs ys met fields
  | error c => exact .structsApart xs ys c fields

theorem rule_of_lists (xs ys : List Value) : Rule (list xs) (list ys) ((list xs).unify (list ys)) := by
  rw [unify]
  split
  · cases items : unifyItems 0 xs ys with
    | ok met => exact .lists xs ys met ‹_› items
    | error c => exact .listsApart xs ys ‹_› c items
  · exact .lengthsApart xs ys ‹_›

theorem unify_structs_eq_ok {xs ys : List (Field Value)} {v : Value} :
    (struct xs).unify (struct ys) = .ok v ↔
      ∃ met, unifyFields xs ys = .ok met ∧ v = struct (mergeFields xs met) := by
  rw [unify]
  cases unifyFields xs ys with
  | ok met =>
    simp only [Bind.bind, Except.bind, Pure.pure, Except.pure, Except.ok.injEq, exists_eq_left']
    exact eq_comm
  | error c => simp [Bind.bind, Except.bind]

theorem unify_lists_eq_ok {xs ys : List Value} {v : Value} :
    (list xs).unify (list ys) = .ok v ↔
      xs.length = ys.length ∧ ∃ met, unifyItems 0 xs ys = .ok met ∧ v = list met := by
  rw [unify]
  by_cases length : xs.length = ys.length
  · cases unifyItems 0 xs ys with
    | ok met =>
      simp only [length, if_true, true_and, Bind.bind, Except.bind, Pure.pure, Except.pure, Except.ok.injEq,
        exists_eq_left']
      exact eq_comm
    | error c => simp [length, Bind.bind, Except.bind]
  · simp [length]

theorem unify_scalars {a b : Value} (left : a.isScalar = true) (right : b.isScalar = true) :
    a.unify b = if a.same b then .ok a else .error { clash := .values a b } := by
  cases a <;> first
    | exact absurd left Bool.false_ne_true
    | cases b <;> first
      | exact absurd right Bool.false_ne_true
      | rw [unify] <;> simp

theorem unify_shapes {a b : Value} (left : a.isPlain = true) (right : b.isPlain = true)
    (shapes : a.typeName ≠ b.typeName) : a.unify b = .error { clash := .values a b } := by
  have unequal := same_of_shapes shapes
  cases a <;> first
    | exact absurd left Bool.false_ne_true
    | cases b <;> first
      | exact absurd right Bool.false_ne_true
      | exact absurd rfl shapes
      | rw [unify, if_neg (by simp [unequal])] <;> simp

theorem rule_of_plain {a b : Value} (left : a.isPlain = true) (right : b.isPlain = true) :
    Rule a b (a.unify b) := by
  by_cases shapes : a.typeName = b.typeName
  · have scalars (la : a.isScalar = true) (rb : b.isScalar = true) : Rule a b (a.unify b) := by
      rw [unify_scalars la rb]
      split
      · exact .equal a b la rb ‹_›
      · exact .unequal a b la rb (Bool.eq_false_iff.mpr ‹_›)
    cases a <;> first
      | exact absurd left Bool.false_ne_true
      | cases b <;> first
        | exact absurd right Bool.false_ne_true
        | exact scalars rfl rfl
        | exact rule_of_structs _ _
        | exact rule_of_lists _ _
        | exact absurd shapes (by simp [typeName])
  · rw [unify_shapes left right shapes]
    exact .shapesApart a b left right shapes

/-- Any two values fall under one of the rules. -/
theorem unify_rule (a b : Value) : Rule a b (a.unify b) := by
  by_cases left : a = top
  · subst left
    rw [unify]
    exact .topLeft b
  by_cases right : b = top
  · subst right
    rw [unify] <;> first | exact .topRight a | exact left
  by_cases either : a.isDisjunction = true ∨ b.isDisjunction = true
  · exact rule_of_disjunction left right either
  rw [not_or, Bool.not_eq_true, Bool.not_eq_true] at either
  obtain ⟨singleA, singleB⟩ := either
  have kindOrPlain {v : Value} (known : v ≠ top) (single : v.isDisjunction = false) :
      (∃ k, v = kind k) ∨ v.isPlain = true := by
    cases v <;> first
      | exact absurd rfl known
      | exact absurd single.symm Bool.false_ne_true
      | exact .inl ⟨_, rfl⟩
      | exact .inr rfl
  rcases kindOrPlain left singleA with ⟨x, rfl⟩ | plainA
  · rcases kindOrPlain right singleB with ⟨y, rfl⟩ | plainB
    · exact rule_of_kinds x y
    · exact rule_of_kind_left x plainB
  · rcases kindOrPlain right singleB with ⟨y, rfl⟩ | plainB
    · exact rule_of_kind_right y plainA
    · exact rule_of_plain plainA plainB

theorem exists_left_of_mem {α β : Type} {R : α → β → Prop} {xs : List α} {ys : List β}
    (h : List.Forall₂ R xs ys) {y : β} (member : y ∈ ys) : ∃ x ∈ xs, R x y := by
  induction h with
  | nil => cases member
  | cons first _ ih =>
    rcases List.mem_cons.mp member with rfl | member
    · exact ⟨_, List.mem_cons_self, first⟩
    · obtain ⟨x, inLeft, related⟩ := ih member
      exact ⟨x, List.mem_cons_of_mem _ inLeft, related⟩

theorem bind_eq_ok {ε α β : Type} {m : Except ε α} {k : α → Except ε β} {b : β} (h : (m >>= k) = .ok b) :
    ∃ a, m = .ok a ∧ k a = .ok b := by
  cases m with
  | error e => cases h
  | ok a => exact ⟨a, rfl, h⟩

theorem mapM_eq_ok {ε α β : Type} (f : α → Except ε β) (xs : List α) (results : List β) :
    xs.mapM f = .ok results ↔ List.Forall₂ (fun x result => f x = .ok result) xs results := by
  induction xs generalizing results with
  | nil =>
    rw [List.mapM_nil, List.forall₂_nil_left_iff]
    exact ⟨fun h => (Except.ok.inj h).symm, fun h => congrArg Except.ok h.symm⟩
  | cons x xs ih =>
    rw [List.mapM_cons, List.forall₂_cons_left_iff]
    constructor
    · intro h
      obtain ⟨result, first, h⟩ := bind_eq_ok h
      obtain ⟨tail, rest, h⟩ := bind_eq_ok h
      cases h
      exact ⟨result, tail, first, (ih tail).mp rest, rfl⟩
    · rintro ⟨result, tail, first, more, rfl⟩
      simp [first, (ih tail).mpr more, Bind.bind, Except.bind, Pure.pure, Except.pure]

theorem exists_mapM_iff {ε α β : Type} (f : α → Except ε β) (P : β → Prop) (xs : List α) :
    (∃ results, xs.mapM f = .ok results ∧ ∀ r ∈ results, P r) ↔ ∀ x ∈ xs, ∃ r, f x = .ok r ∧ P r := by
  simp only [mapM_eq_ok]
  induction xs with
  | nil => simp
  | cons x xs ih =>
    rw [List.forall_mem_cons, ← ih]
    constructor
    · rintro ⟨results, succeed, holds⟩
      obtain ⟨r, rest, first, tail, rfl⟩ := List.forall₂_cons_left_iff.mp succeed
      rw [List.forall_mem_cons] at holds
      exact ⟨⟨r, first, holds.1⟩, rest, tail, holds.2⟩
    · rintro ⟨⟨r, first, here⟩, rest, tail, holds⟩
      exact ⟨r :: rest, .cons first tail, List.forall_mem_cons.mpr ⟨here, holds⟩⟩

/-- What becomes of a field on the right. -/
def meetField (xs : List (Field Value)) (g : Field Value) : Except Conflict (Field Value) :=
  match Field.find? xs g.label with
  | none => .ok g
  | some f =>
    match f.value.unify g.value with
    | .error c => .error (c.within g.label (f.position.or g.position))
    | .ok v => .ok (joinField f g v)

theorem unifyFields_eq_mapM (xs ys : List (Field Value)) : unifyFields xs ys = ys.mapM (meetField xs) := by
  induction ys with
  | nil => rw [unifyFields]; rfl
  | cons g ys ih =>
    rw [unifyFields, List.mapM_cons, meetField]
    split
    · rename_i absent
      simp only [absent, ih]
      rfl
    · rename_i f found
      simp only [found, ih]
      cases f.value.unify g.value <;> rfl

/-- A field stays as it is when its label is new, and is unified with the one of its label otherwise. -/
theorem meetField_eq_ok {xs : List (Field Value)} {g m : Field Value} (h : meetField xs g = .ok m) :
    (Field.find? xs g.label = none ∧ m = g) ∨
      ∃ f v, Field.find? xs g.label = some f ∧ f.value.unify g.value = .ok v ∧ m = joinField f g v := by
  unfold meetField at h
  split at h
  · rename_i absent
    cases h
    exact .inl ⟨absent, rfl⟩
  · rename_i f found
    split at h
    · cases h
    · rename_i v unified
      cases h
      exact .inr ⟨f, v, found, unified, rfl⟩

theorem meetField_label {xs : List (Field Value)} {g m : Field Value} (h : meetField xs g = .ok m) :
    m.label = g.label := by
  rcases meetField_eq_ok h with ⟨_, rfl⟩ | ⟨f, v, found, _, rfl⟩
  · rfl
  · show f.label = g.label
    exact Field.label_of_find? found

theorem exists_of_mem_unifyFields {xs ys met : List (Field Value)} {m : Field Value}
    (h : unifyFields xs ys = .ok met) (member : m ∈ met) : ∃ g ∈ ys, meetField xs g = .ok m := by
  rw [unifyFields_eq_mapM, mapM_eq_ok] at h
  exact exists_left_of_mem h member

theorem labels_unifyFields {xs ys met : List (Field Value)} (h : unifyFields xs ys = .ok met) :
    met.map (·.label) = ys.map (·.label) := by
  rw [unifyFields_eq_mapM, mapM_eq_ok] at h
  induction h with
  | nil => rfl
  | cons first _ ih => rw [List.map_cons, List.map_cons, meetField_label first, ih]

theorem label_replaced (met : List (Field Value)) (f : Field Value) :
    ((Field.find? met f.label).getD f).label = f.label := by
  cases found : Field.find? met f.label with
  | none => rfl
  | some m => exact Field.label_of_find? found

theorem find?_replaced (xs met : List (Field Value)) (label : String) :
    Field.find? (xs.map fun f => (Field.find? met f.label).getD f) label =
      (Field.find? xs label).map fun f => (Field.find? met f.label).getD f := by
  induction xs with
  | nil => rfl
  | cons f xs ih =>
    rw [List.map_cons, Field.find?_cons, Field.find?_cons, label_replaced, ih]
    split <;> rfl

theorem find?_added (xs met : List (Field Value)) {label : String} (absent : Field.find? xs label = none) :
    Field.find? (met.filter fun g => (Field.find? xs g.label).isNone) label = Field.find? met label := by
  induction met with
  | nil => rfl
  | cons g met ih =>
    rw [List.filter_cons]
    by_cases same : g.label = label
    · rw [same, absent]
      simp [Field.find?_cons, same]
    · split <;> simp [Field.find?_cons, same, ih]

/-- Merged fields are looked up among those that were met first. -/
theorem find?_mergeFields (xs met : List (Field Value)) (label : String) :
    Field.find? (mergeFields xs met) label = (Field.find? met label).or (Field.find? xs label) := by
  rw [mergeFields, Field.find?_append, find?_replaced]
  cases found : Field.find? xs label with
  | none => rw [find?_added xs met found]; simp
  | some f =>
    rw [Option.map_some, Option.some_or, Field.label_of_find? found]
    cases Field.find? met label <;> rfl

theorem distinct_mergeFields {xs met : List (Field Value)} (left : Field.Distinct xs)
    (right : Field.Distinct met) : Field.Distinct (mergeFields xs met) := by
  have replaced : (xs.map fun f => (Field.find? met f.label).getD f).map (·.label) = xs.map (·.label) := by
    simp [label_replaced]
  unfold Field.Distinct mergeFields
  rw [List.map_append, replaced]
  refine List.nodup_append.mpr ⟨left, right.sublist (List.filter_sublist.map _), ?_⟩
  intro l inLeft m inRight same
  obtain ⟨f, member, rfl⟩ := List.mem_map.mp inLeft
  obtain ⟨g, added, rfl⟩ := List.mem_map.mp inRight
  have absent := (List.mem_filter.mp added).2
  rw [Option.isNone_iff_eq_none, Field.find?_eq_none] at absent
  exact absent f member same

theorem mem_of_mem_mergeFields {xs met : List (Field Value)} {f : Field Value}
    (h : f ∈ mergeFields xs met) : f ∈ xs ∨ f ∈ met := by
  rcases List.mem_append.mp h with member | member
  · obtain ⟨x, inLeft, rfl⟩ := List.mem_map.mp member
    cases found : Field.find? met x.label with
    | none => exact .inl inLeft
    | some m => exact .inr (Field.mem_of_find? found)
  · exact .inr (List.mem_filter.mp member).1

/-- A field of two unified structs is one of theirs, or joined from one of either. -/
theorem cases_of_mem_mergeFields {xs ys met : List (Field Value)} {f : Field Value} (h : unifyFields xs ys = .ok met)
    (member : f ∈ mergeFields xs met) :
    f ∈ xs ∨ f ∈ ys ∨ ∃ x ∈ xs, ∃ y ∈ ys, ∃ v, x.value.unify y.value = .ok v ∧ f = joinField x y v := by
  rcases mem_of_mem_mergeFields member with inLeft | isMet
  · exact .inl inLeft
  · obtain ⟨y, inRight, meets⟩ := exists_of_mem_unifyFields h isMet
    rcases meetField_eq_ok meets with ⟨_, rfl⟩ | ⟨x, v, found, unified, rfl⟩
    · exact .inr (.inl inRight)
    · exact .inr (.inr ⟨x, Field.mem_of_find? found, y, inRight, v, unified, rfl⟩)

/-- Merged fields are those that were met, and those on the left with labels of their own. -/
theorem forall_mem_mergeFields {xs met : List (Field Value)} (distinct : Field.Distinct met)
    (P : Field Value → Prop) :
    (∀ f ∈ mergeFields xs met, P f) ↔
      (∀ m ∈ met, P m) ∧ ∀ f ∈ xs, Field.find? met f.label = none → P f := by
  constructor
  · intro all
    refine ⟨fun m member => ?_, fun f member absent => ?_⟩
    · have found : Field.find? (mergeFields xs met) m.label = some m := by
        rw [find?_mergeFields, distinct.find?_of_mem member, Option.some_or]
      exact all m (Field.mem_of_find? found)
    · refine all f (List.mem_append_left _ (List.mem_map.mpr ⟨f, member, ?_⟩))
      rw [absent, Option.getD_none]
  · rintro ⟨ofMet, ofLeft⟩ f member
    rcases List.mem_append.mp member with member | member
    · obtain ⟨x, inLeft, rfl⟩ := List.mem_map.mp member
      cases found : Field.find? met x.label with
      | none => exact ofLeft x inLeft found
      | some m => exact ofMet m (Field.mem_of_find? found)
    · exact ofMet f (List.mem_filter.mp member).1

/-- Elements of lists of one length unify pair by pair. -/
theorem unifyItems_eq_ok (index : Nat) (xs ys met : List Value) :
    unifyItems index xs ys = .ok met ↔
      List.Forall₂ (fun pair v => pair.1.unify pair.2 = .ok v) (xs.zip ys) met := by
  induction xs generalizing index ys met with
  | nil =>
    rw [unifyItems] <;> simp [eq_comm]
  | cons x xs ih =>
    cases ys with
    | nil => rw [unifyItems] <;> simp [eq_comm]
    | cons y ys =>
      rw [unifyItems, List.zip_cons_cons]
      cases first : x.unify y with
      | error c => simp [List.forall₂_cons_left_iff, first]
      | ok v =>
        simp only [List.forall₂_cons_left_iff, first, Except.ok.injEq]
        cases rest : unifyItems (index + 1) xs ys with
        | error c =>
          have none := ih (index + 1) ys
          simp only [rest, reduceCtorEq, false_iff] at none
          simp only [Bind.bind, Except.bind, reduceCtorEq, false_iff]
          rintro ⟨_, tail, _, more, _⟩
          exact none tail more
        | ok tail =>
          have same := ih (index + 1) ys
          simp only [rest, Except.ok.injEq] at same
          simp only [Bind.bind, Except.bind, Pure.pure, Except.pure, Except.ok.injEq, ← same]
          grind

theorem unifyItems_self (index : Nat) (items met : List Value) :
    unifyItems index items items = .ok met ↔ List.Forall₂ (fun item v => item.unify item = .ok v) items met := by
  have pairs : items.zip items = items.map fun item => (item, item) := by
    simpa using List.zip_map' (l := items) (f := id) (g := id)
  rw [unifyItems_eq_ok, pairs, List.forall₂_map_left_iff]

end Value

end StackLattice
