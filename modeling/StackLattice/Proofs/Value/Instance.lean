import StackLattice.Proofs.Value.Disjoin

/-!
The instances of a value, and unification as the meet of values: what it admits is what both operands
admit, and it fails only for values that have no instance in common.
-/

namespace StackLattice

namespace Value

mutual

/-- Whether a value admits another as an instance. A struct admits any struct that has its fields, and a
    disjunction what one of its alternatives does, marked or not. Instances need not be concrete. -/
def Admits : Value → Value → Prop
  | top, _ => True
  | kind k, c => k.admits c = true
  | struct fields, c => ∃ given, c = struct given ∧ AdmitsFields fields given
  | list items, c => ∃ given, c = list given ∧ AdmitsItems items given
  | disjunction alternatives, c => AdmitsAny alternatives c
  | v, c => v.same c = true

/-- Every field is given, with an instance of its value. Only a field that is optional itself may be given as
    an optional one. -/
def AdmitsFields : List (Field Value) → List (Field Value) → Prop
  | [], _ => True
  | ⟨label, _, optional, _, value⟩ :: fields, given =>
    (∃ g, Field.find? given label = some g ∧ (g.optional = true → optional = true) ∧ value.Admits g.value) ∧
      AdmitsFields fields given

def AdmitsItems : List Value → List Value → Prop
  | [], [] => True
  | item :: items, c :: cs => item.Admits c ∧ AdmitsItems items cs
  | _, _ => False

def AdmitsAny : List (Alternative Value) → Value → Prop
  | [], _ => False
  | ⟨value, _⟩ :: alternatives, c => value.Admits c ∨ AdmitsAny alternatives c

end

/-- Whether a field of this label is given with an instance of its value. -/
def AdmitsField (given : List (Field Value)) (f : Field Value) : Prop :=
  ∃ g, Field.find? given f.label = some g ∧ (g.optional = true → f.optional = true) ∧ f.value.Admits g.value

theorem admitsFields_iff (fields given : List (Field Value)) :
    AdmitsFields fields given ↔ ∀ f ∈ fields, AdmitsField given f := by
  induction fields with
  | nil => simp [AdmitsFields]
  | cons f fields ih =>
    rw [AdmitsFields, ih, List.forall_mem_cons]
    rfl

theorem admitsItems_iff (items given : List Value) :
    AdmitsItems items given ↔ List.Forall₂ Admits items given := by
  induction items generalizing given with
  | nil => cases given <;> simp [AdmitsItems]
  | cons item items ih => cases given <;> simp [AdmitsItems, ih]

theorem admitsAny_iff (alternatives : List (Alternative Value)) (c : Value) :
    AdmitsAny alternatives c ↔ ∃ a ∈ alternatives, a.value.Admits c := by
  induction alternatives with
  | nil => simp [AdmitsAny]
  | cons a alternatives ih =>
    rw [AdmitsAny, ih, List.exists_mem_cons_iff]

@[simp] theorem admits_top (c : Value) : top.Admits c := by
  rw [Admits]
  trivial

@[simp] theorem admits_kind (k : Kind) (c : Value) : (kind k).Admits c ↔ k.admits c = true := by
  rw [Admits]

theorem admits_struct (fields given : List (Field Value)) :
    (struct fields).Admits (struct given) ↔ ∀ f ∈ fields, AdmitsField given f := by
  rw [Admits, ← admitsFields_iff]
  exact ⟨fun ⟨_, same, admitted⟩ => by cases same; exact admitted, fun h => ⟨given, rfl, h⟩⟩

theorem admits_list (items given : List Value) :
    (list items).Admits (list given) ↔ List.Forall₂ Admits items given := by
  rw [Admits, ← admitsItems_iff]
  exact ⟨fun ⟨_, same, admitted⟩ => by cases same; exact admitted, fun h => ⟨given, rfl, h⟩⟩

theorem admits_disjunction (alternatives : List (Alternative Value)) (c : Value) :
    (disjunction alternatives).Admits c ↔ ∃ a ∈ alternatives, a.value.Admits c := by
  rw [Admits, admitsAny_iff]

theorem admits_scalar {v : Value} (scalar : v.isScalar = true) (c : Value) :
    v.Admits c ↔ v.same c = true := by
  cases v <;> first
    | exact absurd scalar Bool.false_ne_true
    | rw [Admits] <;> simp

theorem typeName_of_admits {v c : Value} (plain : v.isPlain = true) (h : v.Admits c) :
    v.typeName = c.typeName := by
  by_contra shapes
  cases v <;> first
    | exact absurd plain Bool.false_ne_true
    | (rw [admits_scalar rfl, same_of_shapes shapes] at h; exact absurd h Bool.false_ne_true)
    | (rw [Admits] at h; obtain ⟨_, rfl, _⟩ := h; exact shapes rfl)

theorem struct_of_admits {fields : List (Field Value)} {c : Value} (h : (struct fields).Admits c) :
    ∃ given, c = struct given := by
  rw [Admits] at h
  obtain ⟨given, same, _⟩ := h
  exact ⟨given, same⟩

theorem list_of_admits {items : List Value} {c : Value} (h : (list items).Admits c) :
    ∃ given, c = list given := by
  rw [Admits] at h
  obtain ⟨given, same, _⟩ := h
  exact ⟨given, same⟩

theorem admitsField_of_same {x y : Field Value} {given : List (Field Value)} (label : x.label = y.label)
    (optional : x.optional = y.optional) (values : ∀ c, x.value.Admits c ↔ y.value.Admits c) :
    AdmitsField given x ↔ AdmitsField given y := by
  simp only [AdmitsField, label, optional, values]

theorem admits_of_same_fields {xs ys : List (Field Value)} (left : (struct xs).WellFormed)
    (right : (struct ys).WellFormed) (h : (struct xs).same (struct ys) = true)
    (agree : ∀ x ∈ xs, ∀ y ∈ ys, x.value.same y.value = true → ∀ c, x.value.Admits c ↔ y.value.Admits c)
    (c : Value) : (struct xs).Admits c ↔ (struct ys).Admits c := by
  obtain ⟨_, fields⟩ := (same_struct_iff xs ys).mp h
  constructor <;> intro admitted
  · obtain ⟨given, rfl⟩ := struct_of_admits admitted
    rw [admits_struct] at admitted ⊢
    intro y inRight
    obtain ⟨x, inLeft, label, same⟩ := exists_left_of_same left.distinct right.distinct h inRight
    exact (admitsField_of_same label same.2.2 (agree x inLeft y inRight same.1)).mp (admitted x inLeft)
  · obtain ⟨given, rfl⟩ := struct_of_admits admitted
    rw [admits_struct] at admitted ⊢
    intro x inLeft
    obtain ⟨y, found, same⟩ := fields x inLeft
    have inRight := Field.mem_of_find? found
    have label := (Field.label_of_find? found).symm
    exact (admitsField_of_same label same.2.2 (agree x inLeft y inRight same.1)).mpr (admitted y inRight)

theorem admits_of_same_items {xs ys : List Value} (h : (list xs).same (list ys) = true)
    (agree : ∀ x ∈ xs, ∀ y ∈ ys, x.same y = true → ∀ c, x.Admits c ↔ y.Admits c) (c : Value) :
    (list xs).Admits c ↔ (list ys).Admits c := by
  have items := forall₂_congr_left ((same_list_iff xs ys).mp h) agree
  constructor <;> intro admitted
  · obtain ⟨given, rfl⟩ := list_of_admits admitted
    rw [admits_list] at admitted ⊢
    exact (items given).mp admitted
  · obtain ⟨given, rfl⟩ := list_of_admits admitted
    rw [admits_list] at admitted ⊢
    exact (items given).mpr admitted

theorem admits_of_same_alternatives {xs ys : List (Alternative Value)}
    (h : (disjunction xs).same (disjunction ys) = true)
    (agree : ∀ x ∈ xs, ∀ y ∈ ys, x.value.same y.value = true → ∀ c, x.value.Admits c ↔ y.value.Admits c)
    (c : Value) : (disjunction xs).Admits c ↔ (disjunction ys).Admits c := by
  rw [same_disjunction_iff] at h
  rw [admits_disjunction, admits_disjunction]
  induction h with
  | nil => rfl
  | cons first _ ih =>
    rw [List.exists_mem_cons_iff, List.exists_mem_cons_iff]
    refine or_congr (agree _ List.mem_cons_self _ List.mem_cons_self first.1 c) ?_
    exact ih fun x left y right => agree x (List.mem_cons_of_mem _ left) y (List.mem_cons_of_mem _ right)

/-- Equal values have the same instances. -/
theorem admits_of_same {a b : Value} (left : a.WellFormed) (right : b.WellFormed) (h : a.same b = true)
    (c : Value) : a.Admits c ↔ b.Admits c := by
  induction a using parts_induction generalizing b c with
  | step a ih =>
    have scalars (scalar : a.isScalar = true) : a.Admits c ↔ b.Admits c := by
      have other : b.isScalar = true := by
        cases a <;> cases b <;> first | rfl | exact absurd scalar Bool.false_ne_true | simp [same] at h
      rw [admits_scalar scalar, admits_scalar other, same_congr_scalar scalar h c]
    cases a with
    | struct xs =>
      obtain ⟨ys, rfl⟩ := eq_struct_of_same h
      refine admits_of_same_fields left right h (fun x inLeft y inRight same c => ?_) c
      exact ih x.value (List.mem_map_of_mem inLeft) (left.field inLeft) (right.field inRight) same c
    | list xs =>
      obtain ⟨ys, rfl⟩ := eq_list_of_same h
      refine admits_of_same_items h (fun x inLeft y inRight same c => ?_) c
      exact ih x inLeft (left.item inLeft) (right.item inRight) same c
    | disjunction xs =>
      obtain ⟨ys, rfl⟩ := eq_disjunction_of_same h
      refine admits_of_same_alternatives h (fun x inLeft y inRight same c => ?_) c
      exact ih x.value (List.mem_map_of_mem inLeft) (left.alternative inLeft) (right.alternative inRight) same c
    | top => cases b <;> first | rfl | simp [same] at h
    | kind k =>
      cases b <;> simp only [same, beq_iff_eq, Bool.false_eq_true] at h
      rw [h]
    | _ => exact scalars rfl

theorem admits_disjoin {alternatives : List (Alternative Value)}
    (wellFormed : ∀ a ∈ alternatives, a.value.WellFormed) (c : Value) :
    (disjoin alternatives).Admits c ↔ ∃ a ∈ alternatives, a.value.Admits c := by
  have flat := fun i => everywhere_of_mem_flatMap (i := i) wellFormed
  refine holds_disjoin (p := fun v => v.Admits c) (admits_disjunction · c) fun i left j right same => ?_
  exact (admits_of_same (flat i left) (flat j right) same c).mpr

theorem distinct_unifyFields {xs ys met : List (Field Value)} (h : unifyFields xs ys = .ok met)
    (right : Field.Distinct ys) : Field.Distinct met := by
  rw [Field.Distinct, labels_unifyFields h]
  exact right

theorem wellFormed_unify {a b v : Value} (left : a.WellFormed) (right : b.WellFormed)
    (h : a.unify b = .ok v) : v.WellFormed :=
  everywhere_unify (fun _ => trivial) (fun _ => trivial)
    (fun _ _ _ left right fields => distinct_mergeFields left (distinct_unifyFields fields right))
    (fun _ _ _ _ _ _ _ each => everywhere_disjoin (fun _ => trivial) fun c member => (each c member).1) left right h

theorem meet_admits (x y : Kind) (c : Value) :
    (∃ k, x.meet y = some k ∧ k.admits c = true) ↔ x.admits c = true ∧ y.admits c = true := by
  cases x <;> cases y <;> cases c <;> simp [Kind.meet, Kind.admits]

/-- A kind that admits a plain value admits its instances, and else none of them. -/
theorem admits_instance_iff {v c : Value} (plain : v.isPlain = true) (k : Kind) (h : v.Admits c) :
    k.admits c = k.admits v := by
  have scalars (scalar : v.isScalar = true) : k.admits c = k.admits v := by
    rw [admits_scalar scalar] at h
    cases v <;> cases c <;> first
      | exact absurd scalar Bool.false_ne_true
      | (simp [same] at h; done)
      | cases k <;> rfl
  cases v with
  | struct fields =>
    obtain ⟨given, rfl⟩ := struct_of_admits h
    cases k <;> rfl
  | list items =>
    obtain ⟨given, rfl⟩ := list_of_admits h
    cases k <;> rfl
  | top | kind _ | disjunction _ => exact absurd plain Bool.false_ne_true
  | _ => exact scalars rfl

/-- Elements pair by pair: what the result admits, both operands admit. -/
theorem admits_unifyItems {xs ys : List Value} (length : xs.length = ys.length)
    (items : ∀ x ∈ xs, ∀ y ∈ ys, ∀ c, (∃ v, x.unify y = .ok v ∧ v.Admits c) ↔ x.Admits c ∧ y.Admits c)
    (index : Nat) (given : List Value) :
    (∃ met, unifyItems index xs ys = .ok met ∧ List.Forall₂ Admits met given) ↔
      List.Forall₂ Admits xs given ∧ List.Forall₂ Admits ys given := by
  simp only [unifyItems_eq_ok]
  induction xs generalizing ys given with
  | nil =>
    rw [List.eq_nil_of_length_eq_zero (show ys.length = 0 from length.symm)]
    simp
  | cons x xs ih =>
    obtain _ | ⟨y, ys⟩ := ys
    · cases length
    obtain _ | ⟨c, given⟩ := given
    · simp [List.forall₂_nil_right_iff]
    have first := items x List.mem_cons_self y List.mem_cons_self c
    have rest := ih (Nat.succ.inj length)
      (fun x left y right => items x (List.mem_cons_of_mem _ left) y (List.mem_cons_of_mem _ right)) given
    simp only [List.zip_cons_cons, List.forall₂_cons]
    constructor
    · rintro ⟨met, unified, admitted⟩
      obtain ⟨v, vs, head, tail, rfl⟩ := List.forall₂_cons_left_iff.mp unified
      obtain ⟨headAdmits, tailAdmits⟩ := List.forall₂_cons.mp admitted
      have ⟨left, right⟩ := first.mp ⟨v, head, headAdmits⟩
      have ⟨lefts, rights⟩ := rest.mp ⟨vs, tail, tailAdmits⟩
      exact ⟨⟨left, lefts⟩, right, rights⟩
    · rintro ⟨⟨left, lefts⟩, right, rights⟩
      obtain ⟨v, head, headAdmits⟩ := first.mpr ⟨left, right⟩
      obtain ⟨vs, tail, tailAdmits⟩ := rest.mpr ⟨lefts, rights⟩
      exact ⟨v :: vs, .cons head tail, .cons headAdmits tailAdmits⟩

/-- A field on the right becomes one that admits what it and the field of its label on the left do. -/
theorem admits_meetField {xs : List (Field Value)} {g : Field Value}
    (values : ∀ f ∈ xs, ∀ c, (∃ v, f.value.unify g.value = .ok v ∧ v.Admits c) ↔
      f.value.Admits c ∧ g.value.Admits c) (given : List (Field Value)) :
    (∃ m, meetField xs g = .ok m ∧ AdmitsField given m) ↔
      AdmitsField given g ∧ ∀ f, Field.find? xs g.label = some f → AdmitsField given f := by
  unfold meetField
  cases found : Field.find? xs g.label with
  | none => simp
  | some f =>
    have label : f.label = g.label := Field.label_of_find? found
    have meet := values f (Field.mem_of_find? found)
    have both : AdmitsField given g ∧ AdmitsField given f ↔
        ∃ h, Field.find? given g.label = some h ∧ (h.optional = true → (f.optional && g.optional) = true) ∧
          ∃ v, f.value.unify g.value = .ok v ∧ v.Admits h.value := by
      simp only [AdmitsField, label, meet, Bool.and_eq_true]
      constructor
      · rintro ⟨⟨h, given, mayRight, right⟩, k, same, mayLeft, left⟩
        rw [given] at same
        cases same
        exact ⟨h, given, fun optional => ⟨mayLeft optional, mayRight optional⟩, left, right⟩
      · rintro ⟨h, given, may, left, right⟩
        exact ⟨⟨h, given, fun optional => (may optional).2, right⟩, h, given, fun optional => (may optional).1, left⟩
    simp only [Option.some.injEq, forall_eq', both]
    cases f.value.unify g.value with
    | error c => simp
    | ok v => simp [AdmitsField, joinField, label]

/-- Merged fields admit what the fields on both sides do. -/
theorem admits_mergeFields {xs ys : List (Field Value)} (lefts : Field.Distinct xs)
    (rights : Field.Distinct ys)
    (values : ∀ f ∈ xs, ∀ g ∈ ys, ∀ c, (∃ v, f.value.unify g.value = .ok v ∧ v.Admits c) ↔
      f.value.Admits c ∧ g.value.Admits c) (given : List (Field Value)) :
    (∃ met, unifyFields xs ys = .ok met ∧ ∀ f ∈ mergeFields xs met, AdmitsField given f) ↔
      (∀ f ∈ xs, AdmitsField given f) ∧ ∀ g ∈ ys, AdmitsField given g := by
  have meets : (∃ met, unifyFields xs ys = .ok met ∧ ∀ m ∈ met, AdmitsField given m) ↔
      ∀ g ∈ ys, AdmitsField given g ∧ ∀ f, Field.find? xs g.label = some f → AdmitsField given f := by
    rw [unifyFields_eq_mapM, exists_mapM_iff]
    refine forall₂_congr fun g right => ?_
    exact admits_meetField (fun f left => values f left g right) given
  constructor
  · rintro ⟨met, fields, admitted⟩
    rw [forall_mem_mergeFields (distinct_unifyFields fields rights)] at admitted
    have ofRight := meets.mp ⟨met, fields, admitted.1⟩
    refine ⟨fun f left => ?_, fun g right => (ofRight g right).1⟩
    cases found : Field.find? met f.label with
    | none => exact admitted.2 f left found
    | some m =>
      have label : f.label ∈ ys.map (·.label) := by
        rw [← labels_unifyFields fields]
        exact List.mem_map.mpr ⟨m, Field.mem_of_find? found, Field.label_of_find? found⟩
      obtain ⟨g, right, same⟩ := List.mem_map.mp label
      refine (ofRight g right).2 f ?_
      rw [show g.label = f.label from same]
      exact lefts.find?_of_mem left
  · rintro ⟨left, right⟩
    obtain ⟨met, fields, admitted⟩ := meets.mpr fun g member =>
      ⟨right g member, fun f found => left f (Field.mem_of_find? found)⟩
    refine ⟨met, fields, ?_⟩
    rw [forall_mem_mergeFields (distinct_unifyFields fields rights)]
    exact ⟨admitted, fun f member _ => left f member⟩

/-- Two scalars with an instance in common are equal. -/
theorem same_of_admits {a b c : Value} (left : a.isScalar = true) (right : b.isScalar = true)
    (ha : a.Admits c) (hb : b.Admits c) : a.same b = true := by
  rw [admits_scalar left] at ha
  rw [admits_scalar right] at hb
  rw [same_comm_scalar left, same_congr_scalar right hb a, ← same_comm_scalar left]
  exact ha

/-- Unification of two values admits what both of them admit, and fails if that is nothing. -/
def Meets (a b : Value) : Prop :=
  ∀ c, (∃ v, a.unify b = .ok v ∧ v.Admits c) ↔ a.Admits c ∧ b.Admits c

theorem settle_admits {a b : Value} (left : a.WellFormed) (right : b.WellFormed)
    (meets : ∀ x ∈ Alternative.ofValue a, ∀ y ∈ Alternative.ofValue b, x.value.Meets y.value) (c : Value) :
    (∃ v, settle (pairings (Alternative.ofValue a) (Alternative.ofValue b)) = .ok v ∧ v.Admits c) ↔
      a.Admits c ∧ b.Admits c := by
  have several (alternatives : List (Alternative Value)) := admits_disjunction alternatives c
  rw [holds_settle (p := fun v => v.Admits c)]
  · rw [← holds_ofValue (p := fun v => v.Admits c) several a, ← holds_ofValue (p := fun v => v.Admits c) several b]
    constructor
    · rintro ⟨x, inLeft, y, inRight, unified⟩
      have both := (meets x inLeft y inRight c).mp unified
      exact ⟨⟨x, inLeft, both.1⟩, y, inRight, both.2⟩
    · rintro ⟨⟨x, inLeft, ofLeft⟩, y, inRight, ofRight⟩
      exact ⟨x, inLeft, y, inRight, (meets x inLeft y inRight c).mpr ⟨ofLeft, ofRight⟩⟩
  · intro alternatives each
    refine admits_disjoin (fun u member => ?_) c
    obtain ⟨x, inLeft, y, inRight, unified⟩ := each u member
    exact wellFormed_unify (everywhere_of_mem_ofValue left inLeft) (everywhere_of_mem_ofValue right inRight) unified

theorem meets_structs {xs ys : List (Field Value)} (lefts : Field.Distinct xs) (rights : Field.Distinct ys)
    (values : ∀ f ∈ xs, ∀ g ∈ ys, f.value.Meets g.value) : (struct xs).Meets (struct ys) := by
  intro c
  simp only [unify_structs_eq_ok]
  constructor
  · rintro ⟨_, ⟨met, fields, rfl⟩, admitted⟩
    obtain ⟨given, rfl⟩ := struct_of_admits admitted
    rw [admits_struct] at admitted
    rw [admits_struct, admits_struct]
    exact (admits_mergeFields lefts rights values given).mp ⟨met, fields, admitted⟩
  · rintro ⟨ofLeft, ofRight⟩
    obtain ⟨given, rfl⟩ := struct_of_admits ofLeft
    rw [admits_struct] at ofLeft ofRight
    obtain ⟨met, fields, admitted⟩ := (admits_mergeFields lefts rights values given).mpr ⟨ofLeft, ofRight⟩
    exact ⟨_, ⟨met, fields, rfl⟩, (admits_struct _ _).mpr admitted⟩

theorem meets_lists {xs ys : List Value} (items : ∀ x ∈ xs, ∀ y ∈ ys, x.Meets y) :
    (list xs).Meets (list ys) := by
  intro c
  simp only [unify_lists_eq_ok]
  constructor
  · rintro ⟨_, ⟨length, met, fields, rfl⟩, admitted⟩
    obtain ⟨given, rfl⟩ := list_of_admits admitted
    rw [admits_list] at admitted
    rw [admits_list, admits_list]
    exact (admits_unifyItems length items 0 given).mp ⟨met, fields, admitted⟩
  · rintro ⟨ofLeft, ofRight⟩
    obtain ⟨given, rfl⟩ := list_of_admits ofLeft
    rw [admits_list] at ofLeft ofRight
    have length := ofLeft.length_eq.trans ofRight.length_eq.symm
    obtain ⟨met, fields, admitted⟩ := (admits_unifyItems length items 0 given).mpr ⟨ofLeft, ofRight⟩
    exact ⟨_, ⟨length, met, fields, rfl⟩, (admits_list _ _).mpr admitted⟩

/-- Unification is the meet of values. The induction is on the sizes of both, since a pair of alternatives
    may share one operand whole. -/
theorem meets {a b : Value} (left : a.WellFormed) (right : b.WellFormed) : a.Meets b := by
  induction a, b using pair_induction with
  | step a b ih =>
    have structs {xs ys : List (Field Value)} (hx : a = struct xs) (hy : b = struct ys) : a.Meets b := by
      subst hx hy
      refine meets_structs left.distinct right.distinct fun f inLeft g inRight => ?_
      exact ih _ _ (sizeOf_fields_lt inLeft inRight) (left.field inLeft) (right.field inRight)
    have lists {xs ys : List Value} (hx : a = list xs) (hy : b = list ys) : a.Meets b := by
      subst hx hy
      refine meets_lists fun x inLeft y inRight => ?_
      exact ih _ _ (sizeOf_items_lt inLeft inRight) (left.item inLeft) (right.item inRight)
    have rule := unify_rule a b
    intro c
    generalize result : a.unify b = r at rule ⊢
    cases rule with
    | topLeft => simp
    | topRight => simp
    | alternatives _ _ _ _ either =>
      refine settle_admits left right (fun x inLeft y inRight => ?_) c
      exact ih _ _ (sizeOf_alternatives_lt either inLeft inRight) (everywhere_of_mem_ofValue left inLeft)
        (everywhere_of_mem_ofValue right inRight)
    | structs | structsApart =>
      rw [← result]
      exact structs rfl rfl c
    | lists | listsApart | lengthsApart =>
      rw [← result]
      exact lists rfl rfl c
    | kinds x y k meet => simpa [meet] using meet_admits x y c
    | kindsApart x y meet => simpa [meet] using meet_admits x y c
    | kindLeft k _ plain admits =>
      simp only [Except.ok.injEq, exists_eq_left', admits_kind, iff_and_self]
      intro ofRight
      rw [admits_instance_iff plain k ofRight, admits]
    | kindRight _ k plain admits =>
      simp only [Except.ok.injEq, exists_eq_left', admits_kind, iff_self_and]
      intro ofLeft
      rw [admits_instance_iff plain k ofLeft, admits]
    | kindLeftApart k _ plain admits =>
      simp only [reduceCtorEq, false_and, exists_false, admits_kind, false_iff, not_and]
      intro admitted ofRight
      rw [admits_instance_iff plain k ofRight, admits] at admitted
      exact absurd admitted Bool.false_ne_true
    | kindRightApart _ k plain admits =>
      simp only [reduceCtorEq, false_and, exists_false, admits_kind, false_iff, not_and]
      intro ofLeft admitted
      rw [admits_instance_iff plain k ofLeft, admits] at admitted
      exact absurd admitted Bool.false_ne_true
    | equal _ _ scalarA scalarB same =>
      simp only [Except.ok.injEq, exists_eq_left', iff_self_and]
      intro ofLeft
      rw [admits_scalar scalarA] at ofLeft
      rw [admits_scalar scalarB, ← same_congr_scalar scalarA same]
      exact ofLeft
    | unequal _ _ scalarA scalarB same =>
      simp only [reduceCtorEq, false_and, exists_false, false_iff, not_and]
      intro ofLeft ofRight
      rw [same_of_admits scalarA scalarB ofLeft ofRight] at same
      exact absurd same.symm Bool.false_ne_true
    | shapesApart _ _ plainA plainB shapes =>
      simp only [reduceCtorEq, false_and, exists_false, false_iff, not_and]
      intro ofLeft ofRight
      exact shapes ((typeName_of_admits plainA ofLeft).trans (typeName_of_admits plainB ofRight).symm)

/-- Unification admits exactly what both values admit, and fails only when that is nothing. -/
theorem unify_admits_exactly {a b : Value} (left : a.WellFormed) (right : b.WellFormed) :
    match a.unify b with
    | .ok v => ∀ c, v.Admits c ↔ a.Admits c ∧ b.Admits c
    | .error _ => ∀ c, ¬(a.Admits c ∧ b.Admits c) := by
  have both := meets left right
  cases result : a.unify b with
  | ok v =>
    intro c
    rw [← both c, result]
    simp
  | error reason =>
    intro c admitted
    rw [← both c, result] at admitted
    obtain ⟨v, impossible, _⟩ := admitted
    cases impossible

/-- A list with a struct or a number in it meets one whose struct has a second field: the alternative
    that is a number drops out, and the fields are merged. -/
theorem unify_admits_exactly_nested :
    let port : Field Value := { label := "port", value := disjunction [⟨int 80, true⟩, ⟨int 443, false⟩] }
    let host : Field Value := { label := "host", value := kind .string }
    let a := list [disjunction [⟨struct [port], false⟩, ⟨int 7, true⟩]]
    let b := list [struct [host, { port with value := kind .int }]]
    (a.WellFormed ∧ b.WellFormed) ∧ ∃ v, a.unify b = .ok v ∧ ∀ c, v.Admits c ↔ a.Admits c ∧ b.Admits c := by
  intro port host a b
  have left : a.WellFormed := by
    simp [a, port, Field.Distinct]
    refine ⟨⟨?_, ?_⟩, ?_⟩ <;> exact wellFormed_of_parts_eq_nil rfl
  have right : b.WellFormed := by
    simp [b, port, host, Field.Distinct]
    refine ⟨?_, ?_⟩ <;> exact wellFormed_of_parts_eq_nil rfl
  refine ⟨⟨left, right⟩, ?_⟩
  have exactly := unify_admits_exactly left right
  have agree : (a.unify b).toBool = true := by decide +kernel
  cases result : a.unify b with
  | ok v =>
    rw [result] at exactly
    exact ⟨v, rfl, exactly⟩
  | error reason =>
    rw [result] at agree
    exact absurd agree Bool.false_ne_true

end Value

end StackLattice
