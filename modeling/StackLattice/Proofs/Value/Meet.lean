import Mathlib.Data.Set.Lattice
import StackLattice.Proofs.Value.Branch

/-!
Unification as the meet of branches: a branch of the result is what a branch of either operand have in common.
Meets commute and associate, which unification itself does only without marks.
-/

namespace StackLattice

open Syntax (LabelKind)

variable {kinds : String → LabelKind}

/-- What sets from either side have in common, if that is not nothing. -/
def meet (F G : Set (Set Value)) : Set (Set Value) := {P | P.Nonempty ∧ ∃ Q ∈ F, ∃ R ∈ G, P = Q ∩ R}

theorem meet_comm (F G : Set (Set Value)) : meet F G = meet G F := by
  ext P
  constructor
  · rintro ⟨some, Q, left, R, right, rfl⟩
    exact ⟨some, R, right, Q, left, Set.inter_comm Q R⟩
  · rintro ⟨some, Q, left, R, right, rfl⟩
    exact ⟨some, R, right, Q, left, Set.inter_comm Q R⟩

theorem meet_assoc (F G H : Set (Set Value)) : meet (meet F G) H = meet F (meet G H) := by
  ext P
  constructor
  · rintro ⟨some, _, ⟨_, Q, first, R, second, rfl⟩, S, third, rfl⟩
    rw [Set.inter_assoc] at some ⊢
    exact ⟨some, Q, first, R ∩ S, ⟨some.mono Set.inter_subset_right, R, second, S, third, rfl⟩, rfl⟩
  · rintro ⟨some, Q, first, _, ⟨_, R, second, S, third, rfl⟩, rfl⟩
    rw [← Set.inter_assoc] at some ⊢
    exact ⟨some, Q ∩ R, ⟨some.mono Set.inter_subset_left, Q, first, R, second, rfl⟩, S, third, rfl⟩

theorem meet_right_comm (F G H : Set (Set Value)) : meet (meet F G) H = meet (meet F H) G := by
  rw [meet_assoc, meet_comm G H, meet_assoc]

theorem meet_empty (F : Set (Set Value)) : meet F ∅ = ∅ := by
  ext P
  simp [meet]

theorem empty_meet (F : Set (Set Value)) : meet ∅ F = ∅ := by
  rw [meet_comm, meet_empty]

theorem meet_univ {F : Set (Set Value)} (inhabited : ∀ P ∈ F, P.Nonempty) : meet F {Set.univ} = F := by
  ext P
  constructor
  · rintro ⟨_, Q, inside, R, whole, rfl⟩
    rw [Set.mem_singleton_iff.mp whole, Set.inter_univ]
    exact inside
  · intro inside
    exact ⟨inhabited P inside, P, inside, Set.univ, rfl, (Set.inter_univ P).symm⟩

namespace Value

theorem Tame.inhabited {v : Value} (h : v.Tame kinds) : ∀ P ∈ v.branches, P.Nonempty :=
  fun _ branch => Branch.nonempty branch h

theorem branches_leaf {v : Value} (leaf : v.isLeaf = true) : v.branches = {{c | v.Admits c}} := by
  ext P
  rw [mem_branches, branch_leaf leaf, Set.mem_singleton_iff]

theorem branches_top : top.branches = {Set.univ} := by
  rw [branches_leaf rfl]
  simp

/-- Whether the result of unification has the branches of the meet, and is an error if that has none. -/
def MeetsBranches (a b : Value) : Prop :=
  ∀ P, (∃ v, a.unify b = .ok v ∧ v.Branch P) ↔ P ∈ meet a.branches b.branches

/-- Branches of values that do not unify have nothing in common. -/
theorem not_mem_meet_of_error {a b : Value} (left : a.WellFormed) (right : b.WellFormed) {c : Conflict}
    (apart : a.unify b = .error c) (P : Set Value) : P ∉ meet a.branches b.branches := by
  rintro ⟨some, Q, ofLeft, R, ofRight, rfl⟩
  obtain ⟨x, inLeft, inRight⟩ := some
  have admitted := (meets left right x).mpr
    ⟨(left.branches x).mpr ⟨Q, ofLeft, inLeft⟩, (right.branches x).mpr ⟨R, ofRight, inRight⟩⟩
  rw [apart] at admitted
  obtain ⟨_, impossible, _⟩ := admitted
  cases impossible

theorem meetsBranches_leaves {a b v : Value} (left : a.Tame kinds) (right : b.Tame kinds)
    (leafA : a.isLeaf = true) (leafB : b.isLeaf = true) (unified : a.unify b = .ok v)
    (leafV : v.isLeaf = true) : a.MeetsBranches b := by
  have tame := tame_unify left right unified
  have both : {c | v.Admits c} = {c | a.Admits c} ∩ {c | b.Admits c} := by
    ext c
    have met := meets left.wellFormed right.wellFormed c
    rw [unified] at met
    simpa using met
  intro P
  simp only [unified, Except.ok.injEq, exists_eq_left', branch_leaf leafV, branches_leaf leafA, branches_leaf leafB]
  constructor
  · rintro rfl
    exact ⟨tame.exists_instance, _, rfl, _, rfl, both⟩
  · rintro ⟨_, Q, ofLeft, R, ofRight, rfl⟩
    rw [Set.mem_singleton_iff.mp ofLeft, Set.mem_singleton_iff.mp ofRight, both]

theorem find?_unifyFields {xs ys met : List (Field Value)} (h : unifyFields xs ys = .ok met) (label : String) :
    Option.Rel (fun g m => meetField xs g = .ok m) (Field.find? ys label) (Field.find? met label) := by
  rw [unifyFields_eq_mapM, mapM_eq_ok] at h
  induction h with
  | nil => exact .none
  | cons first _ ih =>
    rw [Field.find?_cons, Field.find?_cons, meetField_label first]
    split
    · exact .some first
    · exact ih

theorem find?_merged {xs ys met : List (Field Value)} (h : unifyFields xs ys = .ok met) (label : String) :
    match Field.find? xs label, Field.find? ys label with
    | some x, some y => ∃ v, x.value.unify y.value = .ok v ∧
        Field.find? (mergeFields xs met) label = some (joinField x y v)
    | x, y => Field.find? (mergeFields xs met) label = x.or y := by
  have related := find?_unifyFields h label
  rw [find?_mergeFields]
  cases inRight : Field.find? ys label with
  | none =>
    rw [inRight] at related
    generalize Field.find? met label = m at related
    cases related
    cases Field.find? xs label <;> rfl
  | some y =>
    rw [inRight] at related
    generalize Field.find? met label = m at related
    cases related with
    | @some _ m meets =>
      have inLeft : Field.find? xs y.label = Field.find? xs label := by rw [Field.label_of_find? inRight]
      rcases meetField_eq_ok meets with ⟨absent, rfl⟩ | ⟨x, v, found, unified, rfl⟩
      · rw [← inLeft, absent]
        rfl
      · rw [← inLeft, found]
        exact ⟨v, unified, rfl⟩

/-- What remains of two flags for a label. -/
def joinFlags : Option Bool → Option Bool → Option Bool
  | some o, some o' => some (o && o')
  | o, o' => o.or o'

theorem joinFlags_eq_none {left right : Option Bool} :
    joinFlags left right = none ↔ left = none ∧ right = none := by
  cases left <;> cases right <;> simp [joinFlags]

theorem signature_merged {xs ys met : List (Field Value)} (h : unifyFields xs ys = .ok met) (label : String) :
    signature (mergeFields xs met) label = joinFlags (signature xs label) (signature ys label) := by
  have fields := find?_merged h label
  unfold signature
  cases inLeft : Field.find? xs label with
  | none =>
    rw [inLeft] at fields
    cases inRight : Field.find? ys label <;> rw [inRight] at fields <;> rw [fields] <;> rfl
  | some x =>
    rw [inLeft] at fields
    cases inRight : Field.find? ys label with
    | none =>
      rw [inRight] at fields
      rw [fields]
      rfl
    | some y =>
      rw [inRight] at fields
      obtain ⟨v, _, found⟩ := fields
      rw [found]
      rfl

theorem given_inter {given : List (Field Value)} {label : String} {left right : Option Bool} {S T : Set Value}
    (others : left = none → S = Set.univ) (others' : right = none → T = Set.univ) :
    (∀ optional, joinFlags left right = some optional → ∃ g, Field.find? given label = some g ∧
      (g.optional = true → optional = true) ∧ g.value ∈ S ∩ T) ↔
    (∀ optional, left = some optional → ∃ g, Field.find? given label = some g ∧
      (g.optional = true → optional = true) ∧ g.value ∈ S) ∧
    ∀ optional, right = some optional → ∃ g, Field.find? given label = some g ∧
      (g.optional = true → optional = true) ∧ g.value ∈ T := by
  cases left with
  | none =>
    rw [others rfl]
    cases right <;> simp [joinFlags]
  | some o =>
    cases right with
    | none =>
      rw [others' rfl]
      simp [joinFlags]
    | some o' =>
      simp only [joinFlags, Option.some.injEq, forall_eq', Bool.and_eq_true]
      constructor
      · rintro ⟨g, found, flags, ofLeft, ofRight⟩
        exact ⟨⟨g, found, fun optional => (flags optional).1, ofLeft⟩, g, found,
          fun optional => (flags optional).2, ofRight⟩
      · rintro ⟨⟨g, found, flags, ofLeft⟩, g', found', flags', ofRight⟩
        rw [found] at found'
        cases found'
        exact ⟨g, found, fun optional => ⟨flags optional, flags' optional⟩, ofLeft, ofRight⟩

theorem structSet_inter {sig left right : Signature} {choice choice' : String → Set Value}
    (flags : ∀ label, sig label = joinFlags (left label) (right label))
    (others : ∀ label, left label = none → choice label = Set.univ)
    (others' : ∀ label, right label = none → choice' label = Set.univ) :
    structSet sig (fun label => choice label ∩ choice' label) =
      structSet left choice ∩ structSet right choice' := by
  have members (given : List (Field Value)) :
      struct given ∈ structSet sig (fun label => choice label ∩ choice' label) ↔
        struct given ∈ structSet left choice ∧ struct given ∈ structSet right choice' := by
    rw [mem_structSet, mem_structSet, mem_structSet, ← forall_and]
    refine forall_congr' fun label => ?_
    rw [flags label]
    exact given_inter (others label) (others' label)
  ext c
  constructor
  · intro holds
    obtain ⟨given, rfl, _⟩ := id holds
    exact (members given).mp holds
  · intro holds
    obtain ⟨given, rfl, _⟩ := id holds.1
    exact (members given).mpr holds

theorem signature_eq_none {fields : List (Field Value)} {label : String} :
    signature fields label = none ↔ Field.find? fields label = none := by
  rw [signature, Option.map_eq_none_iff]

theorem allowed_merged {xs ys met : List (Field Value)} (left : (struct xs).Tame kinds)
    (right : (struct ys).Tame kinds) (unified : unifyFields xs ys = .ok met)
    (values : ∀ x ∈ xs, ∀ y ∈ ys, x.value.MeetsBranches y.value) (label : String) :
    allowed (mergeFields xs met) label = meet (allowed xs label) (allowed ys label) := by
  have fields := find?_merged unified label
  cases inLeft : Field.find? xs label with
  | none =>
    rw [inLeft] at fields
    cases inRight : Field.find? ys label with
    | none =>
      rw [inRight] at fields
      rw [allowed_of_none inLeft, allowed_of_none inRight, allowed_of_none fields, meet_univ]
      simp
    | some y =>
      rw [inRight] at fields
      have inhabited := (right.field (Field.mem_of_find? inRight)).inhabited
      rw [allowed_of_none inLeft, allowed_of_some inRight, allowed_of_some fields, meet_comm, meet_univ inhabited]
  | some x =>
    rw [inLeft] at fields
    cases inRight : Field.find? ys label with
    | none =>
      rw [inRight] at fields
      have inhabited := (left.field (Field.mem_of_find? inLeft)).inhabited
      rw [allowed_of_some inLeft, allowed_of_none inRight, allowed_of_some fields, meet_univ inhabited]
    | some y =>
      rw [inRight] at fields
      obtain ⟨v, met, found⟩ := fields
      rw [allowed_of_some inLeft, allowed_of_some inRight, allowed_of_some found]
      ext S
      rw [← values x (Field.mem_of_find? inLeft) y (Field.mem_of_find? inRight) S, met]
      simp [joinField, mem_branches]

theorem eq_univ_of_allowed {fields : List (Field Value)} {label : String} {S : Set Value}
    (holds : S ∈ allowed fields label) (absent : signature fields label = none) : S = Set.univ := by
  rw [allowed_of_none (signature_eq_none.mp absent)] at holds
  exact holds

theorem meetsBranches_structs {xs ys met : List (Field Value)} (left : (struct xs).Tame kinds)
    (right : (struct ys).Tame kinds) (unified : unifyFields xs ys = .ok met)
    (tame : (struct (mergeFields xs met)).Tame kinds)
    (values : ∀ x ∈ xs, ∀ y ∈ ys, x.value.MeetsBranches y.value) (P : Set Value) :
    (struct (mergeFields xs met)).Branch P ↔ P ∈ meet (struct xs).branches (struct ys).branches := by
  have flags := signature_merged unified
  have restricts := allowed_merged left right unified values
  constructor
  · intro branch
    have some := Branch.nonempty branch tame
    obtain ⟨choice, chosen, rfl⟩ := (branch_struct _ P).mp branch
    simp only [restricts] at chosen
    choose _ lefts ofLeft rights ofRight both using chosen
    have sets : structSet (signature (mergeFields xs met)) choice =
        structSet (signature xs) lefts ∩ structSet (signature ys) rights := by
      rw [← structSet_inter flags (fun label => eq_univ_of_allowed (ofLeft label))
        fun label => eq_univ_of_allowed (ofRight label)]
      exact congrArg _ (funext both)
    refine ⟨some, _, ?_, _, ?_, sets⟩
    · exact (branch_struct xs _).mpr ⟨lefts, ofLeft, rfl⟩
    · exact (branch_struct ys _).mpr ⟨rights, ofRight, rfl⟩
  · rintro ⟨some, _, branch, _, branch', rfl⟩
    obtain ⟨lefts, ofLeft, rfl⟩ := (branch_struct xs _).mp branch
    obtain ⟨rights, ofRight, rfl⟩ := (branch_struct ys _).mp branch'
    rw [← structSet_inter flags (fun label => eq_univ_of_allowed (ofLeft label))
      fun label => eq_univ_of_allowed (ofRight label)] at some ⊢
    refine (branch_struct _ _).mpr ⟨_, fun label => ?_, rfl⟩
    rw [restricts]
    refine ⟨?_, lefts label, ofLeft label, rights label, ofRight label, rfl⟩
    -- A label that is not restricted admits everything, and any other is given in a common instance.
    cases found : signature (mergeFields xs met) label with
    | none =>
      rw [flags, joinFlags_eq_none] at found
      rw [eq_univ_of_allowed (ofLeft label) found.1, eq_univ_of_allowed (ofRight label) found.2, Set.inter_univ]
      exact Set.univ_nonempty
    | some optional =>
      obtain ⟨c, given, rfl, each⟩ := some
      obtain ⟨g, _, _, holds⟩ := each label optional found
      exact ⟨g.value, holds⟩

theorem listSet_inter {choice choice' : List (Set Value)} (lengths : choice.length = choice'.length) :
    listSet (List.zipWith (· ∩ ·) choice choice') = listSet choice ∩ listSet choice' := by
  have members (given : List Value) :
      list given ∈ listSet (List.zipWith (· ∩ ·) choice choice') ↔
        list given ∈ listSet choice ∧ list given ∈ listSet choice' := by
    simp only [mem_listSet]
    induction choice generalizing choice' given with
    | nil =>
      rw [List.eq_nil_of_length_eq_zero (show choice'.length = 0 from lengths.symm)]
      simp
    | cons S choice ih =>
      obtain _ | ⟨T, choice'⟩ := choice'
      · cases lengths
      rw [List.zipWith_cons_cons]
      cases given with
      | nil => simp
      | cons c given =>
        rw [List.forall₂_cons, List.forall₂_cons, List.forall₂_cons, ih (Nat.succ.inj lengths)]
        exact ⟨fun ⟨⟨ofS, ofT⟩, left, right⟩ => ⟨⟨ofS, left⟩, ofT, right⟩,
          fun ⟨⟨ofS, left⟩, ofT, right⟩ => ⟨⟨ofS, ofT⟩, left, right⟩⟩
  ext c
  constructor
  · intro holds
    obtain ⟨given, rfl, _⟩ := id holds
    exact (members given).mp holds
  · intro holds
    obtain ⟨given, rfl, _⟩ := id holds.1
    exact (members given).mpr holds

theorem branch_items {xs ys met : List Value} (length : xs.length = ys.length)
    (unified : List.Forall₂ (fun pair v => pair.1.unify pair.2 = .ok v) (xs.zip ys) met)
    (items : ∀ x ∈ xs, ∀ y ∈ ys, x.MeetsBranches y) (choice : List (Set Value)) :
    List.Forall₂ Branch met choice ↔ (∀ S ∈ choice, S.Nonempty) ∧ ∃ lefts rights,
      List.Forall₂ Branch xs lefts ∧ List.Forall₂ Branch ys rights ∧ choice = List.zipWith (· ∩ ·) lefts rights := by
  induction xs generalizing ys met choice with
  | nil =>
    rw [List.eq_nil_of_length_eq_zero (show ys.length = 0 from length.symm)] at unified ⊢
    rw [List.zip_nil_left, List.forall₂_nil_left_iff] at unified
    rw [unified]
    simp only [List.forall₂_nil_left_iff]
    constructor
    · rintro rfl
      exact ⟨by simp, [], [], rfl, rfl, rfl⟩
    · rintro ⟨_, _, _, rfl, rfl, same⟩
      exact same
  | cons x xs ih =>
    obtain _ | ⟨y, ys⟩ := ys
    · cases length
    rw [List.zip_cons_cons, List.forall₂_cons_left_iff] at unified
    obtain ⟨v, met, first, tail, rfl⟩ := unified
    have head := items x List.mem_cons_self y List.mem_cons_self
    have rest := ih (Nat.succ.inj length) tail
      fun x left y right => items x (List.mem_cons_of_mem _ left) y (List.mem_cons_of_mem _ right)
    constructor
    · intro branches
      obtain ⟨S, choice, branch, others, rfl⟩ := List.forall₂_cons_left_iff.mp branches
      obtain ⟨some, Q, ofX, R, ofY, same⟩ := (head S).mp ⟨v, first, branch⟩
      obtain ⟨inhabited, lefts, rights, ofXs, ofYs, sames⟩ := (rest choice).mp others
      refine ⟨List.forall_mem_cons.mpr ⟨some, inhabited⟩, Q :: lefts, R :: rights, .cons ofX ofXs, .cons ofY ofYs, ?_⟩
      rw [same, sames, List.zipWith_cons_cons]
    · rintro ⟨inhabited, lefts, rights, ofLeft, ofRight, rfl⟩
      obtain ⟨Q, lefts, ofX, ofXs, rfl⟩ := List.forall₂_cons_left_iff.mp ofLeft
      obtain ⟨R, rights, ofY, ofYs, rfl⟩ := List.forall₂_cons_left_iff.mp ofRight
      rw [List.zipWith_cons_cons, List.forall_mem_cons] at inhabited
      obtain ⟨w, again, branch⟩ := (head (Q ∩ R)).mpr ⟨inhabited.1, Q, ofX, R, ofY, rfl⟩
      rw [first] at again
      cases again
      exact .cons branch ((rest _).mpr ⟨inhabited.2, lefts, rights, ofXs, ofYs, rfl⟩)

theorem meetsBranches_lists {xs ys met : List Value} (length : xs.length = ys.length)
    (unified : unifyItems 0 xs ys = .ok met) (tame : (list met).Tame kinds)
    (items : ∀ x ∈ xs, ∀ y ∈ ys, x.MeetsBranches y) (P : Set Value) :
    (list met).Branch P ↔ P ∈ meet (list xs).branches (list ys).branches := by
  have pairs := branch_items length ((unifyItems_eq_ok 0 xs ys met).mp unified) items
  have lengths {lefts rights : List (Set Value)} (ofLeft : List.Forall₂ Branch xs lefts)
      (ofRight : List.Forall₂ Branch ys rights) : lefts.length = rights.length := by
    rw [← ofLeft.length_eq, ← ofRight.length_eq, length]
  constructor
  · intro branch
    have some := Branch.nonempty branch tame
    obtain ⟨choice, chosen, rfl⟩ := (branch_list met P).mp branch
    obtain ⟨_, lefts, rights, ofLeft, ofRight, rfl⟩ := (pairs choice).mp chosen
    refine ⟨some, _, (branch_list xs _).mpr ⟨lefts, ofLeft, rfl⟩, _, (branch_list ys _).mpr ⟨rights, ofRight, rfl⟩, ?_⟩
    exact listSet_inter (lengths ofLeft ofRight)
  · rintro ⟨some, _, branch, _, branch', rfl⟩
    obtain ⟨lefts, ofLeft, rfl⟩ := (branch_list xs _).mp branch
    obtain ⟨rights, ofRight, rfl⟩ := (branch_list ys _).mp branch'
    rw [← listSet_inter (lengths ofLeft ofRight)] at some ⊢
    refine (branch_list met _).mpr ⟨_, (pairs _).mpr ⟨?_, lefts, rights, ofLeft, ofRight, rfl⟩, rfl⟩
    obtain ⟨c, given, rfl, each⟩ := some
    intro S member
    obtain ⟨x, _, holds⟩ := exists_left_of_mem each.flip member
    exact ⟨x, holds⟩

theorem branch_disjoin {alternatives : List (Alternative Value)}
    (each : ∀ a ∈ alternatives, a.value.WellFormed) (P : Set Value) :
    (disjoin alternatives).Branch P ↔ ∃ a ∈ alternatives, a.value.Branch P := by
  have flat := fun i => everywhere_of_mem_flatMap (i := i) each
  refine holds_disjoin (p := fun v => v.Branch P) (branch_disjunction · P) fun i left j right same => ?_
  exact (alike_of_same (flat i left) (flat j right) same P).mpr

theorem meetsBranches_alternatives {a b : Value} (left : a.Tame kinds) (right : b.Tame kinds)
    (pairs : ∀ x ∈ Alternative.ofValue a, ∀ y ∈ Alternative.ofValue b, x.value.MeetsBranches y.value)
    (P : Set Value) :
    (∃ v, settle (pairings (Alternative.ofValue a) (Alternative.ofValue b)) = .ok v ∧ v.Branch P) ↔
      P ∈ meet a.branches b.branches := by
  have several (alternatives : List (Alternative Value)) (P : Set Value) := branch_disjunction alternatives P
  rw [holds_settle (p := fun v => v.Branch P)]
  · constructor
    · rintro ⟨x, inLeft, y, inRight, unified⟩
      obtain ⟨some, Q, ofLeft, R, ofRight, rfl⟩ := (pairs x inLeft y inRight P).mp unified
      refine ⟨some, Q, ?_, R, ?_, rfl⟩
      · exact (holds_ofValue (p := fun v => v.Branch Q) (several · Q) a).mp ⟨x, inLeft, ofLeft⟩
      · exact (holds_ofValue (p := fun v => v.Branch R) (several · R) b).mp ⟨y, inRight, ofRight⟩
    · rintro ⟨some, Q, ofLeft, R, ofRight, rfl⟩
      obtain ⟨x, inLeft, ofLeft⟩ := (holds_ofValue (p := fun v => v.Branch Q) (several · Q) a).mpr ofLeft
      obtain ⟨y, inRight, ofRight⟩ := (holds_ofValue (p := fun v => v.Branch R) (several · R) b).mpr ofRight
      exact ⟨x, inLeft, y, inRight, (pairs x inLeft y inRight _).mpr ⟨some, Q, ofLeft, R, ofRight, rfl⟩⟩
  · intro alternatives each
    refine branch_disjoin (fun u member => ?_) P
    obtain ⟨x, inLeft, y, inRight, unified⟩ := each u member
    exact (tame_unify (everywhere_of_mem_ofValue left inLeft) (everywhere_of_mem_ofValue right inRight)
      unified).wellFormed

/-- Unification is the meet of branches. -/
theorem meetsBranches {a b : Value} (left : a.Tame kinds) (right : b.Tame kinds) : a.MeetsBranches b := by
  induction a, b using pair_induction with
  | step a b ih =>
    have rule := unify_rule a b
    have leaves {v : Value} (result : a.unify b = .ok v) (leafA : a.isLeaf = true) (leafB : b.isLeaf = true)
        (leafV : v.isLeaf = true) := meetsBranches_leaves left right leafA leafB result leafV
    have apart {c : Conflict} (result : a.unify b = .error c) : a.MeetsBranches b := by
      intro P
      rw [result]
      simp [not_mem_meet_of_error left.wellFormed right.wellFormed result P]
    generalize result : a.unify b = r at rule
    cases rule with
    | topLeft =>
      intro P
      rw [result, branches_top, meet_comm, meet_univ right.inhabited]
      simp [mem_branches]
    | topRight =>
      intro P
      rw [result, branches_top, meet_univ left.inhabited]
      simp [mem_branches]
    | alternatives _ _ _ _ either =>
      intro P
      rw [result]
      refine meetsBranches_alternatives left right (fun x inLeft y inRight => ?_) P
      exact ih _ _ (sizeOf_alternatives_lt either inLeft inRight) (everywhere_of_mem_ofValue left inLeft)
        (everywhere_of_mem_ofValue right inRight)
    | structs xs ys met fields =>
      intro P
      have tame := tame_unify left right result
      rw [result]
      simp only [Except.ok.injEq, exists_eq_left']
      refine meetsBranches_structs left right fields tame (fun x inLeft y inRight => ?_) P
      exact ih _ _ (sizeOf_fields_lt inLeft inRight) (left.field inLeft) (right.field inRight)
    | lists xs ys met length items =>
      intro P
      have tame := tame_unify left right result
      rw [result]
      simp only [Except.ok.injEq, exists_eq_left']
      refine meetsBranches_lists length items tame (fun x inLeft y inRight => ?_) P
      exact ih _ _ (sizeOf_items_lt inLeft inRight) (left.item inLeft) (right.item inRight)
    | kinds => exact leaves result rfl rfl rfl
    | kindLeft k _ plain admits =>
      have leaf : b.isLeaf = true := by cases k <;> cases b <;> first | rfl | simp [Kind.admits] at admits
      exact leaves result rfl leaf leaf
    | kindRight _ k plain admits =>
      have leaf : a.isLeaf = true := by cases k <;> cases a <;> first | rfl | simp [Kind.admits] at admits
      exact leaves result leaf rfl leaf
    | equal _ _ scalarA scalarB =>
      have leafA : a.isLeaf = true := by cases a <;> first | rfl | exact absurd scalarA Bool.false_ne_true
      have leafB : b.isLeaf = true := by cases b <;> first | rfl | exact absurd scalarB Bool.false_ne_true
      exact leaves result leafA leafB leafA
    | _ => exact apart result

end Value

end StackLattice
