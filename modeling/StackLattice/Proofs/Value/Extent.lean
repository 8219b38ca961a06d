import Mathlib.Data.Set.Basic
import StackLattice.Proofs.Value.Tame

/-!
Sets of structs and of lists, given by a set for each label or element. A set of structs determines its labels,
which of them are optional, and the set of each, as long as none of those is empty.
-/

namespace StackLattice

namespace Value

/-- Labels with whether they are optional. -/
abbrev Signature := String → Option Bool

def signature (fields : List (Field Value)) : Signature := fun label =>
  (Field.find? fields label).map (·.optional)

/-- The structs that give each label an instance from its set. -/
def structSet (sig : Signature) (choice : String → Set Value) : Set Value :=
  { c | ∃ given, c = struct given ∧ ∀ label optional, sig label = some optional →
    ∃ g, Field.find? given label = some g ∧ (g.optional = true → optional = true) ∧ g.value ∈ choice label }

def listSet (choice : List (Set Value)) : Set Value :=
  { c | ∃ given, c = list given ∧ List.Forall₂ (fun S x => x ∈ S) choice given }

theorem forall_find?_iff {fields : List (Field Value)} (distinct : Field.Distinct fields)
    (p : String → Field Value → Prop) :
    (∀ label f, Field.find? fields label = some f → p label f) ↔ ∀ f ∈ fields, p f.label f := by
  constructor
  · intro h f member
    exact h f.label f (distinct.find?_of_mem member)
  · intro h label f found
    rw [← Field.label_of_find? found]
    exact h f (Field.mem_of_find? found)

theorem mem_structSet (sig : Signature) (choice : String → Set Value) (given : List (Field Value)) :
    struct given ∈ structSet sig choice ↔ ∀ label optional, sig label = some optional →
      ∃ g, Field.find? given label = some g ∧ (g.optional = true → optional = true) ∧
        g.value ∈ choice label := by
  constructor
  · rintro ⟨_, same, each⟩
    cases same
    exact each
  · exact fun each => ⟨given, rfl, each⟩

theorem mem_structSet_signature {fields : List (Field Value)} (distinct : Field.Distinct fields)
    (choice : String → Set Value) (given : List (Field Value)) :
    struct given ∈ structSet (signature fields) choice ↔ ∀ f ∈ fields,
      ∃ g, Field.find? given f.label = some g ∧ (g.optional = true → f.optional = true) ∧
        g.value ∈ choice f.label := by
  rw [mem_structSet, ← forall_find?_iff distinct fun label f =>
    ∃ g, Field.find? given label = some g ∧ (g.optional = true → f.optional = true) ∧ g.value ∈ choice label]
  simp only [signature, Option.map_eq_some_iff]
  constructor
  · exact fun each label f found => each label f.optional ⟨f, found, rfl⟩
  · rintro each label _ ⟨f, found, rfl⟩
    exact each label f found

theorem mem_listSet (choice : List (Set Value)) (given : List Value) :
    list given ∈ listSet choice ↔ List.Forall₂ (fun S x => x ∈ S) choice given := by
  constructor
  · rintro ⟨_, same, each⟩
    cases same
    exact each
  · exact fun each => ⟨given, rfl, each⟩

theorem refill_mem_structSet {fields : List (Field Value)} (distinct : Field.Distinct fields)
    {choice : String → Set Value} {pick : Field Value → Value} (picked : ∀ f ∈ fields, pick f ∈ choice f.label) :
    struct (refill pick fields) ∈ structSet (signature fields) choice := by
  rw [mem_structSet_signature distinct]
  intro f member
  refine ⟨{ f with value := pick f }, ?_, id, picked f member⟩
  rw [find?_refill, distinct.find?_of_mem member, Option.map_some]

theorem nonempty_structSet {fields : List (Field Value)} (distinct : Field.Distinct fields)
    {choice : String → Set Value} (inhabited : ∀ f ∈ fields, (choice f.label).Nonempty) :
    (structSet (signature fields) choice).Nonempty := by
  obtain ⟨base, based⟩ := exists_choice (p := fun f c => c ∈ choice f.label) inhabited
  exact ⟨_, refill_mem_structSet distinct based⟩

theorem nonempty_listSet {choice : List (Set Value)} (inhabited : ∀ S ∈ choice, S.Nonempty) :
    (listSet choice).Nonempty := by
  obtain ⟨given, each⟩ := exists_forall₂_of_forall inhabited
  exact ⟨list given, (mem_listSet choice given).mpr each⟩

/-- The instances of a field, seen in those of the struct. -/
def inField (S : Set Value) (label : String) : Set Value :=
  { c | ∃ given, struct given ∈ S ∧ ∃ g, Field.find? given label = some g ∧ g.value = c }

/-- The instances of a field are those that its label is given. -/
theorem inField_structSet {fields : List (Field Value)} (distinct : Field.Distinct fields)
    {choice : String → Set Value} (inhabited : ∀ f ∈ fields, (choice f.label).Nonempty) {f : Field Value}
    {label : String} (found : Field.find? fields label = some f) :
    inField (structSet (signature fields) choice) label = choice label := by
  have member := Field.mem_of_find? found
  have here := Field.label_of_find? found
  ext c
  constructor
  · rintro ⟨given, ofStruct, g, inGiven, rfl⟩
    obtain ⟨g', found', _, holds⟩ := (mem_structSet_signature distinct choice given).mp ofStruct f member
    rw [here, inGiven] at found'
    cases found'
    rwa [here] at holds
  · intro holds
    obtain ⟨base, based⟩ := exists_choice (p := fun f c => c ∈ choice f.label) inhabited
    let pick (x : Field Value) : Value := if x.label = label then c else base x
    refine ⟨refill pick fields, ?_, { f with value := pick f }, ?_, ?_⟩
    · refine refill_mem_structSet distinct fun x member => ?_
      by_cases same : x.label = label
      · simpa only [pick, same, if_true] using holds
      · simpa only [pick, same, if_false] using based x member
    · rw [find?_refill, found, Option.map_some]
    · simp only [pick, here, if_true]

/-- Structs that are all in another such set have its labels, optional only where those are. -/
theorem signature_of_subset {fields : List (Field Value)} (distinct : Field.Distinct fields)
    {choice : String → Set Value} (inhabited : ∀ f ∈ fields, (choice f.label).Nonempty) {sig : Signature}
    {choice' : String → Set Value} (subset : structSet (signature fields) choice ⊆ structSet sig choice')
    {label : String} {optional : Bool} (found : sig label = some optional) :
    ∃ own, signature fields label = some own ∧ (own = true → optional = true) := by
  obtain ⟨base, based⟩ := exists_choice (p := fun f c => c ∈ choice f.label) inhabited
  have inside := (mem_structSet sig choice' _).mp (subset (refill_mem_structSet distinct based)) label optional found
  obtain ⟨g, inGiven, may, _⟩ := inside
  rw [find?_refill, Option.map_eq_some_iff] at inGiven
  obtain ⟨f, found, rfl⟩ := inGiven
  exact ⟨f.optional, by rw [signature, found, Option.map_some], may⟩

theorem signature_unique {xs ys : List (Field Value)} (left : Field.Distinct xs) (right : Field.Distinct ys)
    {choice choice' : String → Set Value} (lefts : ∀ f ∈ xs, (choice f.label).Nonempty)
    (rights : ∀ f ∈ ys, (choice' f.label).Nonempty)
    (same : structSet (signature xs) choice = structSet (signature ys) choice') :
    signature xs = signature ys := by
  funext label
  have forward := @signature_of_subset xs left choice lefts (signature ys) choice' same.subset label
  have backward := @signature_of_subset ys right choice' rights (signature xs) choice same.superset label
  cases ofLeft : signature xs label with
  | none =>
    cases ofRight : signature ys label with
    | none => rfl
    | some o =>
      obtain ⟨_, impossible, _⟩ := forward ofRight
      rw [ofLeft] at impossible
      cases impossible
  | some o =>
    obtain ⟨o', ofRight, may⟩ := backward ofLeft
    obtain ⟨o'', again, may'⟩ := forward ofRight
    rw [ofLeft] at again
    cases again
    rw [ofRight, Bool.eq_iff_iff.mpr ⟨may', may⟩]

/-- Lists of sets without an empty one are told apart by the lists in them. -/
theorem listSet_injective {choice choice' : List (Set Value)} (lefts : ∀ S ∈ choice, S.Nonempty)
    (rights : ∀ S ∈ choice', S.Nonempty) (same : listSet choice = listSet choice') : choice = choice' := by
  have given (cs : List Value) :
      List.Forall₂ (fun S x => x ∈ S) choice cs ↔ List.Forall₂ (fun S x => x ∈ S) choice' cs := by
    rw [← mem_listSet, ← mem_listSet, same]
  clear same
  induction choice generalizing choice' with
  | nil =>
    have empty := (given []).mp .nil
    rw [List.forall₂_nil_right_iff] at empty
    exact empty.symm
  | cons S choice ih =>
    obtain ⟨cs, rest⟩ := exists_forall₂_of_forall fun T member => lefts T (List.mem_cons_of_mem _ member)
    obtain ⟨c, first⟩ := lefts S List.mem_cons_self
    have ofRight := (given (c :: cs)).mp (.cons first rest)
    obtain ⟨S', choice', first', rest', rfl⟩ := List.forall₂_cons_right_iff.mp ofRight
    have head : S = S' := by
      ext d
      have both := given (d :: cs)
      rw [List.forall₂_cons, List.forall₂_cons] at both
      rwa [and_iff_left rest, and_iff_left rest'] at both
    have tail := ih (fun T member => lefts T (List.mem_cons_of_mem _ member))
      (fun T member => rights T (List.mem_cons_of_mem _ member)) fun ds => by
        have both := given (c :: ds)
        rw [List.forall₂_cons, List.forall₂_cons] at both
        rwa [and_iff_right first, and_iff_right first'] at both
    rw [head, tail]

end Value

end StackLattice
