import Mathlib.Data.List.Basic
import Mathlib.Data.List.Nodup
import StackLattice.Proofs.Text.ByteOrder
import StackLattice.Workspace.Tree

/-!
Directories below a path. Names added to a path lead further down in the tree, and the directories that a
walk goes into are those at the end of names that are all entered, in the order of the names.
-/

namespace StackLattice

namespace Workspace

namespace Path

/-- The path of what names lead to from a directory. -/
def descend (p : Path) (names : List String) : Path := names.foldl child p

variable (p : Path) (name : String) (names : List String)

@[simp] theorem descend_nil : p.descend [] = p := rfl

@[simp] theorem descend_cons : p.descend (name :: names) = (p.child name).descend names := rfl

theorem descend_append (more : List String) : p.descend (names ++ more) = (p.descend names).descend more :=
  List.foldl_append ..

@[simp] theorem absolute_descend : (p.descend names).absolute = p.absolute := by
  induction names generalizing p with
  | nil => rfl
  | cons name names ih => exact ih _

@[simp] theorem steps_descend : (p.descend names).steps = p.steps ++ names.map .into := by
  induction names generalizing p with
  | nil => simp
  | cons name names ih => rw [descend_cons, ih, child, List.map_cons, List.append_assoc, List.singleton_append]

theorem descend_injective : Function.Injective p.descend := by
  intro ns ms same
  have steps := congrArg Path.steps same
  rw [steps_descend, steps_descend] at steps
  exact List.map_injective_iff.mpr (fun _ _ => Step.into.inj) (List.append_cancel_left steps)

theorem clean_child : (p.child name).clean = p.clean.child name := by
  simp [clean, child, walk]

theorem join_child (q : Path) : p.join (q.child name) = (p.join q).child name := by
  cases absolute : q.absolute <;> simp [join, child, absolute]

/-- What lies below a root is what names lead to from it. -/
theorem below?_eq_some {root p : Path} {names : List String} :
    root.below? p = some names ↔ p = root.descend names := by
  have named (rest : List Step) (names : List String) :
      rest.mapM Step.name? = some names ↔ rest = names.map .into := by
    induction rest generalizing names with
    | nil => cases names <;> simp
    | cons step rest ih =>
      cases step with
      | into name =>
        cases names with
        | nil => simp [List.mapM_cons, Step.name?, Option.bind_eq_some_iff]
        | cons first names =>
          simp [List.mapM_cons, Step.name?, Option.bind_eq_some_iff, ih, and_comm]
      | stay | up => cases names <;> simp [List.mapM_cons, Step.name?]
  have same : p = root.descend names ↔
      root.absolute = p.absolute ∧ root.steps ++ names.map .into = p.steps := by
    rw [← absolute_descend root names, ← steps_descend]
    cases p
    cases root.descend names
    simp [eq_comm]
  unfold below? guard
  simp only [Option.bind_eq_bind, Option.bind_eq_some_iff, List.isPrefixOf?_eq_some_iff_append_eq, named, same]
  split <;> simp [*, eq_comm]

end Path

namespace Tree

theorem at?_append (t : Tree) (names more : List String) :
    t.at? (names ++ more) = (t.at? names).bind (at? more) := by
  induction names generalizing t with
  | nil => rfl
  | cons name names ih =>
    cases t with
    | file content => rfl
    | directory entries =>
      rw [List.cons_append, at?, at?]
      cases entries.lookup name with
      | none => rfl
      | some t => exact ih t

theorem exists_directory_of_append {t : Tree} {names more : List String} {entries : List (String × Tree)}
    (found : t.at? (names ++ more) = .ok (.directory entries)) :
    ∃ entries', t.at? names = .ok (.directory entries') := by
  rw [at?_append] at found
  cases before : t.at? names with
  | error e =>
    rw [before] at found
    cases found
  | ok u =>
    rw [before] at found
    cases u with
    | directory entries' => exact ⟨entries', rfl⟩
    | file content =>
      cases more with
      | nil => cases found
      | cons name more => cases found

mutual

/-- Whether no two entries of a directory have one name, in the whole tree. -/
def Distinct : Tree → Prop
  | file _ => True
  | directory entries => (entries.map (·.1)).Nodup ∧ DistinctAll entries

def DistinctAll : List (String × Tree) → Prop
  | [] => True
  | (_, t) :: entries => t.Distinct ∧ DistinctAll entries

end

theorem distinctAll_iff {entries : List (String × Tree)} :
    DistinctAll entries ↔ ∀ entry ∈ entries, entry.2.Distinct := by
  induction entries with
  | nil => simp [DistinctAll]
  | cons entry entries ih => rw [DistinctAll, ih, List.forall_mem_cons]

theorem lookup_eq_some {entries : List (String × Tree)} (distinct : (entries.map (·.1)).Nodup) {name : String}
    {t : Tree} : entries.lookup name = some t ↔ (name, t) ∈ entries := by
  induction entries with
  | nil => simp
  | cons entry entries ih =>
    obtain ⟨other, u⟩ := entry
    rw [List.map_cons, List.nodup_cons] at distinct
    by_cases same : name = other
    · subst same
      have absent : (name, t) ∉ entries := fun member =>
        distinct.1 (List.mem_map.mpr ⟨_, member, rfl⟩)
      simp [absent, eq_comm]
    · rw [List.lookup_cons, beq_false_of_ne same, List.mem_cons, ih distinct.2]
      simp [same]

theorem Distinct.at? {t u : Tree} {names : List String} (distinct : t.Distinct) (found : t.at? names = .ok u) :
    u.Distinct := by
  induction names generalizing t with
  | nil =>
    cases found
    exact distinct
  | cons name names ih =>
    cases t with
    | file content => cases found
    | directory entries =>
      rw [Distinct] at distinct
      rw [Tree.at?] at found
      cases looked : entries.lookup name with
      | none =>
        rw [looked] at found
        cases found
      | some t =>
        rw [looked] at found
        exact ih (distinctAll_iff.mp distinct.2 _ ((lookup_eq_some distinct.1).mp looked)) found

section Names

variable {α : Type} {xs : List (String × α)}

theorem mem_byName {x : String × α} : x ∈ byName xs ↔ x ∈ xs := List.mem_mergeSort

theorem byName_perm : (byName xs).Perm xs := List.mergeSort_perm _ _

theorem byName_pairwise (distinct : (xs.map (·.1)).Nodup) : (byName xs).Pairwise fun x y => x.1 < y.1 := by
  have sorted : (byName xs).Pairwise fun x y => x.1 ≤ y.1 := by
    have transitive (x y z : String × α) : decide (x.1 ≤ y.1) = true → decide (y.1 ≤ z.1) = true →
        decide (x.1 ≤ z.1) = true := by
      simp only [decide_eq_true_eq]
      exact String.le_trans
    have total (x y : String × α) : (decide (x.1 ≤ y.1) || decide (y.1 ≤ x.1)) = true := by
      simp only [Bool.or_eq_true, decide_eq_true_eq]
      exact String.le_total x.1 y.1
    exact (List.pairwise_mergeSort transitive total xs).imp fun h => of_decide_eq_true h
  have different : (byName xs).Pairwise fun x y => x.1 ≠ y.1 :=
    List.pairwise_map.mp ((byName_perm.map Prod.fst).nodup_iff.mpr distinct)
  exact sorted.imp₂ (fun x y le ne => lt_of_le_of_ne le ne) different

end Names

variable {enter : String → Bool}

theorem directoriesOf_eq (p : Path) (entries : List (String × Tree)) :
    directoriesOf enter p entries =
      (entries.filter fun e => enter e.1).map fun e => (e.1, e.2.directoriesFrom enter (p.child e.1)) := by
  induction entries with
  | nil => rfl
  | cons entry entries ih =>
    rw [directoriesOf, ih]
    by_cases entered : enter entry.1 <;> simp [entered]

/-- A walk goes into the directories at the end of names that are all entered. -/
theorem mem_directoriesFrom {t : Tree} (distinct : t.Distinct) {p q : Path} :
    q ∈ t.directoriesFrom enter p ↔
      ∃ names, q = p.descend names ∧ (∀ name ∈ names, enter name) ∧
        ∃ entries, t.at? names = .ok (.directory entries) := by
  cases t with
  | file content =>
    rw [directoriesFrom]
    refine ⟨fun member => absurd member List.not_mem_nil, ?_⟩
    rintro ⟨names, -, -, entries, found⟩
    cases names <;> cases found
  | directory entries =>
    rw [Distinct] at distinct
    have below (entry : String × Tree) (member : entry ∈ entries) :=
      mem_directoriesFrom (distinctAll_iff.mp distinct.2 entry member) (p := p.child entry.1) (q := q)
    rw [directoriesFrom, List.mem_cons, List.mem_flatMap]
    simp only [mem_byName, directoriesOf_eq, List.mem_map, List.mem_filter]
    constructor
    · rintro (rfl | ⟨_, ⟨entry, ⟨member, entered⟩, rfl⟩, inside⟩)
      · exact ⟨[], rfl, by simp, entries, rfl⟩
      · obtain ⟨names, rfl, all, entries', found⟩ := (below entry member).mp inside
        refine ⟨entry.1 :: names, rfl, List.forall_mem_cons.mpr ⟨entered, all⟩, entries', ?_⟩
        rw [at?, (lookup_eq_some distinct.1).mpr member]
        exact found
    · rintro ⟨names, rfl, all, entries', found⟩
      cases names with
      | nil => exact .inl rfl
      | cons name names =>
        rw [at?] at found
        cases looked : entries.lookup name with
        | none =>
          rw [looked] at found
          cases found
        | some u =>
          rw [looked] at found
          have member := (lookup_eq_some distinct.1).mp looked
          rw [List.forall_mem_cons] at all
          exact .inr ⟨_, ⟨(name, u), ⟨member, all.1⟩, rfl⟩,
            (below (name, u) member).mpr ⟨names, rfl, all.2, entries', found⟩⟩
termination_by sizeOf t
decreasing_by
  have := List.sizeOf_lt_of_mem member
  obtain ⟨name, u⟩ := entry
  simp_all
  omega

end Tree

/-- One directory comes before another in a walk from a base: before what is in it, and otherwise by the bytes
    of the first names that differ. -/
def Precedes (base p q : Path) : Prop :=
  ∃ ns ms, p = base.descend ns ∧ q = base.descend ms ∧ ns.map Text.utf8 < ms.map Text.utf8

theorem Precedes.ne {base p q : Path} (h : Precedes base p q) : p ≠ q := by
  obtain ⟨ns, ms, rfl, rfl, before⟩ := h
  rintro same
  rw [base.descend_injective same] at before
  exact List.lt_irrefl _ before

theorem Precedes.of_child {base p q : Path} {name : String} (h : Precedes (base.child name) p q) :
    Precedes base p q := by
  obtain ⟨ns, ms, rfl, rfl, before⟩ := h
  refine ⟨name :: ns, name :: ms, rfl, rfl, ?_⟩
  rw [List.map_cons, List.map_cons, List.cons_lt_cons_iff]
  exact .inr ⟨rfl, before⟩

/-- A walk meets directories in order. -/
theorem Tree.directoriesFrom_pairwise {enter : String → Bool} {t : Tree} (distinct : t.Distinct) (p : Path) :
    (t.directoriesFrom enter p).Pairwise (Precedes p) := by
  cases t with
  | file content => exact .nil
  | directory entries =>
    rw [Distinct] at distinct
    have each := distinctAll_iff.mp distinct.2
    have below (entry : String × Tree) (member : entry ∈ entries) :
        (entry.2.directoriesFrom enter (p.child entry.1)).Pairwise (Precedes (p.child entry.1)) :=
      directoriesFrom_pairwise (each entry member) (p.child entry.1)
    have named {x : String × List Path} (member : x ∈ byName (directoriesOf enter p entries)) :
        ∃ t, (x.1, t) ∈ entries ∧ x.2 = t.directoriesFrom enter (p.child x.1) := by
      rw [mem_byName, directoriesOf_eq, List.mem_map] at member
      obtain ⟨entry, member, rfl⟩ := member
      exact ⟨entry.2, (List.mem_filter.mp member).1, rfl⟩
    have names : ((directoriesOf enter p entries).map (·.1)).Nodup := by
      rw [directoriesOf_eq, List.map_map]
      exact distinct.1.sublist (List.filter_sublist.map _)
    rw [directoriesFrom, List.pairwise_cons, List.pairwise_flatMap]
    refine ⟨fun q inside => ?_, fun x member => ?_, ?_⟩
    · obtain ⟨x, member, inside⟩ := List.mem_flatMap.mp inside
      obtain ⟨t, entry, same⟩ := named member
      rw [same, mem_directoriesFrom (each _ entry)] at inside
      obtain ⟨ns, rfl, -, -⟩ := inside
      exact ⟨[], x.1 :: ns, rfl, rfl, List.nil_lt_cons _ _⟩
    · obtain ⟨t, entry, same⟩ := named member
      rw [same]
      exact (below _ entry).imp Precedes.of_child
    · refine (byName_pairwise names).imp_of_mem fun {x y} left right before q inside r inside' => ?_
      obtain ⟨t, entry, same⟩ := named left
      obtain ⟨u, entry', same'⟩ := named right
      rw [same, mem_directoriesFrom (each _ entry)] at inside
      rw [same', mem_directoriesFrom (each _ entry')] at inside'
      obtain ⟨ns, rfl, -, -⟩ := inside
      obtain ⟨ms, rfl, -, -⟩ := inside'
      refine ⟨x.1 :: ns, y.1 :: ms, rfl, rfl, ?_⟩
      rw [List.map_cons, List.map_cons, List.cons_lt_cons_iff]
      exact .inl (Text.lt_iff_utf8_lt.mp before)
termination_by sizeOf t
decreasing_by
  have := List.sizeOf_lt_of_mem member
  obtain ⟨name, u⟩ := entry
  simp_all
  omega

end Workspace

namespace Workspace

variable (w : Workspace) (p : Path) (names : List String)

theorem locate_descend : w.locate (p.descend names) = w.locate p ++ names := by
  have child (p : Path) (name : String) : w.locate (p.child name) = w.locate p ++ [name] := by
    rw [locate, Path.join_child, Path.clean_child]
    simp [locate, Path.child, Step.name?]
  induction names generalizing p with
  | nil => rw [Path.descend_nil, List.append_nil]
  | cons name names ih => rw [Path.descend_cons, ih, child, List.append_assoc, List.singleton_append]

theorem find_descend : w.find (p.descend names) = (w.find p).bind (Tree.at? names) := by
  rw [find, locate_descend, Tree.at?_append]
  rfl

theorem isDirectory_iff : w.isDirectory p = true ↔ ∃ entries, w.find p = .ok (.directory entries) := by
  rw [isDirectory]
  cases w.find p with
  | error e => simp
  | ok t => cases t <;> simp [Tree.isDirectory]

variable {w p} in
theorem isDirectory_of_mem {t : Tree} (distinct : t.Distinct) (found : w.find p = .ok t) {enter : String → Bool}
    {q : Path} (member : q ∈ t.directoriesFrom enter p) : w.isDirectory q = true := by
  obtain ⟨names, rfl, -, entries, there⟩ := (Tree.mem_directoriesFrom distinct).mp member
  rw [isDirectory_iff, find_descend, found]
  exact ⟨entries, there⟩

theorem isDirectory_of_descend (h : w.isDirectory (p.descend names) = true) : w.isDirectory p = true := by
  rw [isDirectory_iff] at h ⊢
  obtain ⟨entries, found⟩ := h
  rw [find, locate_descend] at found
  exact Tree.exists_directory_of_append found

end Workspace

end StackLattice
