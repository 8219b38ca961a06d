import Mathlib.Data.List.Forall2
import StackLattice.Proofs.Instance.Listing

/-!
What a change of one file shows in. Two trees that are the same but for the text of a file have the same
directories, and when the file declares the same package in both, the same of them are found; only the
instances at and below the directory of the file can differ.
-/

namespace StackLattice

open Syntax (ParsedFile packageName)
open Workspace (Path Tree ReadError)

namespace Workspace.Tree

variable {text text' : String}

/-- The trees are the same but for the text of the file at the end of a list of names. -/
inductive Edited (text text' : String) : List String → Tree → Tree → Prop
  | file : Edited text text' [] (.file (.ok text)) (.file (.ok text'))
  | entry {name : String} {names : List String} {t t' : Tree} (before after : List (String × Tree))
      (inner : Edited text text' names t t') :
      Edited text text' (name :: names) (.directory (before ++ (name, t) :: after))
        (.directory (before ++ (name, t') :: after))

namespace Edited

variable {names : List String} {t t' : Tree}

theorem symm (edited : Edited text text' names t t') : Edited text' text names t' t := by
  induction edited with
  | file => exact .file
  | entry before after _ ih => exact .entry before after ih

theorem isDirectory_eq (edited : Edited text text' names t t') : t.isDirectory = t'.isDirectory := by
  cases edited <;> rfl

theorem distinct (edited : Edited text text' names t t') (h : t.Distinct) : t'.Distinct := by
  induction edited with
  | file => exact h
  | entry before after _ ih =>
    simp only [Distinct, List.map_append, List.map_cons, distinctAll_iff, List.forall_mem_append,
      List.forall_mem_cons] at h ⊢
    exact ⟨h.1, h.2.1, ih h.2.2.1, h.2.2.2⟩

/-- What names lead to is the same in both trees, unless the file is at it or below it. -/
theorem at? (edited : Edited text text' names t t') (ns : List String) :
    t.at? ns = t'.at? ns ∨
      ∃ rest u u', names = ns ++ rest ∧ t.at? ns = .ok u ∧ t'.at? ns = .ok u' ∧ Edited text text' rest u u' := by
  induction edited generalizing ns with
  | file =>
    cases ns with
    | nil => exact .inr ⟨_, _, _, rfl, rfl, rfl, .file⟩
    | cons n ns => exact .inl rfl
  | @entry name names t t' before after inner ih =>
    cases ns with
    | nil => exact .inr ⟨_, _, _, rfl, rfl, rfl, .entry before after inner⟩
    | cons n ns =>
      simp only [Tree.at?, List.lookup_append]
      cases before.lookup n with
      | some u => exact .inl rfl
      | none =>
        simp only [Option.none_or, List.lookup_cons]
        by_cases same : n = name
        · subst same
          simp only [beq_self_eq_true]
          rcases ih ns with equal | ⟨rest, u, u', rfl, found, found', further⟩
          · exact .inl equal
          · exact .inr ⟨rest, u, u', rfl, found, found', further⟩
        · rw [beq_false_of_ne same]
          exact .inl rfl

theorem directoriesFrom_eq {enter : String → Bool} (edited : Edited text text' names t t') (p : Path) :
    t.directoriesFrom enter p = t'.directoriesFrom enter p := by
  induction edited generalizing p with
  | file => rfl
  | @entry name names t t' before after _ ih =>
    have entries : directoriesOf enter p (before ++ (name, t) :: after) =
        directoriesOf enter p (before ++ (name, t') :: after) := by
      simp only [directoriesOf_eq, List.filter_append, List.map_append, List.filter_cons]
      split <;> simp [ih]
    rw [directoriesFrom, directoriesFrom, entries]

/-- The files of a directory are the same when the file is further down. -/
theorem files_eq {name : String} (edited : Edited text text' (name :: names) t t') (further : names ≠ []) :
    t.files = t'.files := by
  cases edited with
  | entry before after inner =>
    cases inner with
    | file => exact absurd rfl further
    | entry => simp only [files, entries, List.filterMap_append, List.filterMap_cons]

end Edited

end Workspace.Tree

/-- Whether the directory of an instance is at the end of a list of names or below it. -/
def Instance.Within (w : Workspace) (names : List String) (i : Instance) : Prop :=
  ∃ p : Path, i.directory = some p.render ∧ names <+: w.locate p

namespace Discovery

variable {d : Discovery} {text text' : String} {names : List String}

def inTree (d : Discovery) (tree : Tree) : Discovery := { d with workspace := { d.workspace with tree } }

section Trees

variable {t' : Tree} (edited : Tree.Edited text text' names d.workspace.tree t')

include edited in
theorem find_edited (p : Path) : d.workspace.find p = (d.inTree t').workspace.find p ∨
    ∃ rest u u', names = d.workspace.locate p ++ rest ∧ d.workspace.find p = .ok u ∧
      (d.inTree t').workspace.find p = .ok u' ∧ Tree.Edited text text' rest u u' :=
  edited.at? (d.workspace.locate p)

include edited in
theorem isDirectory_edited (p : Path) :
    (d.inTree t').workspace.isDirectory p = d.workspace.isDirectory p := by
  rw [Workspace.isDirectory, Workspace.isDirectory]
  rcases find_edited edited p with same | ⟨rest, u, u', -, found, found', inner⟩
  · rw [same]
  · rw [found, found']
    exact inner.isDirectory_eq.symm

theorem Holds.inTree {t' : Tree} (edited : Tree.Edited text text' names d.workspace.tree t')
    (package : packageName text = packageName text') {directory : Path} (holds : d.Holds directory) :
    (d.inTree t').Holds directory := by
  obtain ⟨entries, name, content, found, member, source, declares⟩ := holds
  rcases find_edited edited directory with same | ⟨rest, u, u', -, there, found', inner⟩
  · exact ⟨entries, name, content, same ▸ found, member, source, declares⟩
  · rw [there] at found
    cases found
    cases inner with
    | @entry other _ t u before after inner =>
      rcases List.mem_append.mp member with old | member
      · exact ⟨_, name, content, found', List.mem_append_left _ old, source, declares⟩
      · rcases List.mem_cons.mp member with same | old
        · cases same
          cases inner
          refine ⟨_, name, .ok text', found', List.mem_append_right _ List.mem_cons_self, source, ?_⟩
          rintro _ ⟨⟩
          rw [← package]
          exact declares text rfl
        · exact ⟨_, name, content, found', List.mem_append_right _ (List.mem_cons_of_mem _ old), source, declares⟩

include edited in
theorem holds_edited (package : packageName text = packageName text') (directory : Path) :
    (d.inTree t').Holds directory ↔ d.Holds directory :=
  ⟨Holds.inTree (d := d.inTree t') edited.symm package.symm, Holds.inTree edited package⟩

include edited in
theorem matching_edited (distinct : d.workspace.tree.Distinct) (package : packageName text = packageName text')
    (base : Path) : (d.inTree t').matching base = d.matching base := by
  have filtered {t : Tree} (found : d.workspace.find base = .ok t) :
      ((t.directoriesFrom isEntered base).filter fun p => !((d.inTree t').scan p).isEmpty) =
        (t.directoriesFrom isEntered base).filter fun p => !(d.scan p).isEmpty := by
    refine List.filter_congr fun p member => ?_
    have there := d.workspace.isDirectory_of_mem (distinct.at? found) found member
    have there' := (isDirectory_edited edited p).trans there
    rw [Bool.eq_iff_iff, Bool.not_eq_true', Bool.not_eq_true', isEmpty_scan_iff there, isEmpty_scan_iff there',
      holds_edited edited package]
  rw [matching, matching]
  rcases find_edited edited base with same | ⟨rest, u, u', -, found, found', inner⟩
  · rw [← same]
    cases found : d.workspace.find base with
    | error e => rfl
    | ok t => exact filtered found
  · rw [found, found']
    show (u'.directoriesFrom isEntered base).filter _ = (u.directoriesFrom isEntered base).filter _
    rw [← inner.directoriesFrom_eq]
    exact filtered found

include edited in
theorem reached_edited (distinct : d.workspace.tree.Distinct) (package : packageName text = packageName text')
    (argument : String) : (d.inTree t').reached argument = d.reached argument := by
  simp only [reached, isDirectory_edited edited]
  split
  · rfl
  · rfl
  · exact matching_edited edited distinct package _

include edited in
theorem fresh_edited (distinct : d.workspace.tree.Distinct) (package : packageName text = packageName text')
    (earlier : List String) (argument : String) :
    (d.inTree t').fresh earlier argument = d.fresh earlier argument := by
  simp only [fresh, reached_edited edited distinct package]

end Trees

section Files

variable {t' : Tree} {dir : List String} {name : String}
  (edited : Tree.Edited text text' (dir ++ [name]) d.workspace.tree t')

include edited

theorem sources_edited {directory : Path} (elsewhere : d.workspace.locate directory ≠ dir) :
    (d.inTree t').sources directory = d.sources directory := by
  rw [sources, sources]
  rcases find_edited edited directory with same | ⟨rest, u, u', whole, found, found', inner⟩
  · rw [same]
  · rw [found, found']
    cases rest with
    | nil =>
      cases inner
      rfl
    | cons n rest =>
      have further : rest ≠ [] := by
        rintro rfl
        exact elsewhere (List.append_inj_left' whole rfl).symm
      show u'.files.filter _ = u.files.filter _
      rw [inner.files_eq further]

/-- Outside of the directory of the file instances are the same. -/
theorem instanceOf_edited {directory : Path} (outside : ¬dir <+: d.workspace.locate directory) :
    (d.inTree t').instanceOf directory = d.instanceOf directory := by
  have each : ∀ p ∈ d.lineage directory, (d.inTree t').sources p = d.sources p := by
    intro p member
    refine sources_edited edited fun same => outside ?_
    obtain ⟨names, rfl⟩ := exists_descend_of_mem_lineage member
    rw [d.workspace.locate_descend, same]
    exact List.prefix_append _ _
  have gathered {α : Type} (pick : Path → String × Except ReadError String → Option α) :
      ((d.lineage directory).flatMap fun p => ((d.inTree t').sources p).filterMap (pick p)) =
        (d.lineage directory).flatMap fun p => (d.sources p).filterMap (pick p) :=
    List.flatMap_congr fun p member => by rw [each p member]
  exact (Instance.mk.injEq ..).mpr ⟨rfl, rfl, rfl, gathered d.fileOf?, gathered d.errorOf?⟩

end Files

/-- Two instances have one display path and one directory, and they are the same unless that directory is at the
    end of a list of names or below it. -/
def AlikeOutside (w : Workspace) (dir : List String) (i j : Instance) : Prop :=
  i.displayPath = j.displayPath ∧ i.directory = j.directory ∧ (¬i.Within w dir → i = j)

theorem AlikeOutside.refl (w : Workspace) (dir : List String) (i : Instance) : AlikeOutside w dir i i :=
  ⟨rfl, rfl, fun _ => rfl⟩

theorem contribution_edited (distinct : d.workspace.tree.Distinct) {t' : Tree} {dir : List String} {name : String}
    (edited : Tree.Edited text text' (dir ++ [name]) d.workspace.tree t')
    (package : packageName text = packageName text') (earlier : List String) (argument : String) :
    List.Forall₂ (AlikeOutside d.workspace dir) (d.contribution earlier argument)
      ((d.inTree t').contribution earlier argument) := by
  have each (p : Path) : AlikeOutside d.workspace dir (d.instanceFor p) ((d.inTree t').instanceFor p) := by
    rw [instanceFor, instanceFor]
    by_cases holds : d.Holds p
    · rw [if_pos holds, if_pos ((holds_edited edited package p).mpr holds)]
      refine ⟨rfl, rfl, fun outside => (instanceOf_edited edited fun inside => outside ?_).symm⟩
      exact ⟨p, rfl, inside⟩
    · rw [if_neg holds, if_neg fun h => holds ((holds_edited edited package p).mp h)]
      exact .refl _ _ _
  have target : (d.inTree t').target argument = d.target argument := rfl
  rw [contribution, contribution, target, isDirectory_edited edited,
    reached_edited edited distinct package, fresh_edited edited distinct package]
  split
  · split
    · exact .cons (.refl _ _ _) .nil
    · exact List.forall₂_map_left_iff.mpr (List.forall₂_map_right_iff.mpr (List.forall₂_same.mpr fun p _ => each p))
  · exact .cons (.refl _ _ _) .nil

end Discovery

end StackLattice
