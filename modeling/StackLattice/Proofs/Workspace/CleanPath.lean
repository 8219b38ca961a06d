import Mathlib.Data.List.Basic
import Mathlib.Logic.Relation
import StackLattice.Instance.Discovery

/-!
Clean paths. Cleaning folds a path step by step into one that climbs first, if it climbs at all, and descends from
there. Two paths have one clean form exactly if they differ only in `.` steps, in names that `..` undoes, and in `..`
at the root. What a directory is known by is the clean form of its path, so one that was added is known again however
it is spelled.
-/

namespace StackLattice

namespace Workspace.Path

/-- A path that climbs first and then descends; one from the root does not climb. -/
def IsClean (p : Path) : Prop :=
  ∃ (ups : Nat) (names : List String), p.steps = List.replicate ups .up ++ names.map .into ∧
    (p.absolute = true → ups = 0)

/-- One step that leads nowhere is left out, or two that undo each other. -/
inductive Folds : Path → Path → Prop
  | stay (absolute : Bool) (front back : List Step) : Folds ⟨absolute, front ++ .stay :: back⟩ ⟨absolute, front ++ back⟩
  | undo (absolute : Bool) (front : List Step) (name : String) (back : List Step) :
    Folds ⟨absolute, front ++ .into name :: .up :: back⟩ ⟨absolute, front ++ back⟩
  | top (back : List Step) : Folds ⟨true, .up :: back⟩ ⟨true, back⟩

section Ways

variable {absolute : Bool} {way : List Step}

/-- A way given by its last step first: names, and before them the climb. -/
def Settled (absolute : Bool) (way : List Step) : Prop :=
  ∃ (names : List String) (ups : Nat), way = names.map .into ++ List.replicate ups .up ∧ (absolute = true → ups = 0)

theorem Settled.walk (settled : Settled absolute way) (step : Step) : Settled absolute (walk absolute way step) := by
  obtain ⟨names, ups, rfl, top⟩ := settled
  cases step with
  | stay => exact ⟨names, ups, rfl, top⟩
  | into name => exact ⟨name :: names, ups, rfl, top⟩
  | up =>
    cases names with
    | cons name names => exact ⟨names, ups, rfl, top⟩
    | nil =>
      cases ups with
      | succ ups => exact ⟨[], ups + 2, rfl, fun isAbsolute => absurd (top isAbsolute) (Nat.succ_ne_zero ups)⟩
      | zero =>
        cases absolute with
        | true => exact ⟨[], 0, rfl, fun _ => rfl⟩
        | false => exact ⟨[], 1, rfl, fun impossible => by cases impossible⟩

theorem Settled.foldl (settled : Settled absolute way) (steps : List Step) :
    Settled absolute (steps.foldl (Path.walk absolute) way) := by
  induction steps generalizing way with
  | nil => exact settled
  | cons step steps ih => exact ih (settled.walk step)

/-- A settled way is what its own steps come to. -/
theorem Settled.foldl_reverse (settled : Settled absolute way) :
    way.reverse.foldl (Path.walk absolute) [] = way := by
  obtain ⟨names, ups, rfl, top⟩ := settled
  have climb : (List.replicate ups Step.up).foldl (Path.walk absolute) [] = List.replicate ups .up := by
    cases absolute with
    | true => rw [top rfl]; rfl
    | false =>
      clear top
      induction ups with
      | zero => rfl
      | succ ups ih =>
        rw [List.replicate_succ', List.foldl_append, ih]
        cases ups with
        | zero => rfl
        | succ ups => rw [← List.replicate_succ', List.replicate_succ]; rfl
  rw [List.reverse_append, List.reverse_replicate, List.foldl_append, climb, List.foldl_reverse]
  induction names with
  | nil => rfl
  | cons name names ih => rw [List.map_cons, List.foldr_cons, ih]; rfl

/-- Folding the steps of a path one after the other comes to what walking them does. -/
theorem folds_walk (way steps : List Step) :
    Relation.EqvGen Folds ⟨absolute, way.reverse ++ steps⟩ ⟨absolute, (steps.foldl (walk absolute) way).reverse⟩ := by
  induction steps generalizing way with
  | nil => rw [List.append_nil]; exact .refl _
  | cons step steps ih =>
    have kept (longer : walk absolute way step = step :: way) :
        Relation.EqvGen Folds ⟨absolute, way.reverse ++ step :: steps⟩
          ⟨absolute, ((step :: steps).foldl (walk absolute) way).reverse⟩ := by
      have rest := ih (step :: way)
      rwa [List.reverse_cons, List.append_assoc, List.singleton_append, ← longer] at rest
    cases step with
    | stay => exact .trans _ _ _ (.rel _ _ (.stay _ _ _)) (ih way)
    | into name => exact kept rfl
    | up =>
      match way with
      | .into name :: way =>
        rw [List.reverse_cons, List.append_assoc, List.singleton_append]
        exact .trans _ _ _ (.rel _ _ (.undo _ _ _ _)) (ih way)
      | .up :: way | .stay :: way => exact kept rfl
      | [] =>
        cases absolute with
        | true => exact .trans _ _ _ (.rel _ _ (.top _)) (ih [])
        | false => exact kept rfl

end Ways

variable {p q : Path}

theorem settled_nil (absolute : Bool) : Settled absolute [] := ⟨[], 0, rfl, fun _ => rfl⟩

theorem isClean_clean (p : Path) : p.clean.IsClean := by
  obtain ⟨names, ups, same, top⟩ := (settled_nil p.absolute).foldl p.steps
  refine ⟨ups, names.reverse, ?_, top⟩
  rw [clean, same, List.reverse_append, List.reverse_replicate, List.map_reverse]

theorem clean_clean (p : Path) : p.clean.clean = p.clean := by
  have again := ((settled_nil p.absolute).foldl p.steps).foldl_reverse
  exact congrArg (fun way => ({ p with steps := way.reverse } : Path)) again

theorem clean_join (a b : Path) : (a.join b).clean = (a.clean.join b).clean := by
  cases relative : b.absolute with
  | true => simp only [join, relative, if_true]
  | false =>
    have again := ((settled_nil a.absolute).foldl a.steps).foldl_reverse
    simp only [join, relative, Bool.false_eq_true, if_false, clean, List.foldl_append, again]

theorem eqvGen_clean (p : Path) : Relation.EqvGen Folds p p.clean := folds_walk [] p.steps

theorem Folds.clean (folds : Folds p q) : p.clean = q.clean := by
  cases folds <;> simp [Path.clean, walk]

/-- The clean forms are the classes of paths that differ in steps which fold. -/
theorem clean_eq_clean_iff : p.clean = q.clean ↔ Relation.EqvGen Folds p q := by
  constructor
  · intro same
    have back := (eqvGen_clean q).symm
    rw [← same] at back
    exact (eqvGen_clean p).trans _ _ _ back
  · intro related
    induction related with
    | rel _ _ folds => exact folds.clean
    | refl => rfl
    | symm _ _ _ ih => exact ih.symm
    | trans _ _ _ _ _ first second => exact first.trans second

theorem Folds.join (a : Path) (folds : Folds p q) : Folds (a.join p) (a.join q) := by
  have behind {front back : List Step} (front' : List Step) : front ++ (front' ++ back) = (front ++ front') ++ back :=
    (List.append_assoc _ _ _).symm
  cases folds with
  | stay absolute front back =>
    cases absolute with
    | true => exact .stay _ _ _
    | false => simpa only [Path.join, Bool.false_eq_true, if_false, behind] using Folds.stay _ _ _
  | undo absolute front name back =>
    cases absolute with
    | true => exact .undo _ _ _ _
    | false => simpa only [Path.join, Bool.false_eq_true, if_false, behind] using Folds.undo _ _ _ _
  | top back => exact .top back

/-- Where a path leads from another one does not depend on how either is spelled. -/
theorem clean_join_eq {a b : Path} (same : Relation.EqvGen Folds a b) (same' : Relation.EqvGen Folds p q) :
    (a.join p).clean = (b.join q).clean := by
  have joined : Relation.EqvGen Folds (a.join p) (a.join q) := by
    induction same' with
    | rel _ _ folds => exact .rel _ _ (folds.join a)
    | refl => exact .refl _
    | symm _ _ _ ih => exact ih.symm
    | trans _ _ _ _ _ first second => exact first.trans _ _ _ second
  rw [clean_eq_clean_iff.mpr joined, clean_join, clean_eq_clean_iff.mpr same, ← clean_join]

section Spelled

theorem splitOn_separator_cons (separator : Char) (cs : List Char) :
    (separator :: cs).splitOn separator = [] :: cs.splitOn separator := by
  rw [List.splitOn_cons_eq_if_modifyHead, if_pos (beq_self_eq_true _)]

/-- Repeated separators make no difference. -/
theorem ofString_repeated (front back : String) : ofString (front ++ "//" ++ back) = ofString (front ++ "/" ++ back) := by
  have separators : (front ++ "//" ++ back).toList = front.toList ++ '/' :: '/' :: back.toList := by simp
  have separator : (front ++ "/" ++ back).toList = front.toList ++ '/' :: back.toList := by simp
  have first : (front.toList ++ '/' :: '/' :: back.toList).head? = (front.toList ++ '/' :: back.toList).head? := by
    cases front.toList <;> rfl
  simp only [ofString, separators, separator, first, Text.pieces_eq_splitOn, List.splitOn_append_cons_self,
    splitOn_separator_cons, List.filterMap_append]
  rfl

/-- A name that can be written as a step of a path. -/
def Writable (name : String) : Prop := '/' ∉ name.toList ∧ stepOf name.toList = some (.into name)

theorem not_mem_of_mem_splitOn {separator : Char} {piece cs : List Char} (member : piece ∈ cs.splitOn separator) :
    separator ∉ piece := by
  induction cs generalizing piece with
  | nil =>
    rw [List.splitOn_nil, List.mem_singleton] at member
    rw [member]
    exact List.not_mem_nil
  | cons c cs ih =>
    rw [List.splitOn_cons_eq_if_modifyHead] at member
    split at member
    · rcases List.mem_cons.mp member with rfl | rest
      · exact List.not_mem_nil
      · exact ih rest
    · rename_i other
      obtain ⟨first, others, split⟩ := List.exists_cons_of_ne_nil (List.splitOn_ne_nil separator cs)
      rw [split] at member ih
      rcases List.mem_cons.mp member with rfl | rest
      · rw [List.mem_cons, not_or]
        exact ⟨fun same => other (beq_iff_eq.mpr same.symm), ih List.mem_cons_self⟩
      · exact ih (List.mem_cons_of_mem _ rest)

theorem stepOf_render {step : Step} (writable : ∀ name, step = .into name → Writable name) :
    stepOf step.render.toList = some step ∧ '/' ∉ step.render.toList := by
  cases step with
  | stay => exact ⟨rfl, by decide⟩
  | up => exact ⟨rfl, by decide⟩
  | into name => exact (writable name rfl).symm

/-- A path is read as it is spelled. -/
theorem ofString_spelled (writable : ∀ name, .into name ∈ p.steps → Writable name) : ofString p.spelled = p := by
  obtain ⟨absolute, steps⟩ := p
  have rendered (step : Step) (member : step ∈ steps) :=
    stepOf_render fun name same => writable name (same ▸ member)
  have chars : (Path.spelled ⟨absolute, steps⟩).toList = (if absolute then ['/'] else []) ++
      ['/'].intercalate (steps.map fun step => step.render.toList) := by
    cases absolute <;> simp [spelled, String.toList_intercalate, Function.comp_def]
  have pieces : (['/'].intercalate (steps.map fun step => step.render.toList)).splitOn '/' =
      if steps = [] then [[]] else steps.map fun step => step.render.toList := by
    split
    · subst steps
      rfl
    · rename_i some
      refine List.splitOn_intercalate '/' (fun piece member => ?_) (by simpa using some)
      obtain ⟨step, inside, rfl⟩ := List.mem_map.mp member
      exact (rendered step inside).2
  have read : ((['/'].intercalate (steps.map fun step => step.render.toList)).splitOn '/').filterMap stepOf = steps := by
    rw [pieces]
    split
    · subst steps
      rfl
    · rw [List.filterMap_map]
      exact (List.filterMap_congr fun step member => (rendered step member).1).trans List.filterMap_some
  rw [ofString, chars, Text.pieces_eq_splitOn]
  cases absolute with
  | true =>
    rw [if_pos rfl, List.singleton_append, splitOn_separator_cons, List.filterMap_cons_none rfl, read]
    rfl
  | false =>
    -- a spelled path that starts with a separator would have an empty piece first
    have relative : (['/'].intercalate (steps.map fun step => step.render.toList)).head? ≠ some '/' := by
      intro first
      obtain ⟨rest, starts⟩ := List.head?_eq_some_iff.mp first
      rw [starts, splitOn_separator_cons] at pieces
      cases steps with
      | nil => cases starts
      | cons step steps =>
        have empty : [] = step.render.toList := (List.cons.inj pieces).1
        have none := (rendered step List.mem_cons_self).1
        rw [← empty] at none
        cases none
    simp only [Bool.false_eq_true, if_false, List.nil_append, read, beq_eq_false_iff_ne.mpr relative]

theorem writable_of_mem {s name : String} (member : .into name ∈ (ofString s).steps) : Writable name := by
  obtain ⟨piece, inside, step⟩ := List.mem_filterMap.mp member
  rw [Text.pieces_eq_splitOn] at inside
  have same : piece = name.toList := by
    unfold stepOf at step
    split at step <;> cases step
    exact String.toList_ofList.symm
  subst same
  exact ⟨not_mem_of_mem_splitOn inside, step⟩

theorem mem_of_mem_clean {name : String} (member : .into name ∈ p.clean.steps) : .into name ∈ p.steps := by
  have walked (steps way : List Step) (member : .into name ∈ steps.foldl (walk p.absolute) way) :
      .into name ∈ way ∨ .into name ∈ steps := by
    induction steps generalizing way with
    | nil => exact .inl member
    | cons step steps ih =>
      rcases ih _ member with earlier | later
      · cases step with
        | stay => exact .inl earlier
        | into other =>
          rcases List.mem_cons.mp earlier with same | before
          · exact .inr (same ▸ List.mem_cons_self)
          · exact .inl before
        | up =>
          match way with
          | .into _ :: way => exact .inl (List.mem_cons_of_mem _ earlier)
          | .up :: way | .stay :: way =>
            rcases List.mem_cons.mp earlier with impossible | before
            · cases impossible
            · exact .inl before
          | [] => cases absolute : p.absolute <;> simp [absolute, walk] at earlier
      · exact .inr (List.mem_cons_of_mem _ later)
  rw [clean, List.mem_reverse] at member
  exact (walked p.steps [] member).resolve_left List.not_mem_nil

theorem ofString_spelled_clean (s : String) : ofString (ofString s).clean.spelled = (ofString s).clean :=
  ofString_spelled fun _ member => writable_of_mem (mem_of_mem_clean member)

end Spelled

end Workspace.Path

namespace Discovery

open Workspace (Path)
open Workspace.Path (IsClean Folds ofString)

/-- Spellings that differ in steps which fold lead to one directory. -/
theorem resolve_eq (d : Discovery) {s t : String} (same : Relation.EqvGen Folds (ofString s) (ofString t)) :
    d.resolve s = d.resolve t := Path.clean_join_eq (.refl _) same

theorem addDirectory_again (d : Discovery) (f : Found) {s t : String} (same : d.resolve s = d.resolve t)
    (there : d.workspace.isDirectory (d.resolve s) = true) :
    d.addDirectory (d.addDirectory f s) t = d.addDirectory f s := by
  have seen : (d.addDirectory f s).seen.contains (d.resolve s) = true := by
    simp only [addDirectory, there, Bool.not_true, Bool.false_eq_true, if_false]
    split
    · assumption
    · simp [Found.mark]
  generalize d.addDirectory f s = found at seen ⊢
  simp only [addDirectory, ← same, there, seen, Bool.not_true, Bool.false_eq_true, if_false, if_true]

/-- Cleaning is idempotent, goes along with joining, and gives two paths one form exactly if they differ in what folds.
    The text of a clean path stands for it. So a directory has one key, whichever way it is spelled. -/
theorem clean_form_is_key :
    (∀ p : Path, p.clean.IsClean ∧ p.clean.clean = p.clean) ∧
    (∀ a b : Path, (a.join b).clean = (a.clean.join b).clean) ∧
    (∀ p q : Path, p.clean = q.clean ↔ Relation.EqvGen Folds p q) ∧
    (∀ s, ofString (ofString s).clean.spelled = (ofString s).clean) ∧
    (∀ front back, ofString (front ++ "//" ++ back) = ofString (front ++ "/" ++ back)) ∧
    ∀ (d : Discovery) (s t : String), Relation.EqvGen Folds (ofString s) (ofString t) →
      d.resolve s = d.resolve t ∧ (d.workspace.isDirectory (d.resolve s) = true →
        ∀ f, d.addDirectory (d.addDirectory f s) t = d.addDirectory f s) := by
  refine ⟨fun p => ⟨Path.isClean_clean p, Path.clean_clean p⟩, Path.clean_join, fun p q => Path.clean_eq_clean_iff,
    Path.ofString_spelled_clean, Path.ofString_repeated, fun d s t folds => ?_⟩
  have same := d.resolve_eq folds
  exact ⟨same, fun isDirectory f => d.addDirectory_again f same isDirectory⟩

end Discovery

end StackLattice
