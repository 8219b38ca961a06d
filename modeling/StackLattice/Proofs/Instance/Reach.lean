import Mathlib.Data.List.Infix
import Mathlib.Data.List.TakeDrop
import StackLattice.Instance.Discovery
import StackLattice.Proofs.Workspace.Walk

/-!
The directories that arguments reach, and the files of the package that each has. A pattern reaches the
directories with files of the package at and below its base, and a directory reaches itself.
-/

namespace StackLattice

open Syntax (ParsedFile packageName)
open Workspace (Path Tree ReadError Precedes)

/-- Names that start with a dot or an underscore. -/
def IsHidden (name : String) : Prop := ['.'] <+: name.toList ∨ ['_'] <+: name.toList

theorem isIgnored_iff {name : String} : isIgnored name = true ↔ IsHidden name := by
  simp only [isIgnored, Bool.or_eq_true, String.startsWith_string_iff]
  rfl

theorem isEntered_iff {name : String} : isEntered name = true ↔ ¬(IsHidden name ∨ name = "cue.mod") := by
  rw [isEntered, Bool.and_eq_true, Bool.not_eq_true', ← Bool.not_eq_true, isIgnored_iff, bne_iff_ne, not_or]

/-- `*.cue`, not hidden. -/
def IsSource (name : String) : Prop := ['.', 'c', 'u', 'e'] <:+ name.toList ∧ ¬IsHidden name

theorem extension?_eq_some {name suffix : String} (h : Workspace.extension? name = some suffix) :
    ('.' :: suffix.toList) <:+ name.toList := by
  rw [Workspace.extension?, List.span_eq_takeWhile_dropWhile] at h
  have whole := List.takeWhile_append_dropWhile (p := (· ≠ '.')) (l := name.toList.reverse)
  cases rest : name.toList.reverse.dropWhile (· ≠ '.') with
  | nil =>
    rw [rest] at h
    cases h
  | cons c others =>
    have dot : c = '.' := by
      have first := List.head_dropWhile_not (l := name.toList.reverse) (· ≠ '.') (by rw [rest]; simp)
      simp only [rest, List.head_cons] at first
      simpa using first
    rw [rest] at h whole
    generalize name.toList.reverse.takeWhile (· ≠ '.') = before at h whole
    cases others with
    | nil => cases h
    | cons x others =>
      cases h
      rw [String.toList_ofList, ← List.reverse_prefix, ← whole, List.reverse_cons, List.reverse_reverse, dot]
      exact ⟨x :: others, by simp⟩

theorem extension?_of_suffix {name suffix : String} (undotted : '.' ∉ suffix.toList)
    (ends : ('.' :: suffix.toList) <:+ name.toList) (shown : ¬['.'] <+: name.toList) :
    Workspace.extension? name = some suffix := by
  obtain ⟨before, whole⟩ := ends
  have some : before ≠ [] := by
    rintro rfl
    exact shown ⟨suffix.toList, whole⟩
  obtain ⟨x, others, behind⟩ := List.exists_cons_of_ne_nil (List.reverse_ne_nil_iff.mpr some)
  have reversed : name.toList.reverse = suffix.toList.reverse ++ '.' :: x :: others := by
    rw [← whole, List.reverse_append, List.reverse_cons, behind, List.append_assoc]
    rfl
  have all : ∀ c ∈ suffix.toList.reverse, decide (c ≠ '.') = true := by
    intro c member
    rw [decide_eq_true_eq]
    rintro rfl
    exact undotted (List.mem_reverse.mp member)
  rw [Workspace.extension?, List.span_eq_takeWhile_dropWhile, reversed, List.takeWhile_append_of_pos all,
    List.dropWhile_append_of_pos all]
  simp

theorem isSourceName_iff {name : String} : isSourceName name = true ↔ IsSource name := by
  rw [isSourceName, Bool.and_eq_true, Bool.not_eq_true', ← Bool.not_eq_true, isIgnored_iff, beq_iff_eq, and_comm]
  refine and_congr_left fun shown => ⟨extension?_eq_some, fun ends => ?_⟩
  exact extension?_of_suffix (by decide) ends fun dot => shown (.inl dot)

namespace Discovery

variable (d : Discovery)

/-- The directory that an argument names, or that a pattern starts at. -/
def target (argument : String) : Path :=
  match Argument.ofString argument with
  | .below base => d.resolve base
  | _ => d.resolve argument

/-- Whether a directory has a file that is of the package, or cannot be read. -/
def Holds (directory : Path) : Prop :=
  ∃ entries name content, d.workspace.find directory = .ok (.directory entries) ∧
    (name, .file content) ∈ entries ∧ IsSource name ∧
    ∀ text, content = .ok text → packageName text = some d.package

inductive Reaches (argument : String) : Path → Prop
  | directory (kind : Argument.ofString argument = .directory)
      (there : d.workspace.isDirectory (d.resolve argument) = true) : Reaches argument (d.resolve argument)
  /-- No directory on the way from the base is passed over. -/
  | below {base : String} (kind : Argument.ofString argument = .below base) (names : List String)
      (entered : ∀ name ∈ names, ¬(IsHidden name ∨ name = "cue.mod"))
      (holds : d.Holds ((d.resolve base).descend names)) : Reaches argument ((d.resolve base).descend names)

/-- The directories that an argument reaches. -/
def reached (argument : String) : List Path :=
  match Argument.ofString argument with
  | .file => []
  | .directory => if d.workspace.isDirectory (d.resolve argument) then [d.resolve argument] else []
  | .below base => d.matching (d.resolve base)

/-- The files of a directory that may be of a package by their names. -/
def sources (directory : Path) : List (String × Except ReadError String) :=
  match d.workspace.find directory with
  | .error _ => []
  | .ok t => t.files.filter (isSourceName ·.1)

/-- The tree of a file of the package, if it parses. -/
def fileOf? (directory : Path) (source : String × Except ReadError String) : Option ParsedFile :=
  match source.2 with
  | .error _ => none
  | .ok text =>
    if packageName text = some d.package then
      match ParsedFile.read (d.fileName (directory.child source.1)) text d.revision false with
      | .ok file => some file
      | .error _ => none
    else none

/-- What is wrong with a file of the package, or with one that cannot be read. -/
def errorOf? (directory : Path) (source : String × Except ReadError String) : Option LoadError :=
  match source.2 with
  | .error e => some (.unreadable (directory.child source.1).render e)
  | .ok text =>
    if packageName text = some d.package then
      match ParsedFile.read (d.fileName (directory.child source.1)) text d.revision false with
      | .ok _ => none
      | .error e => some (.ofSyntax e)
    else none

/-- The directories from the root down to one below it, or that one alone. -/
def lineage (directory : Path) : List Path :=
  match d.relative? directory with
  | none => [directory]
  | some names => names.inits.map d.cleanRoot.descend

/-- The files of the package in a directory and in those above it, and what is wrong with the others. -/
def instanceOf (directory : Path) : Instance where
  displayPath := d.displayPath directory
  package := d.package
  directory := some directory.render
  files := (d.lineage directory).flatMap fun p => (d.sources p).filterMap (d.fileOf? p)
  errors := (d.lineage directory).flatMap fun p => (d.sources p).filterMap (d.errorOf? p)

variable {d}

section Sources

variable {directory : Path}

theorem sources_of_find {entries : List (String × Tree)}
    (found : d.workspace.find directory = .ok (.directory entries)) :
    d.sources directory = (Tree.directory entries).files.filter (isSourceName ·.1) := by
  rw [sources, found]

theorem mem_files {entries : List (String × Tree)} {name : String} {content : Except ReadError String} :
    (name, content) ∈ (Tree.directory entries).files ↔ (name, .file content) ∈ entries := by
  rw [Tree.files, Tree.mem_byName, Tree.entries, List.mem_filterMap]
  constructor
  · rintro ⟨⟨other, t⟩, member, same⟩
    cases t with
    | file content =>
      cases same
      exact member
    | directory entries => cases same
  · exact fun member => ⟨_, member, rfl⟩

theorem mem_sources {name : String} {content : Except ReadError String} :
    (name, content) ∈ d.sources directory ↔
      ∃ entries, d.workspace.find directory = .ok (.directory entries) ∧
        (name, .file content) ∈ entries ∧ IsSource name := by
  rw [sources]
  cases d.workspace.find directory with
  | error e => simp
  | ok t =>
    cases t with
    | file content => simp [Tree.files, Tree.entries, Tree.byName]
    | directory entries => simp [mem_files, isSourceName_iff]

theorem names_files_sublist (entries : List (String × Tree)) :
    (((Tree.directory entries).entries.filterMap fun (name, t) =>
      match t with
      | .file content => some (name, content)
      | .directory _ => none).map Prod.fst).Sublist (entries.map (·.1)) := by
  rw [Tree.entries]
  induction entries with
  | nil => exact .slnil
  | cons entry entries ih =>
    obtain ⟨name, t⟩ := entry
    cases t with
    | file content => exact ih.cons_cons name
    | directory inner => exact ih.cons name

theorem sources_pairwise (distinct : d.workspace.tree.Distinct) :
    (d.sources directory).Pairwise fun f g => Text.utf8 f.1 < Text.utf8 g.1 := by
  rw [sources]
  cases found : d.workspace.find directory with
  | error e => exact .nil
  | ok t =>
    refine List.Pairwise.sublist List.filter_sublist ?_
    refine (Tree.byName_pairwise ?_).imp Text.lt_iff_utf8_lt.mp
    cases t with
    | file content => exact List.nodup_nil
    | directory entries =>
      have names := distinct.at? found
      rw [Tree.Distinct] at names
      exact names.1.sublist (names_files_sublist entries)

theorem scanFile_eq (source : String × Except ReadError String) :
    d.scanFile (directory.child source.1) source.2 =
      ⟨(d.fileOf? directory source).toList, (d.errorOf? directory source).toList⟩ := by
  obtain ⟨name, content⟩ := source
  cases content with
  | error e => rfl
  | ok text =>
    simp only [scanFile, fileOf?, errorOf?, scanText]
    split
    · cases ParsedFile.read (d.fileName (directory.child name)) text d.revision false <;> rfl
    · rfl

theorem scan_eq (there : d.workspace.isDirectory directory = true) :
    d.scan directory =
      ⟨(d.sources directory).filterMap (d.fileOf? directory),
        (d.sources directory).filterMap (d.errorOf? directory)⟩ := by
  obtain ⟨entries, found⟩ := (d.workspace.isDirectory_iff directory).mp there
  rw [scan, found, sources_of_find found]
  simp only [scanFile_eq, Scan.concat, List.flatMap_map, List.filterMap_eq_flatMap_toList]

theorem fileOf?_or_errorOf? (source : String × Except ReadError String) :
    ((d.fileOf? directory source).isSome || (d.errorOf? directory source).isSome) = true ↔
      ∀ text, source.2 = .ok text → packageName text = some d.package := by
  obtain ⟨name, content⟩ := source
  cases content with
  | error e => simp [errorOf?]
  | ok text =>
    simp only [fileOf?, errorOf?, Except.ok.injEq, forall_eq']
    split
    · rename_i same
      cases ParsedFile.read (d.fileName (directory.child name)) text d.revision false <;> simp [same]
    · rename_i other
      simp [other]

theorem holds_iff : d.Holds directory ↔
    ((d.sources directory).any fun source =>
      (d.fileOf? directory source).isSome || (d.errorOf? directory source).isSome) = true := by
  simp only [List.any_eq_true, fileOf?_or_errorOf?, Prod.exists, mem_sources, Holds]
  constructor
  · rintro ⟨entries, name, content, found, member, source, declares⟩
    exact ⟨name, content, ⟨entries, found, member, source⟩, declares⟩
  · rintro ⟨name, content, ⟨entries, found, member, source⟩, declares⟩
    exact ⟨entries, name, content, found, member, source, declares⟩

instance : DecidablePred d.Holds := fun _ => decidable_of_iff' _ holds_iff

theorem Holds.isDirectory (holds : d.Holds directory) : d.workspace.isDirectory directory = true := by
  obtain ⟨entries, _, _, found, -⟩ := holds
  exact (d.workspace.isDirectory_iff directory).mpr ⟨entries, found⟩

/-- A directory holds the package when anything is found in it. -/
theorem isEmpty_scan_iff (there : d.workspace.isDirectory directory = true) :
    (d.scan directory).isEmpty = false ↔ d.Holds directory := by
  rw [holds_iff, List.any_eq_true, scan_eq there, Scan.isEmpty, ← Bool.not_eq_true, Bool.and_eq_true,
    List.isEmpty_iff, List.isEmpty_iff, List.filterMap_eq_nil_iff, List.filterMap_eq_nil_iff, ← forall₂_and]
  push Not
  refine exists_congr fun source => and_congr_right fun _ => ?_
  rw [Bool.or_eq_true, Option.isSome_iff_ne_none, Option.isSome_iff_ne_none, or_iff_not_imp_left, not_not]

end Sources

section Lineage

variable {directory : Path}

theorem inits_eq_map_take {α : Type} (xs : List α) :
    xs.inits = (List.range xs.length).map xs.take ++ [xs] := by
  induction xs with
  | nil => rfl
  | cons x xs ih =>
    rw [List.inits_cons, ih, List.length_cons, List.range_succ_eq_map]
    simp [Function.comp_def]

theorem ancestors_append : d.ancestors directory ++ [directory] = d.lineage directory := by
  rw [ancestors, lineage]
  cases below : d.relative? directory with
  | none => rfl
  | some names =>
    show _ = names.inits.map d.cleanRoot.descend
    rw [inits_eq_map_take, List.map_append, List.map_map, List.map_singleton, ← Path.below?_eq_some.mp below]
    rfl

theorem exists_descend_of_mem_lineage {p : Path} (member : p ∈ d.lineage directory) :
    ∃ names, directory = p.descend names := by
  rw [lineage] at member
  cases below : d.relative? directory with
  | none =>
    rw [below, List.mem_singleton] at member
    exact ⟨[], member.symm⟩
  | some names =>
    rw [below, List.mem_map] at member
    obtain ⟨first, inits, rfl⟩ := member
    obtain ⟨more, rfl⟩ := (List.mem_inits _ _).mp inits
    exact ⟨more, by rw [Path.below?_eq_some.mp below, Path.descend_append]⟩

theorem isDirectory_of_mem_lineage (there : d.workspace.isDirectory directory = true) {p : Path}
    (member : p ∈ d.lineage directory) : d.workspace.isDirectory p = true := by
  obtain ⟨names, rfl⟩ := exists_descend_of_mem_lineage member
  exact d.workspace.isDirectory_of_descend _ _ there

theorem emit_eq (there : d.workspace.isDirectory directory = true) :
    d.emit directory (d.scan directory) = d.instanceOf directory := by
  have scans : (d.ancestors directory).map d.scan ++ [d.scan directory] = (d.lineage directory).map d.scan := by
    rw [← ancestors_append, List.map_append, List.map_singleton]
  have each := fun p member => scan_eq (isDirectory_of_mem_lineage there (p := p) member)
  rw [emit, scans, instanceOf]
  simp only [Scan.concat, List.flatMap_map, Instance.mk.injEq, true_and]
  exact ⟨List.flatMap_congr fun p member => by rw [each p member],
    List.flatMap_congr fun p member => by rw [each p member]⟩

end Lineage

end Discovery

end StackLattice
