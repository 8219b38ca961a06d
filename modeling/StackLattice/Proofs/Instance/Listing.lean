import StackLattice.Proofs.Instance.Reach

/-!
The instances that directories and patterns make up. Each argument adds one instance for every directory that
it reaches and no argument before it does, or one that tells why it reaches none.
-/

namespace StackLattice

open Workspace (Path Tree Precedes)

namespace Discovery

variable (d : Discovery)

/-- The directories that an argument reaches and no earlier one does. -/
def fresh (earlier : List String) (argument : String) : List Path :=
  (d.reached argument).filter fun p => !earlier.any fun a => (d.reached a).contains p

/-- The instance of a directory that is reached; without files of the package it is an error. -/
def instanceFor (directory : Path) : Instance :=
  if d.Holds directory then d.instanceOf directory
  else d.failed (d.displayPath directory) (.noFiles directory.render d.package)

def contribution (earlier : List String) (argument : String) : List Instance :=
  if d.workspace.isDirectory (d.target argument) then
    if (d.reached argument).isEmpty then [d.failed argument (.noMatch argument d.package)]
    else (d.fresh earlier argument).map d.instanceFor
  else [d.failed argument (.notFound argument)]

variable {d}

theorem mem_matching (distinct : d.workspace.tree.Distinct) {base p : Path} :
    p ∈ d.matching base ↔
      ∃ names, p = base.descend names ∧ (∀ name ∈ names, ¬(IsHidden name ∨ name = "cue.mod")) ∧
        d.Holds p := by
  rw [matching]
  cases found : d.workspace.find base with
  | error e =>
    refine ⟨fun member => absurd member List.not_mem_nil, ?_⟩
    rintro ⟨names, rfl, -, holds⟩
    obtain ⟨entries, there⟩ := (d.workspace.isDirectory_iff _).mp holds.isDirectory
    rw [d.workspace.find_descend, found] at there
    cases there
  | ok t =>
    have at? (names : List String) : d.workspace.find (base.descend names) = t.at? names := by
      rw [d.workspace.find_descend, found]
      rfl
    have directory (names : List String) : (∃ entries, t.at? names = .ok (.directory entries)) ↔
        d.workspace.isDirectory (base.descend names) = true := by
      rw [d.workspace.isDirectory_iff, at?]
    rw [List.mem_filter, Tree.mem_directoriesFrom (distinct.at? found), Bool.not_eq_true']
    constructor
    · rintro ⟨⟨names, rfl, entered, there⟩, some⟩
      exact ⟨names, rfl, fun name member => isEntered_iff.mp (entered name member),
        (isEmpty_scan_iff ((directory names).mp there)).mp some⟩
    · rintro ⟨names, rfl, entered, holds⟩
      exact ⟨⟨names, rfl, fun name member => isEntered_iff.mpr (entered name member),
        (directory names).mpr holds.isDirectory⟩, (isEmpty_scan_iff holds.isDirectory).mpr holds⟩

theorem mem_reached (distinct : d.workspace.tree.Distinct) {argument : String} {p : Path} :
    p ∈ d.reached argument ↔ d.Reaches argument p := by
  rw [reached]
  constructor
  · intro member
    split at member
    · cases member
    · rename_i kind
      split at member
      · rename_i there
        rw [List.mem_singleton.mp member]
        exact .directory kind there
      · cases member
    · rename_i base kind
      obtain ⟨names, rfl, entered, holds⟩ := (mem_matching distinct).mp member
      exact .below kind names entered holds
  · intro reaches
    cases reaches with
    | directory kind there => simp [kind, there]
    | below kind names entered holds =>
      rw [kind]
      exact (mem_matching distinct).mpr ⟨names, rfl, entered, holds⟩

theorem reached_pairwise (distinct : d.workspace.tree.Distinct) (argument : String) :
    (d.reached argument).Pairwise (Precedes (d.target argument)) := by
  rw [reached, target]
  cases kind : Argument.ofString argument with
  | file => exact .nil
  | directory =>
    show (if _ then [d.resolve argument] else []).Pairwise (Precedes (d.resolve argument))
    split
    · exact List.pairwise_singleton _ _
    · exact .nil
  | below base =>
    show (d.matching (d.resolve base)).Pairwise _
    rw [matching]
    cases found : d.workspace.find (d.resolve base) with
    | error e => exact .nil
    | ok t => exact (Tree.directoriesFrom_pairwise (distinct.at? found) _).filter _

theorem nodup_reached (distinct : d.workspace.tree.Distinct) (argument : String) :
    (d.reached argument).Nodup := (reached_pairwise distinct argument).imp Precedes.ne

/-- The directories that are not looked at again are those that earlier arguments reach. -/
def Tracks (d : Discovery) (earlier : List String) (f : Found) : Prop :=
  ∀ p, p ∈ f.seen ↔ ∃ a ∈ earlier, p ∈ d.reached a

section Steps

variable {earlier : List String} {f : Found} {argument : String}

theorem Tracks.fresh_eq (tracks : d.Tracks earlier f) (argument : String) :
    d.fresh earlier argument = (d.reached argument).filter fun p => !f.seen.contains p := by
  refine List.filter_congr fun p _ => ?_
  rw [Bool.eq_iff_iff]
  simp [tracks p]

theorem Tracks.concat (tracks : d.Tracks earlier f) {g : Found}
    (seen : ∀ p, p ∈ g.seen ↔ p ∈ f.seen ∨ p ∈ d.reached argument) : d.Tracks (earlier ++ [argument]) g := by
  intro p
  rw [seen, tracks p]
  simp [or_and_right, exists_or]

/-- Those directories of a list are added that have not been seen. -/
theorem addMatched_eq {ps : List Path} (distinct : ps.Nodup) (holds : ∀ p ∈ ps, d.Holds p) :
    (d.addMatched f ps).instances =
        f.instances ++ (ps.filter fun p => !f.seen.contains p).map d.instanceFor ∧
      ∀ p, p ∈ (d.addMatched f ps).seen ↔ p ∈ f.seen ∨ p ∈ ps := by
  induction ps generalizing f with
  | nil => simp [addMatched]
  | cons q ps ih =>
    rw [List.nodup_cons] at distinct
    rw [List.forall_mem_cons] at holds
    have rest {g : Found} := ih (f := g) distinct.2 holds.2
    rw [addMatched]
    by_cases known : f.seen.contains q
    · simp only [known, if_true, rest]
      rw [List.contains_iff_mem] at known
      refine ⟨by simp [known], fun p => ?_⟩
      rw [List.mem_cons, ← or_assoc]
      exact or_congr_left ⟨.inl, fun h => h.elim id fun same => same ▸ known⟩
    · simp only [known, if_false, Bool.false_eq_true, rest, Found.mark, Found.add]
      refine ⟨?_, fun p => by rw [List.mem_cons, List.mem_cons, or_assoc, or_left_comm]⟩
      have others : (ps.filter fun p => !(q :: f.seen).contains p) = ps.filter fun p => !f.seen.contains p := by
        refine List.filter_congr fun p member => ?_
        have ne : p ≠ q := fun same => distinct.1 (same ▸ member)
        simp [ne]
      rw [others, List.filter_cons_of_pos (by simpa using known), List.map_cons, instanceFor, if_pos holds.1,
        emit_eq holds.1.isDirectory]
      simp

theorem instanceFor_eq {directory : Path} (there : d.workspace.isDirectory directory = true) :
    d.instanceFor directory =
      if (d.scan directory).isEmpty then
        d.failed (d.displayPath directory) (.noFiles directory.render d.package)
      else d.emit directory (d.scan directory) := by
  have holds := isEmpty_scan_iff there
  rw [instanceFor, emit_eq there]
  cases empty : (d.scan directory).isEmpty with
  | true =>
    rw [if_pos rfl, if_neg]
    rw [← holds, empty]
    exact Bool.noConfusion
  | false => rw [if_neg Bool.false_ne_true, if_pos (holds.mp empty)]

theorem addDirectory_eq (kind : Argument.ofString argument = .directory) (tracks : d.Tracks earlier f) :
    (d.addDirectory f argument).instances = f.instances ++ d.contribution earlier argument ∧
      d.Tracks (earlier ++ [argument]) (d.addDirectory f argument) := by
  have named : d.target argument = d.resolve argument := by rw [target, kind]
  rw [addDirectory, contribution, tracks.fresh_eq, named]
  cases there : d.workspace.isDirectory (d.resolve argument) with
  | false =>
    have reached : d.reached argument = [] := by simp [Discovery.reached, kind, there]
    exact ⟨rfl, tracks.concat fun p => by simp [reached, Found.add]⟩
  | true =>
    have reached : d.reached argument = [d.resolve argument] := by simp [Discovery.reached, kind, there]
    rw [reached]
    by_cases known : d.resolve argument ∈ f.seen
    · refine ⟨by simp [known], tracks.concat fun p => ?_⟩
      rw [reached, List.mem_singleton, if_neg (by simp), if_pos (List.contains_iff_mem.mpr known)]
      exact ⟨.inl, fun h => h.elim id fun same => same ▸ known⟩
    · refine ⟨?_, tracks.concat fun p => ?_⟩
      · rw [if_neg (by simp), if_neg (by simpa using known), List.filter_cons_of_pos (by simpa using known),
          List.filter_nil, List.map_singleton, instanceFor_eq there]
        rfl
      · simp [reached, known, Found.add, Found.mark, or_comm]

theorem addPattern_eq {base : String} (kind : Argument.ofString argument = .below base)
    (distinct : d.workspace.tree.Distinct) (tracks : d.Tracks earlier f) :
    (d.addPattern f argument base).instances = f.instances ++ d.contribution earlier argument ∧
      d.Tracks (earlier ++ [argument]) (d.addPattern f argument base) := by
  have named : d.target argument = d.resolve base := by rw [target, kind]
  have reached : d.reached argument = d.matching (d.resolve base) := by rw [Discovery.reached, kind]
  have holds : ∀ p ∈ d.matching (d.resolve base), d.Holds p := fun p member =>
    ((mem_matching distinct).mp member).choose_spec.2.2
  have nodup := reached ▸ nodup_reached distinct argument
  rw [addPattern, contribution, tracks.fresh_eq, named, reached]
  cases there : d.workspace.isDirectory (d.resolve base) with
  | false =>
    have none : d.matching (d.resolve base) = [] := by
      rw [List.eq_nil_iff_forall_not_mem]
      intro p member
      obtain ⟨names, rfl, -, holds⟩ := (mem_matching distinct).mp member
      have : d.workspace.isDirectory (d.resolve base) = true :=
        d.workspace.isDirectory_of_descend _ _ holds.isDirectory
      rw [there] at this
      cases this
    exact ⟨rfl, tracks.concat fun p => by simp [reached, none, Found.add]⟩
  | true =>
    have added := addMatched_eq (f := f) nodup holds
    cases matched : d.matching (d.resolve base) with
    | nil => exact ⟨rfl, tracks.concat fun p => by simp [reached, matched, Found.add]⟩
    | cons p ps =>
      rw [matched] at added
      exact ⟨added.1, tracks.concat fun q => by rw [reached, matched]; exact added.2 q⟩

end Steps

section Runs

variable {earlier : List String}

theorem mem_fresh {argument : String} {p : Path} :
    p ∈ d.fresh earlier argument ↔ p ∈ d.reached argument ∧ ∀ a ∈ earlier, p ∉ d.reached a := by
  simp [fresh]

theorem addAll_eq {files arguments : List String} (kinds : ∀ a ∈ arguments, Argument.ofString a ≠ .file)
    (distinct : d.workspace.tree.Distinct) {f : Found} (tracks : d.Tracks earlier f) (added : Bool) :
    (d.addAll files f added arguments).instances = f.instances ++
      (arguments.inits.zip arguments).flatMap fun (before, a) => d.contribution (earlier ++ before) a := by
  induction arguments generalizing earlier f with
  | nil => simp [addAll]
  | cons argument arguments ih =>
    rw [List.forall_mem_cons] at kinds
    have step {g : Found} (here : g.instances = f.instances ++ d.contribution earlier argument ∧
        d.Tracks (earlier ++ [argument]) g) :
        (d.addAll files g added arguments).instances = f.instances ++
          ((argument :: arguments).inits.zip (argument :: arguments)).flatMap fun (before, a) =>
            d.contribution (earlier ++ before) a := by
      rw [ih kinds.2 here.2, here.1, List.inits_cons, List.zip_cons_cons, List.flatMap_cons, List.zip_map_left,
        List.flatMap_map, List.append_assoc]
      simp
    rw [addAll]
    cases kind : Argument.ofString argument with
    | file => exact absurd kind kinds.1
    | below base => exact step (addPattern_eq kind distinct tracks)
    | directory => exact step (addDirectory_eq kind tracks)

theorem nodup_fresh (distinct : d.workspace.tree.Distinct) (earlier arguments : List String) :
    ((arguments.inits.zip arguments).flatMap fun (before, a) => d.fresh (earlier ++ before) a).Nodup := by
  induction arguments generalizing earlier with
  | nil => exact List.nodup_nil
  | cons argument arguments ih =>
    have rest : ((argument :: arguments).inits.zip (argument :: arguments)).flatMap
        (fun (before, a) => d.fresh (earlier ++ before) a) = d.fresh earlier argument ++
          (arguments.inits.zip arguments).flatMap
            fun (before, a) => d.fresh ((earlier ++ [argument]) ++ before) a := by
      rw [List.inits_cons, List.zip_cons_cons, List.flatMap_cons, List.zip_map_left, List.flatMap_map]
      simp
    rw [rest, List.nodup_append]
    refine ⟨(nodup_reached distinct argument).filter _, ih _, fun p here q there same => ?_⟩
    subst same
    obtain ⟨⟨before, a⟩, _, inside⟩ := List.mem_flatMap.mp there
    exact (mem_fresh.mp inside).2 argument (by simp) (mem_fresh.mp here).1

end Runs

/-- Every argument adds the directories that no earlier one reaches, or the error it is. -/
theorem instances_eq (distinct : d.workspace.tree.Distinct) {arguments : List String}
    (kinds : ∀ a ∈ arguments, Argument.ofString a ≠ .file) {given : List String}
    (asked : given = if arguments.isEmpty then ["./..."] else arguments) :
    d.instances arguments = (given.inits.zip given).flatMap fun (earlier, a) => d.contribution earlier a := by
  have each : ∀ a ∈ given, Argument.ofString a ≠ .file := by
    rw [asked]
    split
    · simpa using by decide +kernel
    · exact kinds
  have nothing : d.Tracks [] {} := fun p => by simp
  have run (files : List String) : (d.addAll files {} false given).instances = [] ++
      (given.inits.zip given).flatMap fun (before, a) => d.contribution ([] ++ before) a :=
    addAll_eq each distinct nothing false
  simpa [Discovery.instances, asked] using run (given.filter fun a => Argument.ofString a = .file)

/-- What there is to say of the instances that directories and patterns make up. -/
structure Finds (d : Discovery) (arguments : List String) (found : List Instance) : Prop where
  /-- A pattern reaches what holds the package at and below its base, and a directory reaches itself. -/
  reached : ∀ a p, p ∈ d.reached a ↔ d.Reaches a p
  order : ∀ a, (d.reached a).Pairwise (Precedes (d.target a))
  /-- Every argument adds the directories that no earlier one reaches, or the error it is. -/
  instances : found = (arguments.inits.zip arguments).flatMap fun (earlier, a) => d.contribution earlier a
  once : ((arguments.inits.zip arguments).flatMap fun (earlier, a) => d.fresh earlier a).Nodup
  sources : ∀ directory name content, (name, content) ∈ d.sources directory ↔
    ∃ entries, d.workspace.find directory = .ok (.directory entries) ∧
      (name, .file content) ∈ entries ∧ IsSource name
  sorted : ∀ directory, (d.sources directory).Pairwise fun f g => Text.utf8 f.1 < Text.utf8 g.1

/-- `w`, the current directory, has a file of the package and the directories `a`, `_b` and `empty`. -/
def sample : Discovery where
  workspace := {
    current := ["w"]
    tree := .directory [("w", .directory [("base.cue", .file (.ok "package cfn\n")),
      ("a", .directory [("x.cue", .file (.ok "package cfn\nx: 1")), ("y.cue", .file (.error .notText))]),
      ("_b", .directory [("z.cue", .file (.ok "package cfn\nz:"))]), ("empty", .directory [])])] }

theorem sample_distinct : sample.workspace.tree.Distinct := by simp [sample, Tree.Distinct, Tree.DistinctAll]

end Discovery

end StackLattice
