import StackLattice.Instance.Discovery
import StackLattice.Proofs.Syntax.PackageName

/-!
The package that the files of an instance declare. Files are picked by their package clause alone and parsed after
that, and the parser finds the package in them that they were picked for.
-/

namespace StackLattice

open Syntax (ParsedFile Revision Scanner packageName)
open Workspace (Path ReadError)

namespace Discovery

variable {d : Discovery}

/-- Files that declare the package that is looked for. -/
def Declared (d : Discovery) (files : List ParsedFile) : Prop :=
  ∀ file ∈ files, file.tree.packageName = some d.package

theorem declared_concat {scans : List Scan} (each : ∀ s ∈ scans, d.Declared s.files) :
    d.Declared (Scan.concat scans).files := by
  intro file member
  obtain ⟨s, inside, found⟩ := List.mem_flatMap.mp member
  exact each s inside file found

theorem declared_nil : d.Declared [] := List.forall_mem_nil _

theorem declared_scanText {p : Path} {text : String} (named : packageName text = some d.package) :
    d.Declared (d.scanText p text).files := by
  unfold scanText
  cases read : ParsedFile.read (d.fileName p) text d.revision false with
  | error e => exact declared_nil
  | ok file =>
    intro f member
    cases List.mem_singleton.mp member
    obtain ⟨accepted, _⟩ := Syntax.ParsedFile.read_eq_ok.mp read
    rw [← Syntax.packageName_of_ofSource accepted, named]

theorem declared_scanFile (p : Path) (content : Except ReadError String) :
    d.Declared (d.scanFile p content).files := by
  unfold scanFile
  cases content with
  | error e => exact declared_nil
  | ok text =>
    dsimp only
    split
    · exact declared_scanText ‹_›
    · exact declared_nil

theorem declared_scan (directory : Path) : d.Declared (d.scan directory).files := by
  unfold scan
  cases d.workspace.find directory with
  | error e => exact declared_nil
  | ok t =>
    refine declared_concat fun s member => ?_
    obtain ⟨source, _, rfl⟩ := List.mem_map.mp member
    exact declared_scanFile _ _

theorem declared_scanArgument (argument : String) : d.Declared (d.scanArgument argument).files := by
  unfold scanArgument
  dsimp only
  split
  · exact declared_nil
  · split
    · exact declared_scanText ‹_›
    · exact declared_nil

theorem declared_emit {directory : Path} {own : Scan} (h : d.Declared own.files) :
    d.Declared (d.emit directory own).files := by
  refine declared_concat fun s member => ?_
  rcases List.mem_append.mp member with outer | inner
  · obtain ⟨p, _, rfl⟩ := List.mem_map.mp outer
    exact declared_scan p
  · rwa [List.mem_singleton.mp inner]

/-- Every instance that was found so far has files of the package only. -/
def Found.Declared (d : Discovery) (f : Found) : Prop := ∀ i ∈ f.instances, d.Declared i.files

namespace Found.Declared

variable {f : Found}

theorem add (h : f.Declared d) {i : Instance} (declared : d.Declared i.files) : (f.add i).Declared d := by
  intro j member
  rcases List.mem_append.mp member with before | last
  · exact h j before
  · rwa [List.mem_singleton.mp last]

theorem addFailed (h : f.Declared d) (displayPath : String) (e : LoadError) :
    (f.add (d.failed displayPath e)).Declared d := h.add declared_nil

theorem mark (h : f.Declared d) (directory : Path) : (f.mark directory).Declared d := h

theorem addDirectory (h : f.Declared d) (argument : String) : (d.addDirectory f argument).Declared d := by
  unfold Discovery.addDirectory
  dsimp only
  split
  · exact h.addFailed _ _
  · split
    · exact h
    · split
      · exact (h.addFailed _ _).mark _
      · exact (h.add (declared_emit (declared_scan _))).mark _

theorem addMatched (h : f.Declared d) (ps : List Path) : (d.addMatched f ps).Declared d := by
  induction ps generalizing f with
  | nil => exact h
  | cons p ps ih =>
    refine ih ?_
    split
    · exact h
    · exact (h.add (declared_emit (declared_scan p))).mark p

theorem addPattern (h : f.Declared d) (argument base : String) : (d.addPattern f argument base).Declared d := by
  unfold Discovery.addPattern
  dsimp only
  split
  · exact h.addFailed _ _
  · split
    · exact h.addFailed _ _
    · exact h.addMatched _

theorem addFiles (h : f.Declared d) (arguments : List String) : (d.addFiles f arguments).Declared d := by
  refine h.add (declared_concat fun s member => ?_)
  obtain ⟨argument, _, rfl⟩ := List.mem_map.mp member
  exact declared_scanArgument argument

theorem addAll (h : f.Declared d) (files arguments : List String) (added : Bool) :
    (d.addAll files f added arguments).Declared d := by
  induction arguments generalizing f added with
  | nil => exact h
  | cons argument arguments ih =>
    rw [Discovery.addAll]
    cases Argument.ofString argument with
    | file =>
      refine ih ?_ true
      split
      · exact h
      · exact h.addFiles files
    | below base => exact ih (h.addPattern argument base) added
    | directory => exact ih (h.addDirectory argument) added

end Found.Declared

theorem declared_of_mem_instances {arguments : List String} {i : Instance} (member : i ∈ d.instances arguments) :
    d.Declared i.files := by
  have nothing : Found.Declared d {} := List.forall_mem_nil _
  exact nothing.addAll _ _ _ i member

end Discovery

/-- The reader of the package clause and the parser agree on every text that parses; in front of a line break the
    clause is found whatever follows; and the files of an instance declare the package that was asked for. -/
theorem package_clause_agrees :
    (∀ path text revision keepComments file, ParsedFile.read path text revision keepComments = .ok file →
      packageName text = file.tree.packageName) ∧
    (∀ head rest name keepComments tokens t commas,
      (Scanner.ofString head keepComments).tokens = (.ok tokens, t) → (∀ c ∈ commas, c = .comma false) →
      tokens.map (·.kind) = commas ++ [.package, .ident name, .comma true, .eof] →
      packageName (head ++ "\n" ++ rest) = some name) ∧
    ∀ (d : Discovery) arguments, ∀ i ∈ d.instances arguments, ∀ file ∈ i.files,
      file.tree.packageName = some d.package := by
  refine ⟨fun path text revision keepComments file read => ?_, ?_, fun d arguments i member => ?_⟩
  · exact Syntax.packageName_of_ofSource (Syntax.ParsedFile.read_eq_ok.mp read).1
  · intro head rest name keepComments tokens t commas scanned areCommas kinds
    refine Syntax.packageName_of_clause scanned (fun c member => ?_) kinds
    rw [areCommas c member]
    rfl
  · exact Discovery.declared_of_mem_instances member

/-- Behind a comment, blank lines and commas the clause is found, although what follows does not tokenize. -/
theorem package_clause_agrees_unterminated :
    let head := "// a\n\n,, package // b\ncfn // c"
    let text := head ++ "\n" ++ "x: \x7b \"\nimport"
    packageName text = some "cfn" ∧ (Scanner.ofString text false).tokens.1.isOk = false := by
  intro head text
  have kinds : (Scanner.ofString head true).tokens.1.toOption.map (List.map (·.kind)) =
      some [.comma false, .comma false, .package, .ident "cfn", .comma true, .eof] := by decide +kernel
  refine ⟨?_, by decide +kernel⟩
  rcases scanned : (Scanner.ofString head true).tokens with ⟨_ | tokens, t⟩ <;> rw [scanned] at kinds
  · cases kinds
  · exact package_clause_agrees.2.1 head _ _ true tokens t [.comma false, .comma false] scanned (by simp)
      (Option.some.inj kinds)

end StackLattice
