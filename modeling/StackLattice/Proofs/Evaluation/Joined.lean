import StackLattice.Proofs.Evaluation.Mirrored
import StackLattice.Proofs.Syntax.Joined

/-!
The boundaries of files. A package without imports comes to what one file with all of its declarations comes to, and the
texts of two files are one such file with a line break between them.
-/

namespace StackLattice

open Evaluation
open Syntax (Decl Import Importless ParsedFile Revision exists_of_any)

namespace Package

/-- Equal values, or the same failure, but for places. -/
def SameResult : Except EvalError Value → Except EvalError Value → Prop
  | .ok v, .ok v' => v.unplaced = v'.unplaced
  | .error e, .error e' => e.kind = e'.kind ∧ e.message = e'.message
  | _, _ => False

namespace SameResult

variable {r r' r'' : Except EvalError Value}

theorem refl (r : Except EvalError Value) : SameResult r r := by
  cases r with
  | ok v => exact rfl
  | error e => exact ⟨rfl, rfl⟩

theorem symm (h : SameResult r r') : SameResult r' r := by
  cases r with
  | ok v =>
    cases r' with
    | ok v' => exact Eq.symm h
    | error e' => exact h
  | error e =>
    cases r' with
    | ok v' => exact h
    | error e' => exact ⟨h.1.symm, h.2.symm⟩

theorem trans (h : SameResult r r') (h' : SameResult r' r'') : SameResult r r'' := by
  cases r' with
  | ok v' =>
    cases r with
    | error e => exact h.elim
    | ok v =>
      cases r'' with
      | ok v'' => exact Eq.trans h h'
      | error e'' => exact h'
  | error e' =>
    cases r with
    | ok v => exact h.elim
    | error e =>
      cases r'' with
      | ok v'' => exact h'
      | error e'' => exact ⟨h.1.trans h'.1, h.2.trans h'.2⟩

end SameResult

theorem sameResult_of_mirrors {r r' r'' : Except EvalError Value} (left : Mirrors IsUnplaced r r'')
    (right : Mirrors IsUnplaced r' r'') : SameResult r r' := by
  cases left with
  | ok same =>
    cases right with
    | ok same' => exact same.symm.trans same'
  | error fails =>
    cases right with
    | error fails' => exact ⟨fails.kind.symm.trans fails'.kind, fails.message.symm.trans fails'.message⟩

/-- The scopes that declarations are gathered to, without the places they come from. -/
def gathered (decls : List Decl) : Scopes := (Scopes.ofFiles []).addDecls Scopes.root 0 (decls.map Decl.bare)

theorem value_mirrored {files : List ParsedFile} (noImports : ∀ file ∈ files, file.tree.imports = []) :
    Mirrors IsUnplaced (Package.value files)
      (evaluate evaluationLimit (.body Scopes.root) { scopes := gathered (files.flatMap (·.tree.decls)) }).1 := by
  have start : Shadows { scopes := .ofFiles files } { scopes := gathered (files.flatMap (·.tree.decls)) } := by
    refine ⟨(Scopes.ofFiles_unplaced files).symm, fun index name => ?_, .nil, rfl, rfl⟩
    rw [Scopes.import?, Scopes.ofFiles, Scopes.files_addFiles, List.getElem?_toArray]
    cases found : files[index]? with
    | none => rfl
    | some file =>
      simp only [Option.bind_eq_bind, Option.bind_some, noImports file (List.mem_of_getElem? found), List.find?_nil]
  exact (evaluate_mirrored evaluationLimit (.body Scopes.root) _ _ start).1

/-- Packages without imports come to the same if their files have the same declarations one after the other, however
    these are divided into files and wherever they stand in them. -/
theorem value_of_same_declarations {files files' : List ParsedFile} (noImports : ∀ file ∈ files, file.tree.imports = [])
    (noImports' : ∀ file ∈ files', file.tree.imports = [])
    (same : (files.flatMap (·.tree.decls)).map Decl.bare = (files'.flatMap (·.tree.decls)).map Decl.bare) :
    SameResult (Package.value files) (Package.value files') := by
  have right := value_mirrored noImports'
  rw [gathered, ← same] at right
  exact sameResult_of_mirrors (value_mirrored noImports) right

/-- Two files come to what one file with the text of both comes to, the second behind a line break, if neither has
    imports and the second has no package clause; nor may it have the word `import` behind declarations of the first. -/
theorem value_joined {path path₁ path₂ first second : String} {revision : Revision} {keep keep₁ keep₂ : Bool}
    {f g : ParsedFile} (acceptedFirst : ParsedFile.read path₁ first revision keep₁ = .ok f)
    (acceptedSecond : ParsedFile.read path₂ second revision keep₂ = .ok g) (noImportsFirst : f.tree.imports = [])
    (noImportsSecond : g.tree.imports = []) (noPackage : g.tree.package = none)
    (early : f.tree.decls = [] ∨ Importless second) :
    ∃ joined, ParsedFile.read path (first ++ "\n" ++ second) revision keep = .ok joined ∧
      SameResult (Package.value [f, g]) (Package.value [joined]) := by
  obtain ⟨acceptedFirst, -⟩ := ParsedFile.read_eq_ok.mp acceptedFirst
  obtain ⟨acceptedSecond, -⟩ := ParsedFile.read_eq_ok.mp acceptedSecond
  obtain ⟨joined, accepted, imports, decls⟩ : ∃ joined,
      Syntax.File.ofSource ⟨path, first ++ "\n" ++ second⟩ revision keep = .ok joined ∧ _ ∧ _ :=
    Syntax.File.ofSource_joined acceptedFirst acceptedSecond noPackage early
  have noImports : joined.imports = [] := by
    rw [noImportsFirst, noImportsSecond] at imports
    exact List.map_eq_nil_iff.mp imports
  refine ⟨⟨⟨path, first ++ "\n" ++ second⟩, joined⟩, ParsedFile.read_eq_ok.mpr ⟨accepted, rfl⟩, ?_⟩
  refine value_of_same_declarations ?_ ?_ ?_
  · simp [noImportsFirst, noImportsSecond]
  · simp [noImports]
  · simp [decls]

/-- Whether a file has neither imports nor a package clause. -/
def isBody (file : ParsedFile) : Bool := file.tree.imports.isEmpty && file.tree.package.isNone

theorem isBody_iff {file : ParsedFile} : isBody file = true ↔ file.tree.imports = [] ∧ file.tree.package = none := by
  rw [isBody, Bool.and_eq_true, List.isEmpty_iff, Option.isNone_iff_eq_none]

/-- A field of either file may be declared again in the other, and referred to from it. -/
theorem value_joined_comment :
    let first := "a: x: 1 & int\na: y: b.z // last"
    let second := "b: z: *2 | 3\na: x: number"
    ∃ f g joined, ParsedFile.read "a.cue" first .current false = .ok f ∧
      ParsedFile.read "b.cue" second .current false = .ok g ∧
      ParsedFile.read "ab.cue" (first ++ "\n" ++ second) .current false = .ok joined ∧
      SameResult (Package.value [f, g]) (Package.value [joined]) := by
  intro first second
  obtain ⟨f, acceptedFirst, ofFirst⟩ := exists_of_any
    (show (ParsedFile.read "a.cue" first .current false).toOption.any isBody = true by decide +kernel)
  obtain ⟨g, acceptedSecond, ofSecond⟩ := exists_of_any
    (show (ParsedFile.read "b.cue" second .current false).toOption.any isBody = true by decide +kernel)
  have importless : Importless second := by
    intro tokens t scanned token member
    have none : (Syntax.Scanner.ofString second false).tokens.1.toOption.all
        (·.all fun token => token.kind != .importing) = true := by decide +kernel
    rw [scanned] at none
    simpa using List.all_eq_true.mp none token member
  obtain ⟨joined, accepted, same⟩ := value_joined acceptedFirst acceptedSecond (isBody_iff.mp ofFirst).1
    (isBody_iff.mp ofSecond).1 (isBody_iff.mp ofSecond).2 (.inr importless)
  exact ⟨f, g, joined, acceptedFirst, acceptedSecond, accepted, same⟩

/-- Behind a declaration even a clause that imports nothing is refused. -/
theorem joined_rejects_empty_import :
    ∃ f g, ParsedFile.read "a.cue" "a: 1" .current false = .ok f ∧
      ParsedFile.read "b.cue" "import ()" .current false = .ok g ∧ f.tree.imports = [] ∧ g.tree.imports = [] ∧
      g.tree.package = none ∧
      ∀ joined, ParsedFile.read "ab.cue" ("a: 1" ++ "\n" ++ "import ()") .current false ≠ .ok joined := by
  obtain ⟨f, acceptedFirst, ofFirst⟩ := exists_of_any
    (show (ParsedFile.read "a.cue" "a: 1" .current false).toOption.any isBody = true by decide +kernel)
  obtain ⟨g, acceptedSecond, ofSecond⟩ := exists_of_any
    (show (ParsedFile.read "b.cue" "import ()" .current false).toOption.any isBody = true by decide +kernel)
  refine ⟨f, g, acceptedFirst, acceptedSecond, (isBody_iff.mp ofFirst).1, (isBody_iff.mp ofSecond).1,
    (isBody_iff.mp ofSecond).2, fun joined accepted => ?_⟩
  have rejected : (ParsedFile.read "ab.cue" ("a: 1" ++ "\n" ++ "import ()") .current false).toBool = false := by
    decide +kernel
  rw [accepted] at rejected
  cases rejected

end Package

end StackLattice
