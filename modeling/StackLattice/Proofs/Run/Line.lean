import StackLattice.Instance.Basic
import StackLattice.Proofs.Evaluation.Reports
import StackLattice.Proofs.Syntax.Accepted
import StackLattice.Proofs.Syntax.Faults
import StackLattice.Run.Diagnostic

/-!
Diagnostics of one line. A line break gets into the line for an instance that does not evaluate only as the character
of an escape that is not known, or in the name that a selector selects.
-/

namespace StackLattice

open Syntax (ParsedFile Revision)
open Text (Lacks Unseen)

namespace Text.Style

variable {c : Char} (h : Unseen c) (visible : c ≠ '\x1b')

include h visible

theorem start_lacks (s : Style) : c ∉ s.start := by
  have : c ∉ '[' :: s.code ++ ['m'] := by cases s <;> exact h.not_mem (by decide +kernel)
  rw [Style.start, List.cons_append, List.mem_cons, not_or]
  exact ⟨visible, this⟩

theorem resume_lacks (s : Style) {cs : List Char} (lacks : c ∉ cs) : c ∉ s.resume cs := by
  have code : c ∉ reset := by
    have : c ∉ "[0m".toList := h.literal "[0m" (by decide +kernel)
    exact fun member => (List.mem_cons.mp member).elim visible this
  fun_induction Style.resume s cs with
  | case1 cs ih =>
    rw [List.mem_append, List.mem_append, not_or, not_or]
    exact ⟨⟨code, start_lacks h visible s⟩, ih fun member => lacks (by simp [member])⟩
  | case2 d cs _ ih =>
    rw [List.mem_cons, not_or] at lacks ⊢
    exact ⟨lacks.1, ih lacks.2⟩
  | case3 => exact lacks

theorem applyIf_lacks (colored : Bool) (s : Style) {text : String} (lacks : Lacks c text) :
    Lacks c (s.applyIf colored text) := by
  rw [Style.applyIf]
  split
  · have code : c ∉ reset := by
      have : c ∉ "[0m".toList := h.literal "[0m" (by decide +kernel)
      exact fun member => (List.mem_cons.mp member).elim visible this
    rw [Style.apply, lacks_ofList, List.mem_append, List.mem_append, not_or, not_or]
    exact ⟨⟨start_lacks h visible s, resume_lacks h visible s lacks⟩, code⟩
  · exact lacks

end Text.Style

variable {c : Char}

theorem Position.render_lacks (h : Unseen c) {p : Position} (clear : p.Clear c) : Lacks c p.render := by
  have place : Lacks c (toString p.line ++ ":" ++ toString p.column) := by
    simp only [Text.lacks_append]
    exact ⟨⟨h.natural _, h.literal ":" (by decide +kernel)⟩, h.natural _⟩
  rw [Position.render]
  cases named : p.file with
  | none => exact place
  | some file =>
    have colon : Lacks c ":" := h.literal ":" (by decide +kernel)
    exact Text.lacks_append.mpr ⟨Text.lacks_append.mpr ⟨clear file named, colon⟩, place⟩

/-- An error of loading that concerns texts and paths, the paths being without a character. -/
inductive LoadError.FromText (c : Char) : LoadError → Prop
  | unreadable {path : String} {e : Workspace.ReadError} (named : Lacks c path) (reason : Lacks c e.message) :
    FromText c (.unreadable path e)
  | faulty {path text : String} {revision : Revision} {keep : Bool} {e : Syntax.SyntaxError} (named : Lacks c path)
      (read : ParsedFile.read path text revision keep = .error e) : FromText c (.ofSyntax e)
  | noFiles {directory : String} (package : String) (named : Lacks c directory) : FromText c (.noFiles directory package)
  | notFound (argument : String) : FromText c (.notFound argument)
  | otherPackage {path : String} (expected : String) (found : Option String) (named : Lacks c path) :
    FromText c (.otherPackage path expected found)
  | noMatch (pattern package : String) : FromText c (.noMatch pattern package)

/-- An error repeats a character when that of an escape is not known. -/
def LoadError.Repeats (c : Char) (e : LoadError) : Prop :=
  ∃ position, e = .ofSyntax ⟨.unknownEscape c, position⟩

theorem LoadError.lacks_message_iff (h : Unseen c) {e : LoadError} (text : e.FromText c) :
    Lacks c e.message ↔ ¬e.Repeats c := by
  constructor
  · rintro lacks ⟨position, rfl⟩
    exact Syntax.Fault.not_lacks_unknownEscape lacks
  · intro fresh
    cases text with
    | @faulty path text revision keep e named read =>
      obtain ⟨fault, position⟩ := e
      refine (Syntax.lacks_message_iff_of_read h read).mpr fun escaped => fresh ⟨position, ?_⟩
      rw [show fault = .unknownEscape c from escaped]
    | unreadable named reason =>
      exact Text.lacks_append.mpr ⟨Text.lacks_append.mpr ⟨named, h.literal ": " (by decide +kernel)⟩, reason⟩
    | @noFiles directory package named =>
      show Lacks c ("no CUE files for package " ++ Text.shown package ++ " in " ++ directory)
      simp only [Text.lacks_append]
      exact ⟨⟨⟨h.literal _ (by decide +kernel), h.shown package⟩, h.literal _ (by decide +kernel)⟩, named⟩
    | notFound argument => exact Text.lacks_append.mpr ⟨h.literal _ (by decide +kernel), h.shown argument⟩
    | @otherPackage path expected found named =>
      have declared : Lacks c ((found.map Text.shown).getD "none") := by
        cases found with
        | none => exact h.literal "none" (by decide +kernel)
        | some name => exact h.shown name
      show Lacks c (path ++ " declares package " ++ (found.map Text.shown).getD "none" ++ ", expected " ++
        Text.shown expected)
      simp only [Text.lacks_append]
      exact ⟨⟨⟨⟨named, h.literal _ (by decide +kernel)⟩, declared⟩, h.literal _ (by decide +kernel)⟩,
        h.shown expected⟩
    | noMatch pattern package =>
      show Lacks c ("pattern " ++ Text.shown pattern ++ " matched no packages named " ++ Text.shown package)
      simp only [Text.lacks_append]
      exact ⟨⟨⟨h.literal _ (by decide +kernel), h.shown pattern⟩, h.literal _ (by decide +kernel)⟩,
        h.shown package⟩

theorem LoadError.position_clear (h : Unseen c) {e : LoadError} (text : e.FromText c) :
    ∀ p ∈ e.position, p.Clear c := by
  cases text with
  | @faulty path text revision keep e named read =>
    obtain ⟨located, rfl, -⟩ := Syntax.located_of_read h read
    rintro _ ⟨⟩ _ ⟨⟩
    exact named
  | _ => exact fun _ impossible => by cases impossible

namespace Instance

/-- An instance of texts whose paths are without a character. -/
structure FromTexts (c : Char) (i : Instance) : Prop where
  files : ∀ f ∈ i.files, Lacks c f.source.path
  errors : ∀ e ∈ i.errors, e.FromText c

/-- An instance that does not evaluate repeats a character when the first error of loading it does or, if there is
    none, the name that is selected where evaluation fails. -/
def Repeats (c : Char) (i : Instance) : Prop :=
  match i.errors with
  | e :: _ => e.Repeats c
  | [] => ∃ e label, Package.document i.files = .error e ∧ e.problem.selected = some label ∧ ¬Lacks c label

/-- The instance that one text makes up. -/
def ofText (path text : String) (package : String) : Instance :=
  match ParsedFile.read path text .current false with
  | .ok f => { displayPath := path, package, files := [f] }
  | .error e => { displayPath := path, package, errors := [.ofSyntax e] }

theorem displayPath_ofText (path text package : String) : (ofText path text package).displayPath = path := by
  unfold ofText
  split <;> rfl

theorem fromTexts_ofText {path : String} (named : Lacks c path) (text package : String) :
    (ofText path text package).FromTexts c := by
  unfold ofText
  split
  · rename_i f read
    refine ⟨?_, fun _ impossible => absurd impossible List.not_mem_nil⟩
    rw [List.forall_mem_singleton, (Syntax.ParsedFile.read_eq_ok.mp read).2]
    exact named
  · rename_i e read
    refine ⟨fun _ impossible => absurd impossible List.not_mem_nil, ?_⟩
    rw [List.forall_mem_singleton]
    exact .faulty named read

variable {i : Instance} {failure : Failure}

theorem moreErrors_lacks (h : Unseen c) (n : Nat) : Lacks c (moreErrors n) := by
  unfold moreErrors
  split
  · exact h.literal _ (by decide +kernel)
  · exact h.literal _ (by decide +kernel)
  · simp only [Text.lacks_append]
    exact ⟨⟨h.literal _ (by decide +kernel), h.natural _⟩, h.literal _ (by decide +kernel)⟩

/-- The message repeats what the instance repeats, and the position nothing. -/
theorem failure_lacks_iff (h : Unseen c) (texts : i.FromTexts c) (failed : i.document = .error failure) :
    (Lacks c failure.message ↔ ¬i.Repeats c) ∧ ∀ p ∈ failure.position, p.Clear c := by
  unfold document at failed
  unfold Repeats
  cases found : i.errors with
  | cons e es =>
    have text := texts.errors e (by simp [found])
    rw [found] at failed
    cases failed
    refine ⟨?_, LoadError.position_clear h text⟩
    rw [Text.lacks_append, LoadError.lacks_message_iff h text, and_iff_left (moreErrors_lacks h _)]
  | nil =>
    rw [found] at failed
    cases result : Package.document i.files with
    | ok d =>
      rw [result] at failed
      cases failed
    | error e =>
      rw [result] at failed
      cases failed
      have clear := Package.document_error_clear h texts.files result
      refine ⟨?_, clear.position⟩
      show Lacks c (e.problem.message e.path) ↔ _
      cases selects : e.problem.selected with
      | none =>
        refine iff_of_true (Problem.message_lacks h clear.path selects) ?_
        rintro ⟨_, label, ⟨⟩, repeated, -⟩
        cases selects.symm.trans repeated
      | some label =>
        rw [Problem.lacks_message_of_selected h clear.path selects, ← not_not (a := Lacks c label), not_iff_not]
        refine ⟨fun repeated => ⟨e, label, rfl, selects, repeated⟩, ?_⟩
        rintro ⟨_, other, ⟨⟩, again, repeated⟩
        cases selects.symm.trans again
        exact repeated

end Instance

namespace Diagnostic

variable {i : Instance} {failure : Failure}

theorem lacks_line_iff (h : Unseen c) (texts : i.FromTexts c) (failed : i.document = .error failure)
    (displayPath : String) : Lacks c (Diagnostic.failed displayPath failure).line ↔ ¬i.Repeats c := by
  obtain ⟨message, placed⟩ := i.failure_lacks_iff h texts failed
  have position : Lacks c ((failure.position.map Position.render).getD "-") := by
    cases is : failure.position with
    | none => exact h.literal "-" (by decide +kernel)
    | some p => exact p.render_lacks h (placed p is)
  show Lacks c (failure.message ++ " " ++ (failure.position.map Position.render).getD "-") ↔ _
  rw [Text.lacks_append, Text.lacks_append, message, and_iff_left position,
    and_iff_left (h.literal " " (by decide +kernel))]

/-- A line break gets into the line for an instance that does not evaluate just if the instance repeats it; one that
    it does not repeat is written for it once, behind the line, if it is that of the line, and otherwise not at all. -/
theorem line_breaks_iff {i : Instance} {failure : Failure} {lineBreak : Char} (breaks : lineBreak ∈ Text.lineBreaks)
    (texts : i.FromTexts lineBreak) (failed : i.document = .error failure) :
    (lineBreak ∈ (Diagnostic.failed i.displayPath failure).line.toList ↔ i.Repeats lineBreak) ∧
      (¬i.Repeats lineBreak → ∀ colored,
        ((Diagnostic.failed i.displayPath failure).written colored).toList.count lineBreak =
          if lineBreak = '\n' then 1 else 0) := by
  have h := Text.unseen_of_mem_lineBreaks breaks
  have line := lacks_line_iff h texts failed i.displayPath
  refine ⟨by rw [← not_iff_not, ← line]; rfl, fun fresh colored => ?_⟩
  have visible : lineBreak ≠ '\x1b' := by
    rintro rfl
    revert breaks
    decide
  have text := Text.Style.applyIf_lacks h visible colored .red (line.mpr fresh)
  rw [Diagnostic.written, String.toList_append, List.count_append, List.count_eq_zero_of_not_mem text]
  split
  · rename_i same
    rw [same]
    rfl
  · rename_i other
    rw [Nat.zero_add, List.count_eq_zero]
    simpa using other

/-- The line for an instance that does not evaluate; an instance that does has none. -/
def lineOf? (i : Instance) : Option String :=
  match i.document with
  | .ok _ => none
  | .error failure => some (failed i.displayPath failure).line

theorem exists_of_lineOf? {i : Instance} {line : String} (h : lineOf? i = some line) :
    ∃ failure, i.document = .error failure ∧ (failed i.displayPath failure).line = line := by
  unfold lineOf? at h
  split at h <;> cases h
  exact ⟨_, by assumption, rfl⟩

/-- Neither the line break in a label gets into the line nor those in the values that clash. -/
theorem line_breaks_iff_conflict :
    ∃ failure, (Instance.ofText "t.cue" "\"a\\nb\": \"\\n\" & 1" "p").document = .error failure ∧
      (failed "t.cue" failure).line =
        "\"a\\nb\": conflicting values \"\\n\" and 1 (mismatched types string and int) t.cue:1:1" ∧
      ∀ colored, ((failed "t.cue" failure).written colored).toList.count '\n' = 1 := by
  have line : lineOf? (.ofText "t.cue" "\"a\\nb\": \"\\n\" & 1" "p") =
      some "\"a\\nb\": conflicting values \"\\n\" and 1 (mismatched types string and int) t.cue:1:1" := by
    decide +kernel
  obtain ⟨failure, failed, same⟩ := exists_of_lineOf? line
  have named : Lacks '\n' "t.cue" := by
    unfold Lacks
    decide
  have texts := Instance.fromTexts_ofText named "\"a\\nb\": \"\\n\" & 1" "p"
  have breaks : '\n' ∈ Text.lineBreaks := by decide
  obtain ⟨mem_iff, count⟩ := line_breaks_iff breaks texts failed
  have fresh := mem_iff.not.mp (by rw [same]; decide +kernel)
  rw [Instance.displayPath_ofText] at same count
  exact ⟨failure, failed, same, fun colored => (count fresh colored).trans (if_pos rfl)⟩

/-- The name of a selector and the character of an escape break the line. -/
theorem line_breaks_repeated :
    ¬(∀ path text package failure, Lacks '\n' path → Lacks '\n' package →
        (Instance.ofText path text package).document = .error failure → Lacks '\n' (failed path failure).line) ∧
      lineOf? (.ofText "t.cue" "a: {}\nb: a.\"x\\ny\"" "p") = some "b: undefined field: x\ny t.cue:2:6" ∧
      lineOf? (.ofText "t.cue" "a: \"x\\\ny\"" "p") = some "unknown escape sequence \\\n t.cue:1:6" := by
  have selected : lineOf? (.ofText "t.cue" "a: {}\nb: a.\"x\\ny\"" "p") =
      some "b: undefined field: x\ny t.cue:2:6" := by decide +kernel
  have escaped : lineOf? (.ofText "t.cue" "a: \"x\\\ny\"" "p") =
      some "unknown escape sequence \\\n t.cue:1:6" := by decide +kernel
  refine ⟨fun claim => ?_, selected, escaped⟩
  obtain ⟨failure, failed, same⟩ := exists_of_lineOf? selected
  rw [Instance.displayPath_ofText] at same
  have lacks := claim "t.cue" _ "p" failure (by unfold Lacks; decide) (by unfold Lacks; decide) failed
  rw [same] at lacks
  revert lacks
  unfold Lacks
  decide +kernel

end Diagnostic

end StackLattice
