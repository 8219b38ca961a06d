import StackLattice.Evaluation.Error
import StackLattice.Proofs.Text.Unseen
import StackLattice.Proofs.Value.FieldPath
import StackLattice.Proofs.Value.Unplaced

/-!
How failures of an evaluation are worded. Values and paths are shown without characters that are not seen, and a
message shows nothing else but the name that a selector selects.
-/

namespace StackLattice

open Text (Lacks Unseen)

variable {c : Char}

theorem Text.lacks_intercalate {separator : String} {parts : List String} (between : Lacks c separator)
    (each : ∀ s ∈ parts, Lacks c s) : Lacks c (separator.intercalate parts) := by
  rw [Lacks, String.toList_intercalate]
  induction parts with
  | nil => exact List.not_mem_nil
  | cons s parts ih =>
    rw [List.forall_mem_cons] at each
    cases parts with
    | nil => simpa [List.intercalate, Lacks] using each.1
    | cons t parts =>
      have rest := ih each.2
      simp only [List.intercalate, List.map_cons, List.intersperse_cons_cons, List.flatten_cons, List.mem_append,
        not_or] at rest ⊢
      exact ⟨each.1, between, rest⟩

section Unseen

variable (h : Unseen c)

include h

theorem Kind.name_lacks (k : Kind) : Lacks c k.name := by
  cases k <;> exact h.literal _ (by decide +kernel)

theorem Value.typeName_lacks (v : Value) : Lacks c v.typeName := by
  cases v with
  | kind k => exact Kind.name_lacks h k
  | top => exact h.literal "_" (by decide +kernel)
  | null => exact h.literal "null" (by decide +kernel)
  | bool _ => exact h.literal "bool" (by decide +kernel)
  | int _ => exact h.literal "int" (by decide +kernel)
  | float _ => exact h.literal "float" (by decide +kernel)
  | string _ => exact h.literal "string" (by decide +kernel)
  | struct _ => exact h.literal "struct" (by decide +kernel)
  | list _ => exact h.literal "list" (by decide +kernel)
  | disjunction _ => exact h.literal "disjunction" (by decide +kernel)

mutual

theorem Value.render_lacks (v : Value) : Lacks c v.render := by
  match v with
  | .kind k => exact Kind.name_lacks h k
  | .bool b => cases b <;> exact h.literal _ (by decide +kernel)
  | .int n => exact h.integer n
  | .float x => exact Decimal.Layout.render_lacks h _ x
  | .string s => exact h.shown s
  | .disjunction alternatives =>
    rw [Value.render]
    exact Text.lacks_intercalate (h.literal _ (by decide +kernel)) (Value.renderAll_lacks alternatives)
  | .top => exact h.literal "_" (by decide +kernel)
  | .null => exact h.literal "null" (by decide +kernel)
  | .struct _ => exact h.literal "\x7b...\x7d" (by decide +kernel)
  | .list _ => exact h.literal "[...]" (by decide +kernel)

theorem Value.renderAll_lacks (alternatives : List (Alternative Value)) :
    ∀ s ∈ Value.renderAll alternatives, Lacks c s := by
  match alternatives with
  | [] => exact fun _ impossible => absurd impossible List.not_mem_nil
  | ⟨value, marked⟩ :: rest =>
    rw [Value.renderAll, List.forall_mem_cons]
    refine ⟨Text.lacks_append.mpr ⟨?_, Value.render_lacks value⟩, Value.renderAll_lacks rest⟩
    split <;> exact h.literal _ (by decide +kernel)

end

theorem Clash.message_lacks (clash : Clash) : Lacks c clash.message := by
  induction clash with
  | values left right =>
    have types : Lacks c (if left.typeName = right.typeName then ""
        else " (mismatched types " ++ left.typeName ++ " and " ++ right.typeName ++ ")") := by
      split
      · exact h.literal _ (by decide +kernel)
      · simp only [Text.lacks_append]
        exact ⟨⟨⟨⟨h.literal _ (by decide +kernel), left.typeName_lacks h⟩, h.literal _ (by decide +kernel)⟩,
          right.typeName_lacks h⟩, h.literal _ (by decide +kernel)⟩
    rw [Clash.message_values]
    simp only [Text.lacks_append]
    exact ⟨⟨⟨⟨h.literal _ (by decide +kernel), left.render_lacks h⟩, h.literal _ (by decide +kernel)⟩,
      right.render_lacks h⟩, types⟩
  | lengths left right =>
    show Lacks c ("incompatible list lengths (" ++ toString left ++ " and " ++ toString right ++ ")")
    simp only [Text.lacks_append]
    exact ⟨⟨⟨⟨h.literal _ (by decide +kernel), h.natural left⟩, h.literal _ (by decide +kernel)⟩,
      h.natural right⟩, h.literal _ (by decide +kernel)⟩
  | noAlternative => exact h.literal _ (by decide +kernel)
  | everyAlternative first ih => exact Text.lacks_append.mpr ⟨h.literal _ (by decide +kernel), ih⟩

theorem pathSegment_lacks (label : String) : Lacks c (pathSegment label) := by
  cases bare : isBareLabel label with
  | false =>
    rw [pathSegment_of_quoted bare]
    exact h.shown label
  | true =>
    rw [pathSegment_of_bare bare]
    intro member
    rcases of_mem_bare bare member with alphanumeric | same | same | same
    · rw [h.alphanumeric] at alphanumeric
      cases alphanumeric
    · exact h.ne (by decide) same
    · exact h.ne (by decide) same
    · exact h.ne (by decide) same

theorem joinPath_lacks {path : String} (clear : Lacks c path) (label : String) : Lacks c (joinPath path label) := by
  rw [joinPath]
  split
  · exact pathSegment_lacks h label
  · simp only [Text.lacks_append]
    exact ⟨⟨clear, h.literal _ (by decide +kernel)⟩, pathSegment_lacks h label⟩

theorem foldl_joinPath_lacks {path : String} (clear : Lacks c path) (labels : List String) :
    Lacks c (labels.foldl joinPath path) := by
  induction labels generalizing path with
  | nil => exact clear
  | cons label labels ih => exact ih (joinPath_lacks h clear label)

theorem pathPrefix_lacks {path : String} (clear : Lacks c path) : Lacks c (pathPrefix path) := by
  rw [pathPrefix]
  split
  · exact h.literal _ (by decide +kernel)
  · exact Text.lacks_append.mpr ⟨clear, h.literal _ (by decide +kernel)⟩

end Unseen

namespace Problem

/-- The name that a message about a selector repeats as it is. -/
def selected : Problem → Option String
  | selectFromAmbiguous _ label | selectFromIncomplete _ label | selectFromScalar _ label | selectMissing label =>
    some label
  | _ => none

section Message

variable (h : Unseen c) {path : String} (clear : Lacks c path)

include h clear

/-- The message for a problem repeats the name that is selected as it is. -/
theorem lacks_message_of_selected {problem : Problem} {label : String} (selects : problem.selected = some label) :
    Lacks c (problem.message path) ↔ Lacks c label := by
  have start := pathPrefix_lacks h clear
  have opening := h.literal " (selecting " (by decide +kernel)
  have closing := h.literal ")" (by decide +kernel)
  cases problem with
  | selectFromAmbiguous v other =>
    cases selects
    have word := h.literal "unresolved disjunction " (by decide +kernel)
    show Lacks c (pathPrefix path ++ "unresolved disjunction " ++ v.render ++ " (selecting " ++ label ++ ")") ↔ _
    simp only [Text.lacks_append, start, word, v.render_lacks h, opening, closing, true_and, and_true]
  | selectFromIncomplete v other =>
    cases selects
    have word := h.literal "incomplete value " (by decide +kernel)
    show Lacks c (pathPrefix path ++ "incomplete value " ++ v.render ++ " (selecting " ++ label ++ ")") ↔ _
    simp only [Text.lacks_append, start, word, v.render_lacks h, opening, closing, true_and, and_true]
  | selectFromScalar v other =>
    cases selects
    have word := h.literal "invalid selector " (by decide +kernel)
    have colon := h.literal ": " (by decide +kernel)
    have reason := h.literal " is not a struct" (by decide +kernel)
    show Lacks c (pathPrefix path ++ "invalid selector " ++ label ++ ": " ++ v.render ++ " is not a struct") ↔ _
    simp only [Text.lacks_append, start, word, v.render_lacks h, colon, reason, true_and, and_true]
  | selectMissing other =>
    cases selects
    have word := h.literal "undefined field: " (by decide +kernel)
    show Lacks c (pathPrefix path ++ "undefined field: " ++ label) ↔ _
    simp only [Text.lacks_append, start, word, true_and]
  | _ => cases selects

/-- Any other message is without the character. -/
theorem message_lacks {problem : Problem} (selects : problem.selected = none) : Lacks c (problem.message path) := by
  have start := pathPrefix_lacks h clear
  cases problem with
  | clash clash => exact Text.lacks_append.mpr ⟨start, clash.message_lacks h⟩
  | operand v =>
    show Lacks c (pathPrefix path ++ "invalid operand " ++ v.render ++ " for '-'")
    simp only [Text.lacks_append]
    exact ⟨⟨⟨start, h.literal _ (by decide +kernel)⟩, v.render_lacks h⟩, h.literal _ (by decide +kernel)⟩
  | notConcrete v =>
    show Lacks c (pathPrefix path ++ "incomplete value " ++ v.render)
    simp only [Text.lacks_append]
    exact ⟨⟨start, h.literal _ (by decide +kernel)⟩, v.render_lacks h⟩
  | undeclared => exact Text.lacks_append.mpr ⟨h.literal _ (by decide +kernel), clear⟩
  | unknownName name =>
    show Lacks c (pathPrefix path ++ "reference " ++ Text.shown name ++ " not found")
    simp only [Text.lacks_append]
    exact ⟨⟨⟨start, h.literal _ (by decide +kernel)⟩, h.shown name⟩, h.literal _ (by decide +kernel)⟩
  | imported package =>
    show Lacks c ("imported package " ++ Text.shown package ++ " is not supported")
    simp only [Text.lacks_append]
    exact ⟨⟨h.literal _ (by decide +kernel), h.shown package⟩, h.literal _ (by decide +kernel)⟩
  | cycle => exact Text.lacks_append.mpr ⟨clear, h.literal _ (by decide +kernel)⟩
  | tooDeep =>
    show Lacks c (pathPrefix path ++ "nesting too deep (more than " ++ toString evaluationLimit ++ " levels)")
    simp only [Text.lacks_append]
    exact ⟨⟨⟨start, h.literal _ (by decide +kernel)⟩, h.natural _⟩, h.literal _ (by decide +kernel)⟩
  | valueTooDeep =>
    show Lacks c (path ++ ": value nested too deep (more than " ++ toString evaluationLimit ++ " levels)")
    simp only [Text.lacks_append]
    exact ⟨⟨⟨clear, h.literal _ (by decide +kernel)⟩, h.natural _⟩, h.literal _ (by decide +kernel)⟩
  | _ => cases selects

end Message

end Problem

end StackLattice
