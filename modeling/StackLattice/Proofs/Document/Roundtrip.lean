import StackLattice.Proofs.Document.Evaluated
import StackLattice.Proofs.Evaluation.Joined

/-!
The compact text of a document is a file of the language, and the document of that file is the one it was written for.
-/

namespace StackLattice

open Evaluation
open Syntax (ParsedFile Revision)

namespace Value

theorem toOption_bind {ε α β : Type} (r : Except ε α) (k : α → Except ε β) :
    (r >>= k).toOption = r.toOption.bind fun a => (k a).toOption := by
  cases r <;> rfl

mutual

/-- The places of fields do not show in the document, only in errors. -/
theorem documentAt_unplaced (v : Value) (path : String) (position position' : Option Position) (depth : Nat) :
    (v.unplaced.documentAt path position depth).toOption = (v.documentAt path position' depth).toOption := by
  by_cases shallow : ¬evaluationLimit < depth
  · match v with
    | list items =>
      rw [unplaced_list, documentAt, documentAt, if_neg shallow, if_neg shallow, toOption_bind, toOption_bind,
        documentItems_unplaced items 0 path position position' depth]
    | struct fields =>
      rw [unplaced_struct, documentAt, documentAt, if_neg shallow, if_neg shallow, toOption_bind, toOption_bind,
        documentFields_unplaced fields path position position' depth]
    | disjunction alternatives =>
      have resolved := resolved_unplaced (disjunction alternatives)
      rw [unplaced_disjunction] at resolved ⊢
      rw [documentAt_disjunction shallow, documentAt_disjunction shallow, resolved]
      match found : (disjunction alternatives).resolved with
      | none => rfl
      | some v => exact documentAt_unplaced v path position position' (depth + 1)
    | float x =>
      have kept : (float x).unplaced = float x := rfl
      rw [kept, documentAt, documentAt, if_neg shallow, if_neg shallow]
      split <;> rfl
    | top | kind _ =>
      simp only [unplaced, documentAt, if_neg shallow]
      rfl
    | null | bool _ | int _ | string _ => simp only [unplaced, documentAt, if_neg shallow]
  · rw [documentAt.eq_def, documentAt.eq_def, if_pos (not_not.mp shallow), if_pos (not_not.mp shallow)]
    rfl
termination_by sizeOf v
decreasing_by
  · simp only [list.sizeOf_spec]; omega
  · simp only [struct.sizeOf_spec]; omega
  · exact sizeOf_resolved_lt found

theorem documentItems_unplaced (items : List Value) (index : Nat) (path : String) (position position' : Option Position)
    (depth : Nat) : (documentItems (items.map unplaced) index path position depth).toOption =
      (documentItems items index path position' depth).toOption := by
  match items with
  | [] => rw [List.map_nil, documentItems, documentItems]
  | item :: items =>
    rw [List.map_cons, documentItems, documentItems, toOption_bind, toOption_bind, documentAt_unplaced item _ _ position']
    simp only [toOption_bind, documentItems_unplaced items _ path position position' depth]
termination_by sizeOf items

theorem documentFields_unplaced (fields : List (Field Value)) (path : String) (position position' : Option Position)
    (depth : Nat) : (documentFields (fields.map Field.unplaced) path position depth).toOption =
      (documentFields fields path position' depth).toOption := by
  match fields with
  | [] => rw [List.map_nil, documentFields, documentFields]
  | f :: fields =>
    have exported : f.unplaced.isExported = f.isExported := rfl
    have value : f.unplaced.value = f.value.unplaced := rfl
    have label : f.unplaced.label = f.label := rfl
    rw [List.map_cons, documentFields, documentFields, exported, value, label]
    split
    · rw [toOption_bind, toOption_bind, documentAt_unplaced f.value _ _ (f.position.or position')]
      simp only [toOption_bind, documentFields_unplaced fields path position position' depth]
    · rw [documentFields_unplaced fields path position position' depth]
termination_by sizeOf fields
decreasing_by
  all_goals have := sizeOf_value_lt f
  all_goals simp only [List.cons.sizeOf_spec]; omega

end

theorem document_of_unplaced_eq {v v' : Value} (same : v.unplaced = v'.unplaced) {d : Document}
    (h : v.document = .ok d) : v'.document = .ok d := by
  have left : (v.unplaced.documentAt "" none 0).toOption = v.document.toOption := documentAt_unplaced v _ _ _ _
  have right : (v'.unplaced.documentAt "" none 0).toOption = v'.document.toOption := documentAt_unplaced v' _ _ _ _
  rw [same, right, h] at left
  cases exported : v'.document with
  | error e =>
    rw [exported] at left
    cases left
  | ok d' =>
    rw [exported] at left
    cases left
    rfl

end Value

namespace Document

/-- A file that embeds the expression of a document has it as its value. -/
theorem Plain.value_embedded {n : Nat} {d : Document} (h : Plain n d) (enough : 2 * n + 2 < evaluationLimit)
    {file : ParsedFile} (decls : file.tree.decls = [.embed d.expr]) :
    Package.value [file] = .ok (d.value (file.source.position default)) := by
  refine value_of_meaning ?_
  have root : rootEnv [file] = [⟨⟨"", embedMentions [] file d.expr⟩, []⟩] := by
    rw [rootEnv, List.flatMap_singleton, decls, declsMentions, declsMentions, List.append_nil, declMentions]
  rw [root]
  cases literal : d.isObject with
  | true =>
    -- The fields of the object are those of the package.
    obtain ⟨entries, rfl⟩ := eq_object literal
    exact h.means.body rfl (by omega) (fun t => rfl) []
  | false =>
    obtain ⟨levels, limit⟩ : ∃ levels, evaluationLimit = levels + 1 := ⟨evaluationLimit - 1, rfl⟩
    rw [embedMentions_expr file literal, limit]
    refine (Meaning.bind_of_ok (h.means.expr (by omega) _)).trans ?_
    exact (Meaning.bind_of_ok (unifyAt_top _ _ _)).trans rfl

/-- The text of a document is accepted, and evaluated and exported to the document. -/
theorem compact_roundtrip {j : Document} (plain : Plain 100 j) (path : String) (revision : Revision) (keep : Bool) :
    ∃ f, ParsedFile.read path j.compact revision keep = .ok f ∧ Package.document [f] = .ok j := by
  obtain ⟨f, accepted, imports, decls⟩ := plain.read (by decide) path revision keep
  refine ⟨f, accepted, ?_⟩
  let embedded : ParsedFile := ⟨f.source, { f.tree with decls := [.embed j.expr] }⟩
  have value : Package.value [embedded] = .ok (j.value (embedded.source.position default)) :=
    plain.value_embedded (by decide) rfl
  have exported : (j.value (embedded.source.position default)).document = .ok j := plain.documentAt (by decide) "" none
  -- The file that was read has the declarations of the other one, but at places of its own.
  have same : Package.SameResult (Package.value [embedded]) (Package.value [f]) := by
    refine Package.value_of_same_declarations ?_ ?_ ?_
    · simp [embedded, imports]
    · simp [imports]
    · simp [embedded, decls]
  rw [value] at same
  cases evaluated : Package.value [f] with
  | error e =>
    rw [evaluated] at same
    cases same
  | ok v =>
    rw [evaluated] at same
    rw [Package.document, evaluated]
    exact Value.document_of_unplaced_eq same exported

/-- Keys that would be kinds, hidden fields or definitions if they were not quoted, and values of all types. -/
theorem compact_roundtrip_keys :
    let j : Document := object [("", null), ("_", list [int (-9223372036854775807), object [], list [bool false]]),
      ("#x", string "\"\\\x00\x1f/é"), ("int", object [("_", bool true), ("a\"b\nc", int 9223372036854775807)])]
    Plain 100 j ∧ ∃ f, ParsedFile.read "a.cue" j.compact .current true = .ok f ∧ Package.document [f] = .ok j := by
  intro j
  have plain : Plain 100 j := by
    refine .object (by decide) (by decide) ?_
    simp only [List.forall_mem_cons, List.not_mem_nil, false_implies, implies_true, and_true]
    refine ⟨.null, .list ?_, .string (by decide), .object (by decide) (by decide) ?_⟩
    · simp only [List.forall_mem_cons, List.not_mem_nil, false_implies, implies_true, and_true]
      refine ⟨.int (by decide), .object .nil (by simp) (by simp), .list ?_⟩
      simpa using .bool false
    · simpa using ⟨.bool true, .int (by decide)⟩
  exact ⟨plain, compact_roundtrip plain "a.cue" .current true⟩

/-- A backspace in a key is written with an escape that the language does not have. -/
theorem compact_rejected_backspace :
    (object [("\x08", int 1)]).compact = "\x7b\"\\b\":1\x7d" ∧
      ∀ revision keep f, ParsedFile.read "a.cue" (object [("\x08", int 1)]).compact revision keep ≠ .ok f := by
  refine ⟨by decide +kernel, fun revision keep f accepted => ?_⟩
  have rejected : (ParsedFile.read "a.cue" (object [("\x08", int 1)]).compact revision keep).toBool = false := by
    cases revision <;> cases keep <;> decide +kernel
  rw [accepted] at rejected
  cases rejected

end Document

end StackLattice
