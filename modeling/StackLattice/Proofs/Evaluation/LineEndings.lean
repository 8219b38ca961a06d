import StackLattice.Proofs.Evaluation.Bodies
import StackLattice.Proofs.Evaluation.Uncommented
import StackLattice.Proofs.Syntax.Rebroken

/-!
Line endings do not matter to what a package comes to, except between the quotes of literals over several lines. There
the carriage return of a line that is not blank is part of the text.
-/

namespace StackLattice

open Syntax (File Import ParsedFile Revision Scanner Unfilled Together)
open Text (rebroken)

namespace Syntax

theorem Import.localName_bare (i : Import) : i.bare.localName = i.localName := by
  unfold Import.localName Import.bare
  cases i.localAs <;> rfl

theorem ParsedFile.importsAs_of_bare {f f' : ParsedFile} (same : f.tree.bare = f'.tree.bare) : f.ImportsAs f' := by
  have imports : f.tree.imports.map Import.bare = f'.tree.imports.map Import.bare := congrArg File.imports same
  have said (is : List Import) :
      (is.map Import.bare).map (fun i => (i.localName, i.path)) = is.map fun i => (i.localName, i.path) := by
    rw [List.map_map]
    exact List.map_congr_left fun i _ => congrArg (·, i.path) i.localName_bare
  rw [ParsedFile.ImportsAs, ← said, ← said f'.tree.imports, imports]

/-- Files whose trees differ in places only are written in the same way. -/
theorem ParsedFile.recast_of_bare {f f' : ParsedFile} (same : f.tree.bare = f'.tree.bare) : f.Recast f' := by
  refine ⟨importsAs_of_bare same, Decl.recastAll_of_bare ?_⟩
  rw [Decl.bareAll_eq_map, Decl.bareAll_eq_map]
  exact congrArg File.decls same

theorem ParsedFile.read_rebroken {path text : String} {keep : Bool} (returnless : '\r' ∉ text.toList)
    (unfilled : Unfilled text keep) (revision : Revision) :
    Option.Rel ParsedFile.Recast (ParsedFile.read path text revision keep).toOption
      (ParsedFile.read path (rebroken text) revision keep).toOption := by
  have trees := File.ofSource_rebroken path returnless unfilled revision
  rw [ParsedFile.read, ParsedFile.read]
  generalize File.ofSource ⟨path, text⟩ revision keep = r, File.ofSource ⟨path, rebroken text⟩ revision keep = r'
    at trees ⊢
  rcases r with _ | tree <;> rcases r' with _ | tree' <;> cases trees
  · exact .none
  · rename_i same
    exact .some (recast_of_bare same.1.symm)

end Syntax

namespace Package

theorem mapM_rel {ε α α' β β' : Type} {R : β → β' → Prop} {f : α → Except ε β} {f' : α' → Except ε β'} {as : List α}
    {as' : List α'} (h : List.Forall₂ (fun a a' => Option.Rel R (f a).toOption (f' a').toOption) as as') :
    Option.Rel (List.Forall₂ R) (as.mapM f).toOption (as'.mapM f').toOption := by
  induction h with
  | nil => exact .some .nil
  | @cons a a' as as' first _ ih =>
    rw [List.mapM_cons, List.mapM_cons]
    generalize f a = r, f' a' = r' at first ⊢
    generalize as.mapM f = rs, as'.mapM f' = rs' at ih ⊢
    rcases r with _ | b <;> rcases r' with _ | b' <;> cases first
    · exact .none
    rename_i same
    rcases rs with _ | bs <;> rcases rs' with _ | bs' <;> cases ih
    · exact .none
    rename_i others
    exact .some (.cons same others)

theorem read_rebroken {keep : Bool} {texts : List (String × String)}
    (plain : ∀ text ∈ texts, '\r' ∉ text.2.toList ∧ Unfilled text.2 keep) (revision : Revision) :
    Option.Rel (List.Forall₂ ParsedFile.Recast) (read revision keep texts).toOption
      (read revision keep (texts.map fun text => (text.1, rebroken text.2))).toOption := by
  refine mapM_rel ?_
  rw [List.forall₂_map_right_iff, List.forall₂_same]
  exact fun text member => ParsedFile.read_rebroken (plain text member).1 (plain text member).2 revision

/-- A text with line feeds alone and the same text with a carriage return in front of each. Both have tokens or neither
    has, and these are the same with the same comments, but for literals over several lines, whose lines keep their
    carriage returns unless they are blank. If there are no such lines, as in a text without three quotes in a row,
    then the texts have tokens of the same kinds and, at other places, the same trees, and packages of such texts come
    to the same. -/
theorem same_with_carriage_returns (revision : Revision) (keep : Bool) :
    (∀ text : String, '\r' ∉ text.toList →
      Together (Scanner.Reread text) (Scanner.ofString text keep).tokens
        (Scanner.ofString (rebroken text) keep).tokens) ∧
    (∀ text : String, ¬Syntax.quotes <:+: text.toList → Unfilled text keep) ∧
    (∀ path text, '\r' ∉ text.toList → Unfilled text keep →
      Together (fun tokens t tokens' t' => Syntax.Alike tokens tokens' ∧
          t'.comments.map (·.text) = t.comments.map (·.text))
        (Scanner.ofString text keep).tokens (Scanner.ofString (rebroken text) keep).tokens ∧
      Option.Rel (fun f f' => f'.bare = f.bare ∧ f'.comments.map (·.text) = f.comments.map (·.text))
        (File.ofSource ⟨path, text⟩ revision keep).toOption
        (File.ofSource ⟨path, rebroken text⟩ revision keep).toOption) ∧
    ∀ texts, (∀ text ∈ texts, '\r' ∉ text.2.toList ∧ Unfilled text.2 keep) →
      Option.Rel SameResult ((read revision keep texts).toOption.map value)
        ((read revision keep (texts.map fun text => (text.1, rebroken text.2))).toOption.map value) := by
  refine ⟨fun text returnless => Syntax.tokens_rebroken keep returnless,
    fun text unquoted => Syntax.unfilled_of_unquoted unquoted keep, fun path text returnless unfilled =>
    ⟨Syntax.kinds_rebroken returnless unfilled, File.ofSource_rebroken path returnless unfilled revision⟩,
    fun texts plain => ?_⟩
  have files := read_rebroken plain revision
  generalize (read revision keep texts).toOption = r,
    (read revision keep (texts.map fun text => (text.1, rebroken text.2))).toOption = r' at files ⊢
  cases files with
  | none => exact .none
  | some recast => exact .some (value_of_recast recast)

/-- The strings that the fields of a struct have for their values. -/
def stringFields : Value → List (String × String)
  | .struct fields => fields.filterMap fun f =>
    match f.value with
    | .string s => some (f.label, s)
    | _ => none
  | _ => []

/-- A literal over several lines is another text when its lines end in a carriage return. -/
theorem carriage_return_in_literal :
    let text := "a: \"\"\"\n  x\n  \"\"\""
    ∃ f f' v v', ParsedFile.read "a.cue" text .current false = .ok f ∧
      ParsedFile.read "a.cue" (rebroken text) .current false = .ok f' ∧ value [f] = .ok v ∧ value [f'] = .ok v' ∧
      stringFields v.unplaced = [("a", "x")] ∧ stringFields v'.unplaced = [("a", "x\r")] ∧
      ¬SameResult (value [f]) (value [f']) := by
  intro text
  obtain ⟨f, read, plain⟩ := Syntax.exists_of_any
    (show (ParsedFile.read "a.cue" text .current false).toOption.any
      (fun f => (value [f]).toOption.any (stringFields ·.unplaced == [("a", "x")])) = true by decide +kernel)
  obtain ⟨f', read', kept⟩ := Syntax.exists_of_any
    (show (ParsedFile.read "a.cue" (rebroken text) .current false).toOption.any
      (fun f => (value [f]).toOption.any (stringFields ·.unplaced == [("a", "x\r")])) = true by decide +kernel)
  obtain ⟨v, valued, strings⟩ := Syntax.exists_of_any plain
  obtain ⟨v', valued', strings'⟩ := Syntax.exists_of_any kept
  rw [beq_iff_eq] at strings strings'
  refine ⟨f, f', v, v', read, read', valued, valued', strings, strings', fun same => ?_⟩
  rw [valued, valued'] at same
  rw [show v.unplaced = v'.unplaced from same, strings'] at strings
  exact absurd strings (by decide)

end Package

end StackLattice
