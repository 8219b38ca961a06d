import Mathlib.Logic.Relation
import StackLattice.Proofs.Evaluation.Element
import StackLattice.Proofs.Evaluation.Joined
import StackLattice.Proofs.Evaluation.SideBySide

/-!
Ways of writing a body are interchangeable: packages whose bodies are written in different ways come to the same, but
for places.
-/

namespace StackLattice

open Syntax (Expr Decl ParsedFile exists_of_any)

/-- Files with the same imports, whose bodies are written in different ways. -/
structure Syntax.ParsedFile.Recast (f f' : ParsedFile) : Prop where
  imports : f.ImportsAs f'
  decls : Decl.RecastAll f.tree.decls f'.tree.decls

namespace Package

open Evaluation

/-- Packages that say the same, in whatever way, come to the same. -/
theorem value_of_saysAs {files files' : List ParsedFile}
    (said : SaysAs (files.flatMap fun file => declsMentions [] file file.tree.decls)
      (files'.flatMap fun file => declsMentions [] file file.tree.decls)) :
    SameResult (Package.value files) (Package.value files') := by
  obtain ⟨R, linked, own⟩ := Scopes.linked_ofFiles said
  have start : StatesLinked (Scopes.ofFiles files).files (Scopes.ofFiles files').files [] [] R
      { scopes := .ofFiles files } { scopes := .ofFiles files' } :=
    ⟨linked, ⟨rfl, rfl⟩, ⟨[], rfl, .nil⟩, ⟨[], rfl, .nil⟩, List.forall_mem_nil _, List.Subset.refl _, rfl⟩
  have evaluated := evaluate_paired evaluationLimit (.body own) le_rfl start
  rw [Package.value, Package.value]
  generalize evaluate evaluationLimit (.body Scopes.root) { scopes := .ofFiles files } = x,
    evaluate evaluationLimit (.body Scopes.root) { scopes := .ofFiles files' } = y at evaluated
  cases evaluated with
  | both _ alike _ =>
    cases alike with
    | ok same => exact same
    | error fails => exact ⟨fails.kind, fails.message⟩
  | excused h => exact absurd rfl h.1
  | dead h => exact h.elim

theorem value_of_recast {files files' : List ParsedFile} (h : List.Forall₂ ParsedFile.Recast files files') :
    SameResult (Package.value files) (Package.value files') := by
  refine value_of_saysAs ?_
  induction h with
  | nil => exact .nil
  | cons first _ ih =>
    rw [List.flatMap_cons, List.flatMap_cons]
    exact (saysAs_declsMentions first.imports first.decls []).append ih

/-- Packages come to the same if their bodies are written in different ways: in any body, two fields of a label with a
    struct literal each, one field with both literals and one field with one literal of all the declarations, as long
    as no literal for the label stands between the fields; and an embedded literal and its declarations. The fields
    `a: b: v` and `a: { b: v }` are such ways as well. -/
theorem value_same_for_recast_bodies :
    (∀ files files' : List ParsedFile, Relation.EqvGen (List.Forall₂ ParsedFile.Recast) files files' →
      SameResult (Package.value files) (Package.value files')) ∧
    ∀ (revision : Syntax.Revision) (n n' k : Nat) (head ts us : List Syntax.Token) (inner d d' : Decl)
      (decls decls' : List Decl), Syntax.FieldHead revision head → Syntax.Grammar.FieldDecl revision k ts inner →
      Syntax.Braced ts us → Syntax.Grammar.FieldDecl revision n (head ++ ts) d →
      Syntax.Grammar.FieldDecl revision n' (head ++ us) d' → Decl.RecastAll decls decls' →
      Decl.RecastAll (d :: decls) (d' :: decls') := by
  refine ⟨fun files files' h => ?_, fun revision n n' k head ts us inner d d' decls decls' starts field braced h h' rest =>
    Syntax.recastAll_braced starts field braced h h' rest⟩
  induction h with
  | rel _ _ h => exact value_of_recast h
  | refl files => exact .refl _
  | symm _ _ _ ih => exact ih.symm
  | trans _ _ _ _ _ first second => exact first.trans second

/-- `a: {x: y}`, `b: a.x`, `a: {y: 1}` and `{c: b}` are `a: {x: y, y: 1}`, `b: a.x` and `c: b`. -/
theorem value_same_for_recast_bodies_apart :
    let apart := [regular "a" (bodyOf [regular "x" (nameOf "y")]), regular "b" (.select (nameOf "a") ⟨"x", default⟩),
      regular "a" (bodyOf [regular "y" (number 1)]), .embed (bodyOf [regular "c" (nameOf "b")])]
    let together := [regular "a" (bodyOf [regular "x" (nameOf "y"), regular "y" (number 1)]),
      regular "b" (.select (nameOf "a") ⟨"x", default⟩), regular "c" (nameOf "b")]
    let token (kind : Syntax.TokenKind) : Syntax.Token := ⟨kind, default, []⟩
    let head := [token (.ident "a"), token .colon]
    let field := [token (.ident "b"), token .colon, token (.int 1)]
    (Package.value [fileOf apart]).toBool = true ∧
    SameResult (Package.value [fileOf apart]) (Package.value [fileOf together]) ∧
    ∃ d d', Syntax.Grammar.FieldDecl .current 2 (head ++ field) d ∧
      Syntax.Grammar.FieldDecl .current 3 (head ++ ([token .leftBrace] ++ (field ++ []) ++ [token .rightBrace])) d' ∧
      Decl.RecastAll [d] [d'] := by
  intro apart together token head field
  obtain ⟨packages, fields⟩ := value_same_for_recast_bodies
  have recast : Decl.RecastAll apart together :=
    .joined [regular "b" (.select (nameOf "a") ⟨"x", default⟩)] rfl rfl (.merged default
      (.field _ _ _ _ _ _ _ _ _ (.refl _) (.field _ _ _ _ _ _ _ _ _ (.refl _) (.spliced _ (.refl _)))))
  refine ⟨by decide +kernel, ?_, ?_⟩
  · have related : List.Forall₂ ParsedFile.Recast [fileOf apart] [fileOf together] := .cons ⟨rfl, recast⟩ .nil
    -- With the files at hand, the packages would be evaluated.
    generalize fileOf apart = f, fileOf together = f' at related
    exact packages [f] [f'] (.rel _ _ related)
  · have int : Syntax.Grammar.Expression .current 1 ([token (.int 1)] ++ [] ++ [] ++ []) (.int 1 default) :=
      .disjunction (.unification (.postfixed (.leaf (.int rfl)) .done) .done) .done
    have inner : Syntax.Grammar.FieldDecl .current 1 field (regular "b" (number 1)) :=
      .field (.name rfl (by decide)) .required (.single rfl) (.expression int)
    have pieces : ∀ p ∈ [(⟨field, [], regular "b" (number 1)⟩ : Syntax.Grammar.Piece Decl)],
        Syntax.Grammar.Declaration .current 2 p.tokens p.tree := List.forall_mem_singleton.mpr (.field inner)
    have struct : Syntax.Grammar.Primary .current 2
        ([token .leftBrace] ++ (field ++ []) ++ [token .rightBrace]) (bodyOf [regular "b" (number 1)]) :=
      .struct rfl (List.forall_mem_nil _) pieces ⟨⟨List.forall_mem_nil _, fun _ => rfl⟩, trivial⟩ rfl
    have braced : Syntax.Grammar.Expression .current 3
        ([token .leftBrace] ++ (field ++ []) ++ [token .rightBrace] ++ [] ++ [] ++ []) (bodyOf [regular "b" (number 1)]) :=
      .disjunction (.unification (.postfixed struct .done) .done) .done
    have first : Syntax.Grammar.FieldDecl .current 2 (head ++ field) (regular "a" (bodyOf [regular "b" (number 1)])) :=
      .field (.name rfl (by decide)) .required (.single rfl) (.field inner)
    have last : Syntax.Grammar.FieldDecl .current 3 (head ++ ([token .leftBrace] ++ (field ++ []) ++ [token .rightBrace]))
        (regular "a" (bodyOf [regular "b" (number 1)])) :=
      .field (.name rfl (by decide)) .required (.single rfl) (.expression braced)
    refine ⟨_, _, first, last, fields .current 2 3 1 head field _ _ _ _ [] [] ?_ inner ?_ first last .nil⟩
    · exact .intro (.name rfl (by decide)) .required (.single rfl)
    · exact .intro rfl (List.forall_mem_nil _) (List.forall_mem_nil _) rfl

/-- The labels of the fields inside each field of a struct. -/
def innerLabels : Value → List (List String)
  | .struct fields => fields.map fun f =>
    match f.value with
    | .struct fields => fields.map (·.label)
    | _ => []
  | _ => []

/-- Between two literals of one label, another one puts its fields between theirs: `a: {x: 1} & {z: 3}` and
    `a: {y: 2}` do not come to what `a: {x: 1}`, `a: {y: 2}` and `a: {z: 3}` come to. -/
theorem literal_between_moves_fields :
    ∃ f f', ParsedFile.read "a.cue" "a: \x7bx: 1\x7d\na: \x7by: 2\x7d\na: \x7bz: 3\x7d" .current false = .ok f ∧
      ParsedFile.read "a.cue" "a: \x7bx: 1\x7d & \x7bz: 3\x7d\na: \x7by: 2\x7d" .current false = .ok f' ∧
      ¬ SameResult (Package.value [f]) (Package.value [f']) := by
  obtain ⟨f, read, order⟩ := exists_of_any
    (show (ParsedFile.read "a.cue" "a: \x7bx: 1\x7d\na: \x7by: 2\x7d\na: \x7bz: 3\x7d" .current false).toOption.any
      (fun f => (Package.value [f]).toOption.any (innerLabels ·.unplaced == [["x", "y", "z"]])) = true by decide +kernel)
  obtain ⟨f', read', order'⟩ := exists_of_any
    (show (ParsedFile.read "a.cue" "a: \x7bx: 1\x7d & \x7bz: 3\x7d\na: \x7by: 2\x7d" .current false).toOption.any
      (fun f => (Package.value [f]).toOption.any (innerLabels ·.unplaced == [["x", "z", "y"]])) = true by decide +kernel)
  refine ⟨f, f', read, read', fun same => ?_⟩
  obtain ⟨v, value, labels⟩ := exists_of_any order
  obtain ⟨v', value', labels'⟩ := exists_of_any order'
  rw [value, value'] at same
  rw [beq_iff_eq, show v.unplaced = v'.unplaced from same, eq_of_beq labels'] at labels
  exact absurd labels (by decide)

end Package

end StackLattice
