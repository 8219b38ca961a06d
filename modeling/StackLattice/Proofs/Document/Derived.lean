import StackLattice.Proofs.Document.Plain
import StackLattice.Proofs.Syntax.Accepted
import StackLattice.Proofs.Syntax.Bare

/-!
The tree of the text of a document. A list or an object takes no more than two of the levels that the parser has.
-/

namespace StackLattice

open Syntax (Alike Decl Expr Import ParsedFile Revision Token TokenKind nestingLimit)
open Syntax.Grammar (Declaration Expression FieldDecl Piece Primary Separated Unary Unification trees written)

namespace Document

mutual

/-- The expression that the text of a document is read as. -/
def expr : Document → Expr
  | null => .null default
  | bool b => .bool b default
  | int i => if i < 0 then .unary .negate (.int i.natAbs default) default else .int i.natAbs default
  | float x => .float x default
  | string s => .string s default
  | list items => .list (exprs items) default
  | object entries => .struct (decls entries) default

def exprs : List Document → List Expr
  | [] => []
  | d :: ds => d.expr :: exprs ds

/-- The fields of an object; no key makes a field anything else than a regular one. -/
def decls : List (String × Document) → List Decl
  | [] => []
  | (key, d) :: ds => .field ⟨key, .regular, default⟩ false [] default d.expr :: decls ds

end

def decl (e : String × Document) : Decl := .field ⟨e.1, .regular, default⟩ false [] default e.2.expr

theorem exprs_eq_map (items : List Document) : exprs items = items.map expr := by
  induction items with
  | nil => rfl
  | cons d ds ih => rw [exprs, ih, List.map_cons]

theorem decls_eq_map (entries : List (String × Document)) : decls entries = entries.map decl := by
  induction entries with
  | nil => rfl
  | cons e entries ih => rw [decls, ih, List.map_cons, decl]

section Pieces

variable {α : Type}

/-- Elements with a comma behind each but the last. -/
def pieces (comma : Token) : List (List Token × α) → List (Piece α)
  | [] => []
  | [(ts, tree)] => [⟨ts, [], tree⟩]
  | (ts, tree) :: x :: xs => ⟨ts, [comma], tree⟩ :: pieces comma (x :: xs)

variable {comma : Token}

theorem written_pieces (xs : List (List Token × α)) :
    written (pieces comma xs) = [comma].intercalate (xs.map (·.1)) := by
  fun_induction pieces comma xs with
  | case1 => rfl
  | case2 ts tree => simp [written]
  | case3 ts tree x xs ih =>
    rw [Syntax.Grammar.written_cons, ih]
    simp [List.intercalate]

theorem trees_pieces (xs : List (List Token × α)) : trees (pieces comma xs) = xs.map (·.2) := by
  fun_induction pieces comma xs with
  | case1 | case2 => rfl
  | case3 ts tree x xs ih => exact congrArg (tree :: ·) ih

theorem forall_mem_pieces {derives : List Token → α → Prop} {xs : List (List Token × α)}
    (each : ∀ x ∈ xs, derives x.1 x.2) : ∀ p ∈ pieces comma xs, derives p.tokens p.tree := by
  fun_induction pieces comma xs with
  | case1 => exact List.forall_mem_nil _
  | case2 ts tree => simpa using each
  | case3 ts tree x xs ih =>
    rw [List.forall_mem_cons] at each ⊢
    exact ⟨each.1, ih each.2⟩

theorem separated_pieces (isComma : comma.kind.isComma = true) (xs : List (List Token × α)) :
    Separated [] (pieces comma xs) := by
  fun_induction pieces comma xs with
  | case1 => trivial
  | case2 ts tree => exact ⟨⟨List.forall_mem_nil _, fun _ => rfl⟩, trivial⟩
  | case3 ts tree x xs ih =>
    exact ⟨⟨List.forall_mem_singleton.mpr isComma, fun none => absurd none (List.cons_ne_nil _ _)⟩, ih⟩

end Pieces

/-- A token at no place. -/
def token (kind : TokenKind) : Token := ⟨kind, default, []⟩

def tokens (d : Document) : List Token := d.kinds.map token

theorem map_intercalate {α β : Type} (f : α → β) (sep : List α) (xs : List (List α)) :
    (sep.intercalate xs).map f = (sep.map f).intercalate (xs.map (List.map f)) := by
  induction xs with
  | nil => rfl
  | cons x xs ih => cases xs <;> simp_all [List.intercalate]

theorem tokens_list (items : List Document) :
    (list items).tokens = token .leftBracket :: [] ++
      written (pieces (token (.comma false)) (items.map fun d => (d.tokens, d.expr))) ++ [token .rightBracket] := by
  rw [tokens, kinds, kindsOfItems_eq_map, written_pieces, List.map_append, List.map_cons, map_intercalate, List.map_map,
    List.map_map]
  rfl

def entryTokens (e : String × Document) : List Token := token (.string e.1) :: [] ++ token .colon :: e.2.tokens

theorem tokens_object (entries : List (String × Document)) :
    (object entries).tokens = token .leftBrace :: [] ++
      written (pieces (token (.comma false)) (entries.map fun e => (entryTokens e, decl e))) ++ [token .rightBrace] := by
  rw [tokens, kinds, kindsOfEntries_eq_map, written_pieces, List.map_append, List.map_cons, map_intercalate, List.map_map,
    List.map_map]
  rfl

section Trees

variable {revision : Revision} {n : Nat} {ts : List Token} {e : Expr}

theorem expression_of_unary (h : Unary revision n ts e) : Expression revision (n + 1) ts e := by
  have unification := Unification.unification h .done
  rw [List.append_nil] at unification
  have whole := Expression.disjunction unification .done
  rwa [List.append_nil] at whole

theorem expression_of_primary (h : Primary revision n ts e) : Expression revision (n + 1) ts e := by
  have unary := Unary.postfixed h .done
  rw [List.append_nil] at unary
  exact expression_of_unary unary

theorem span_expr (d : Document) : d.expr.span = default := by
  cases d with
  | int i =>
    rw [expr]
    split <;> rfl
  | _ => rfl

theorem declaration_of_entry {e : String × Document} (value : Expression revision n e.2.tokens e.2.expr) :
    Declaration revision (n + 1) (entryTokens e) (decl e) := by
  have field : FieldDecl revision n (entryTokens e)
      (.field ⟨e.1, .regular, default⟩ false [] ((default : Span).merge e.2.expr.span) e.2.expr) :=
    .field (.string rfl) .required (.single rfl) (.expression value)
  rw [span_expr] at field
  exact .field field

theorem Plain.derived {d : Document} (h : Plain n d) {levels : Nat} (enough : 2 * n ≤ levels) :
    Expression revision (levels + 2) d.tokens d.expr := by
  induction h generalizing levels with
  | null => exact expression_of_primary (.leaf (.null rfl))
  | bool b =>
    cases b with
    | true => exact expression_of_primary (.leaf (.true rfl))
    | false => exact expression_of_primary (.leaf (.false rfl))
  | string => exact expression_of_primary (.leaf (.string rfl))
  | @int n i _ =>
    have digits : Primary revision levels [token (.int i.natAbs)] (.int i.natAbs default) := .leaf (.int rfl)
    rw [tokens, kinds, expr]
    split
    · have negated : Unary revision (levels + 1) [token .minus, token (.int i.natAbs)]
          (.unary .negate (.int i.natAbs default) default) := .negated rfl (.postfixed digits .done)
      exact expression_of_unary negated
    · exact expression_of_primary (.leaf (.int rfl))
  | @list n items _ each =>
    obtain ⟨levels, rfl⟩ : ∃ less, levels = less + 1 := ⟨levels - 1, by omega⟩
    have inside : ∀ p ∈ pieces (token (.comma false)) (items.map fun d => (d.tokens, d.expr)),
        Expression revision (levels + 2) p.tokens p.tree :=
      forall_mem_pieces (List.forall_mem_map.mpr fun d member => each d member (by omega))
    have trees : trees (pieces (token (.comma false)) (items.map fun d => (d.tokens, d.expr))) = exprs items := by
      rw [trees_pieces, exprs_eq_map, List.map_map]
      rfl
    have primary : Primary revision (levels + 2) (Document.list items).tokens (Document.list items).expr := by
      rw [tokens_list, expr, ← trees]
      exact .list rfl (List.forall_mem_nil _) inside (separated_pieces rfl _) rfl
    exact expression_of_primary primary
  | @object n entries _ _ _ each =>
    obtain ⟨levels, rfl⟩ : ∃ less, levels = less + 2 := ⟨levels - 2, by omega⟩
    have inside : ∀ p ∈ pieces (token (.comma false)) (entries.map fun e => (entryTokens e, decl e)),
        Declaration revision (levels + 3) p.tokens p.tree :=
      forall_mem_pieces (List.forall_mem_map.mpr fun e member => declaration_of_entry (each e member (by omega)))
    have trees : trees (pieces (token (.comma false)) (entries.map fun e => (entryTokens e, decl e))) = decls entries := by
      rw [trees_pieces, decls_eq_map, List.map_map]
      rfl
    have primary : Primary revision (levels + 3) (Document.object entries).tokens (Document.object entries).expr := by
      rw [tokens_object, expr, ← trees]
      exact .struct rfl (List.forall_mem_nil _) inside (separated_pieces rfl _) rfl
    exact expression_of_primary primary

theorem exists_file {d : Document} (value : Expression revision n d.tokens d.expr) :
    ∃ f, Syntax.Grammar.File revision n (d.tokens ++ [token (.comma true), token .eof]) f ∧ f.imports = [] ∧
      f.decls = [.embed d.expr] := by
  let none : List (Piece (List Import)) := []
  let pieces : List (Piece Decl) := [⟨d.tokens, [token (.comma true)], .embed d.expr⟩]
  have derived : Syntax.Grammar.File revision n ([] ++ ([] ++ written none ++ written pieces) ++ [token .eof])
      ⟨.none, [], [.embed d.expr], _, []⟩ :=
    .file (List.forall_mem_nil _) .absent (List.forall_mem_nil _) trivial
      (List.forall_mem_singleton.mpr (.embed value))
      ⟨⟨List.forall_mem_singleton.mpr rfl, fun none => absurd none (List.cons_ne_nil _ _)⟩, trivial⟩ rfl
  have tokens : [] ++ ([] ++ written none ++ written pieces) ++ [token .eof] =
      d.tokens ++ [token (.comma true), token .eof] := by simp [written, none, pieces]
  exact ⟨_, tokens ▸ derived, rfl, rfl⟩

/-- The text of a document is accepted, as the embedding of its expression. -/
theorem Plain.read {d : Document} (h : Plain n d) (enough : 2 * n + 2 ≤ nestingLimit) (path : String)
    (revision : Revision) (keep : Bool) :
    ∃ f, ParsedFile.read path d.compact revision keep = .ok f ∧ f.tree.imports = [] ∧
      f.tree.decls.map Decl.bare = [Decl.bare (.embed d.expr)] := by
  have lexes := h.readAs false [] stops_nil
  rw [List.append_nil] at lexes
  obtain ⟨ts, scanner, scanned, kinds⟩ := lexes.reads (Syntax.Scanner.ofString d.compact keep) rfl rfl
  obtain ⟨levels, limit⟩ : ∃ levels, nestingLimit = levels + 2 := ⟨nestingLimit - 2, rfl⟩
  have value : Expression revision nestingLimit d.tokens d.expr := by
    rw [limit]
    exact h.derived (by omega)
  obtain ⟨f, derived, imports, decls⟩ := exists_file value
  have alike : Alike (d.tokens ++ [token (.comma true), token .eof]) ts := by
    rw [Alike, kinds]
    simp [tokens, token, Syntax.ending, Function.comp_def]
  obtain ⟨tree, derived, same⟩ := derived.alike alike
  refine ⟨⟨⟨path, d.compact⟩, _⟩,
    Syntax.ParsedFile.read_eq_ok.mpr ⟨Syntax.File.ofSource_of_derived scanned derived, rfl⟩, ?_, ?_⟩
  · have none := congrArg Syntax.File.imports same
    rw [Syntax.File.bare, imports] at none
    exact List.map_eq_nil_iff.mp none.symm
  · have one := congrArg Syntax.File.decls same
    rw [Syntax.File.bare, decls] at one
    exact one.symm

end Trees

end Document

end StackLattice
