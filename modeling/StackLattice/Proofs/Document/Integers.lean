import Mathlib.Data.List.TakeWhile
import StackLattice.Proofs.Decimal.Digits
import StackLattice.Proofs.Document.Evaluated
import StackLattice.Proofs.Evaluation.Agreement
import StackLattice.Proofs.Syntax.Accepted

/-!
Integers that a field is given. The magnitude is read first and has to fit alone, and each sign in front of it is an
operator around what follows. So the least integer of 64 bits cannot be written, and every other one can.
-/

namespace StackLattice.Document

open Evaluation
open Syntax (Decl Expr Fault Lexes ParsedFile Revision Scanner Takes Token TokenKind nestingLimit)
open Syntax.Grammar (Declaration Expression FieldDecl Piece Primary Unary written)
open Text (Input isBlank isAsciiDigit)

/-- Digits with separators anywhere behind the first of them, and the number that the digits are the numeral of. -/
structure IntegerLiteral (cs : List Char) (m : Nat) : Prop where
  leading : ∃ c rest, cs = c :: rest ∧ isAsciiDigit c = true
  each : ∀ c ∈ cs, isAsciiDigit c = true ∨ c = '_'
  numeral : Decimal.Numeral 10 (cs.filter (· ≠ '_')) m

/-- The text of an integer: a literal behind minus signs. -/
def signed (signs : Nat) (literal : List Char) : String := String.ofList (List.replicate signs '-' ++ literal)

section Literals

variable {cs : List Char} {m : Nat} {i : Input}

theorem integerLiteral_toDigits (n : Nat) : IntegerLiteral (Nat.toDigits 10 n) n := by
  have plain : (Nat.toDigits 10 n).filter (fun c => decide (c ≠ '_')) = Nat.toDigits 10 n := by
    refine List.filter_eq_self.mpr fun c member => decide_eq_true ?_
    rintro rfl
    cases isAsciiDigit_of_mem member
  obtain ⟨c, rest, first⟩ := List.exists_cons_of_ne_nil (Nat.toDigits_ne_nil (n := n) (b := 10))
  refine ⟨⟨c, rest, first, isAsciiDigit_of_mem (by rw [first]; exact List.mem_cons_self)⟩,
    fun c member => .inl (isAsciiDigit_of_mem member), ?_⟩
  rw [plain]
  exact (Decimal.natural_eq_some_iff (by decide)).mp (Decimal.natural_toDigits (by decide) (by decide) n)

theorem IntegerLiteral.naturalBelow (h : IntegerLiteral cs m) (bound : Nat) :
    Decimal.naturalBelow 10 bound (cs.filter (· ≠ '_')) = if m < bound then some m else none := by
  have unsigned {rest : List Char} : cs.filter (· ≠ '_') ≠ '+' :: rest := fun sign => by
    have member : '+' ∈ cs.filter (· ≠ '_') := by rw [sign]; exact List.mem_cons_self
    rcases h.each '+' (List.mem_of_mem_filter member) with digit | separator
    · cases digit
    · cases separator
  have read := (Decimal.natural_eq_some_iff (by decide)).mpr h.numeral
  unfold Decimal.naturalBelow
  dsimp only
  split
  · rename_i sign
    exact absurd sign unsigned
  · rw [read, Option.filter_some]
    simp only [decide_eq_true_eq]

/-- At the end of a text, a literal is read as its number or is out of range. -/
theorem IntegerLiteral.lexeme (h : IntegerLiteral cs m) (here : i.rest = cs) : ∃ left, left.rest = [] ∧
    Syntax.lexeme i =
      (if m < 2 ^ 63 then .ok (.int m) else .error ⟨.integerRange, ⟨i.offset, left.offset⟩⟩, left) := by
  obtain ⟨c, rest, first, digit⟩ := h.leading
  have all : ∀ c ∈ cs, Syntax.isNumberChar c = true := by
    intro c member
    rcases h.each c member with digit | rfl
    · rw [Syntax.isNumberChar, digit, Bool.true_or]
    · rfl
  have whole : cs.takeWhile Syntax.isNumberChar = cs := List.takeWhile_eq_self_iff.mpr all
  have none : cs.dropWhile Syntax.isNumberChar = [] := List.dropWhile_eq_nil_iff.mpr all
  refine ⟨i.skipMany cs.length, by rw [Input.skipMany_rest, here, List.drop_length], ?_⟩
  rw [Syntax.lexeme_number (here.trans first) digit]
  unfold Syntax.number
  simp only [here, whole, none, Syntax.pointPart, Syntax.exponentPart, List.length_nil, List.drop_zero,
    List.append_nil, List.isEmpty_nil, Bool.and_true, if_true, h.naturalBelow, Nat.shiftLeft_eq, Nat.one_mul]
  by_cases fits : m < 2 ^ 63
  · simp only [if_pos fits]
  · simp only [if_neg fits]

end Literals

section Reading

variable {cs : List Char} {m : Nat}

/-- The label, the colon and the signs are read whatever follows them. -/
theorem lexes_signs (k : Nat) (cs : List Char) :
    ∃ q, Lexes false ('x' :: ':' :: ' ' :: (List.replicate k '-' ++ cs))
      (.ident "x" :: .colon :: List.replicate k .minus) q cs := by
  have name : Takes ('x' :: ':' :: ' ' :: (List.replicate k '-' ++ cs)) (.ident "x")
      (':' :: ' ' :: (List.replicate k '-' ++ cs)) := by
    intro i here
    have body : i.rest.takeWhile Syntax.isNameChar = ['x'] := by
      rw [here, List.takeWhile_cons_of_pos (by decide +kernel), List.takeWhile_cons_of_neg (by decide +kernel)]
    refine ⟨i.skipMany 1, ?_, by rw [Input.skipMany_rest, here]; rfl⟩
    rw [Syntax.lexeme_name here (by decide +kernel) (by decide), Syntax.name_plain (by rw [here]; simp), body]
    rfl
  have colon : Takes (':' :: ' ' :: (List.replicate k '-' ++ cs)) .colon (' ' :: (List.replicate k '-' ++ cs)) :=
    takes_colon (by simp [List.cons_prefix_cons])
  have signs (k : Nat) (p : Bool) : ∃ q, Lexes p (List.replicate k '-' ++ cs) (List.replicate k .minus) q cs := by
    induction k generalizing p with
    | zero => exact ⟨p, .done⟩
    | succ k ih =>
      obtain ⟨q, rest⟩ := ih false
      exact ⟨q, .token (by decide +kernel) (takes_punctuation rfl _) rest⟩
  obtain ⟨q, rest⟩ := signs k false
  exact ⟨q, .token (by decide +kernel) name (.token (by decide +kernel) colon
    (.blank (by decide +kernel) (by decide) rest))⟩

/-- What a field is given is read as the signs and the number, if the number fits. -/
theorem IntegerLiteral.reads (h : IntegerLiteral cs m) (fits : m < 2 ^ 63) (k : Nat) {s : Scanner}
    (here : s.input.rest = 'x' :: ':' :: ' ' :: (List.replicate k '-' ++ cs)) (pending : s.pendingComma = false) :
    s.Reads (.ident "x" :: .colon :: (List.replicate k .minus ++ [.int m, .comma true, .eof])) := by
  obtain ⟨c, rest, rfl, digit⟩ := h.leading
  have takes : Takes (c :: rest) (.int m) [] := by
    intro i here
    obtain ⟨left, ends, read⟩ := h.lexeme here
    exact ⟨left, by rw [read, if_pos fits], ends⟩
  obtain ⟨q, signs⟩ := lexes_signs k (c :: rest)
  have whole := (signs.append (.token (isBlank_of_isAsciiDigit digit) takes .done)).reads s here pending
  simpa [Syntax.ending, TokenKind.endsLine] using whole

/-- Otherwise nothing is read, whatever the signs. -/
theorem IntegerLiteral.fails (h : IntegerLiteral cs m) (large : ¬m < 2 ^ 63) (k : Nat) {s : Scanner}
    (here : s.input.rest = 'x' :: ':' :: ' ' :: (List.replicate k '-' ++ cs)) (pending : s.pendingComma = false) :
    s.Fails .integerRange := by
  obtain ⟨c, rest, rfl, digit⟩ := h.leading
  obtain ⟨q, signs⟩ := lexes_signs k (c :: rest)
  refine signs.fails (fun t here => ?_) s here pending
  obtain ⟨left, -, read⟩ := h.lexeme here
  rw [if_neg large] at read
  refine .of_lexeme here (isBlank_of_isAsciiDigit digit) ?_ read
  rintro rfl
  cases digit

end Reading

/-- An expression that negates a number some times over. -/
inductive Negates (m : Nat) : Nat → Expr → Prop
  | literal {span : Span} : Negates m 0 (.int m span)
  | negated {k : Nat} {e : Expr} {span : Span} : Negates m k e → Negates m (k + 1) (.unary .negate e span)

section Trees

variable {revision : Revision} {m k n : Nat}

theorem exists_unary (revision : Revision) (n : Nat) {ts : List Token}
    (kinds : ts.map (·.kind) = List.replicate k .minus ++ [.int m]) :
    ∃ e, Unary revision (n + k) ts e ∧ Negates m k e := by
  induction k generalizing ts with
  | zero =>
    obtain ⟨t, rfl, is⟩ := List.map_eq_singleton_iff.mp kinds
    have primary : Primary revision n [t] (.int m t.span) := .leaf (.int is)
    exact ⟨_, .postfixed primary .done, .literal⟩
  | succ k ih =>
    obtain ⟨op, ts, rfl, isMinus, rest⟩ := List.map_eq_cons_iff.mp kinds
    obtain ⟨e, derived, negates⟩ := ih rest
    exact ⟨_, .negated isMinus derived, .negated negates⟩

/-- The tree of a field that is given an integer. -/
def IsField (m k : Nat) (decl : Decl) : Prop :=
  ∃ span doc whole value, decl = .field ⟨"x", .regular, span⟩ false doc whole value ∧ Negates m k value

theorem exists_declaration (revision : Revision) (n : Nat) {ts : List Token}
    (kinds : ts.map (·.kind) = .ident "x" :: .colon :: (List.replicate k .minus ++ [.int m])) :
    ∃ decl, Declaration revision (n + k + 2) ts decl ∧ IsField m k decl := by
  obtain ⟨name, ts, rfl, isName, rest⟩ := List.map_eq_cons_iff.mp kinds
  obtain ⟨colon, ts, rfl, isColon, rest⟩ := List.map_eq_cons_iff.mp rest
  obtain ⟨value, derived, negates⟩ := exists_unary revision n rest
  have label : Syntax.Grammar.Labels name ⟨"x", Syntax.labelKind "x", name.span⟩ := .name isName (by decide)
  have field : FieldDecl revision (n + k + 1) (name :: [] ++ colon :: ts) _ :=
    .field label .required (.single isColon) (.expression (expression_of_unary derived))
  exact ⟨_, .field field, _, _, _, value, rfl, negates⟩

/-- A file of one declaration. -/
theorem exists_file_of_declaration {ts : List Token} {decl : Decl} {comma finish : Token}
    (derived : Declaration revision n ts decl) (isComma : comma.kind.isComma = true) (eof : finish.kind = .eof) :
    ∃ f, Syntax.Grammar.File revision n (ts ++ [comma, finish]) f ∧ f.decls = [decl] := by
  let none : List (Piece (List Syntax.Import)) := []
  let pieces : List (Piece Decl) := [⟨ts, [comma], decl⟩]
  have whole : Syntax.Grammar.File revision n ([] ++ ([] ++ written none ++ written pieces) ++ [finish])
      ⟨.none, [], [decl], _, []⟩ :=
    .file (List.forall_mem_nil _) .absent (List.forall_mem_nil _) trivial (List.forall_mem_singleton.mpr derived)
      ⟨⟨List.forall_mem_singleton.mpr isComma, fun none => absurd none (List.cons_ne_nil _ _)⟩, trivial⟩ eof
  have tokens : [] ++ ([] ++ written none ++ written pieces) ++ [finish] = ts ++ [comma, finish] := by
    simp [written, none, pieces]
  exact ⟨_, tokens ▸ whole, rfl⟩

end Trees

section Values

open Closure (Site meaning)

variable {m k : Nat} {e : Expr}

theorem natAbs_signed (m k : Nat) : ((-1) ^ k * (m : Int)).natAbs = m := by
  rw [Int.natAbs_mul, Int.natAbs_pow, Int.natAbs_natCast, Int.natAbs_neg, Int.natAbs_one, Nat.one_pow, Nat.one_mul]

/-- Each level negates what the level below it comes to, which is never the least integer. -/
theorem Negates.meaning (h : Negates m k e) (fits : m < 2 ^ 63) {fuel : Nat} (enough : k < fuel) (site : Site) :
    meaning fuel (.expr e site) = some (.ok (.int ((-1) ^ k * m))) := by
  induction h generalizing fuel with
  | literal =>
    obtain ⟨fuel, rfl⟩ := Nat.exists_eq_succ_of_ne_zero (Nat.ne_zero_of_lt enough)
    rw [Int.pow_zero, Int.one_mul]
    rfl
  | @negated k e span _ ih =>
    obtain ⟨fuel, rfl⟩ := Nat.exists_eq_succ_of_ne_zero (Nat.ne_zero_of_lt enough)
    have other : (-1) ^ k * (m : Int) ≠ -0x8000000000000000 := fun least => by
      have magnitude := natAbs_signed m k
      rw [least] at magnitude
      omega
    refine (Meaning.bind_of_ok (ih (Nat.lt_of_succ_lt_succ enough))).trans ?_
    rw [negate, if_neg other, Int.pow_succ, Int.mul_neg_one, Int.neg_mul]
    rfl

theorem Negates.valueMentions (h : Negates m k e) (file : ParsedFile) (trail : Trail) (key : String) :
    valueMentions trail key file e = [(trail, .conjunct key e file)] := by
  cases h <;> rw [Evaluation.valueMentions] <;> simp

/-- A package of one field that is given an integer. -/
theorem meaning_field {file : ParsedFile} {decl : Decl} (is : file.tree.decls = [decl]) (field : IsField m k decl)
    (fits : m < 2 ^ 63) : ∃ position, ∀ fuel, k + 1 < fuel →
      meaning fuel (.body (rootEnv [file])) = some (.ok ((object [("x", .int ((-1) ^ k * m))]).value position)) := by
  obtain ⟨span, doc, whole, value, rfl, negates⟩ := field
  refine ⟨file.source.position span, fun fuel enough => ?_⟩
  obtain ⟨fuel, rfl⟩ := Nat.exists_eq_succ_of_ne_zero (Nat.ne_zero_of_lt enough)
  let env : Env := [⟨⟨"", [([], .label ⟨"x", .regular, span⟩ false file), ([], .conjunct "x" value file)]⟩, []⟩]
  let x : Declared := ⟨"x", .regular, false, file.source.position span, [⟨value, file⟩], false⟩
  have root : rootEnv [file] = env := by
    rw [rootEnv, List.flatMap_singleton, is, declsMentions, declsMentions, List.append_nil, declMentions,
      negates.valueMentions]
  have declared : env.declared = [x] := rfl
  have embeds : env.embeds = [] := rfl
  have found : env.find? "x" = some x := rfl
  have fieldValue : Closure.fieldValue (meaning fuel) env "x" = some (.ok (.int ((-1) ^ k * m))) := by
    rw [Closure.fieldValue, found]
    refine (Meaning.bind_of_ok ?_).trans rfl
    refine (Meaning.bind_of_ok (negates.meaning fits (Nat.lt_of_succ_lt_succ enough) _)).trans ?_
    exact (Meaning.bind_of_ok (unifyAt_top _ _ _)).trans rfl
  have fields : Closure.bodyFields ⟨meaning fuel, Closure.fieldValue (meaning fuel)⟩ env [x] =
      some (.ok [⟨"x", .regular, false, some (file.source.position span), .int ((-1) ^ k * m)⟩]) :=
    (Meaning.bind_of_ok fieldValue).trans rfl
  rw [root, meaning, Closure.perform, Closure.bodyValue, declared, embeds, Meaning.bind_of_ok fields]
  rfl

theorem documentAt_field {i : Int} (fits : i.natAbs < 2 ^ 63) (position : Position) :
    ((object [("x", .int i)]).value position).document = .ok (object [("x", .int i)]) := by
  have writable : Writable "x" := by decide
  have plain : Plain 1 (object [("x", .int i)]) :=
    .object (List.nodup_singleton _) (List.forall_mem_singleton.mpr writable)
      (List.forall_mem_singleton.mpr (.int fits))
  exact plain.documentAt (by decide) "" none

/-- What is evaluated has the value that it comes to at all levels from some on. -/
theorem meaning_of_value {files : List ParsedFile} {v : Value} (h : Package.value files = .ok v) :
    ∃ fuel, ∀ n ≥ fuel, meaning n (.body (rootEnv files)) = some (.ok v) := by
  have ordinary : Ordinary (Package.value files) := by
    rintro e failed
    cases h.symm.trans failed
  have settles := ((root_agrees files).2 0).settles ordinary
  rw [h] at settles
  exact settles.eventually

variable {file : ParsedFile} {decl : Decl}

/-- With few signs a field comes to its integer, and with any number of them to nothing else. -/
theorem document_of_field (is : file.tree.decls = [decl]) (field : IsField m k decl) (fits : m < 2 ^ 63) :
    (k + 1 < evaluationLimit → Package.document [file] = .ok (object [("x", .int ((-1) ^ k * m))])) ∧
      ∀ d, Package.document [file] = .ok d → d = object [("x", .int ((-1) ^ k * m))] := by
  obtain ⟨position, meaning⟩ := meaning_field is field fits
  have magnitude : ((-1) ^ k * (m : Int)).natAbs < 2 ^ 63 := by rwa [natAbs_signed]
  have exported := documentAt_field magnitude position
  constructor
  · intro few
    rw [Package.document, value_of_meaning (meaning _ few)]
    exact exported
  · intro d document
    obtain ⟨v, value, document⟩ := Value.bind_eq_ok document
    obtain ⟨fuel, settled⟩ := meaning_of_value value
    have same := (settled (max fuel (k + 2)) (Nat.le_max_left _ _)).symm.trans
      (meaning _ (Nat.lt_of_succ_le (Nat.le_max_right _ _)))
    cases same
    cases document.symm.trans exported
    rfl

end Values

section Files

variable {cs : List Char} {m : Nat}

theorem toList_signed (k : Nat) (cs : List Char) :
    ("x: " ++ signed k cs).toList = 'x' :: ':' :: ' ' :: (List.replicate k '-' ++ cs) := by
  simp [signed]

theorem IntegerLiteral.read (h : IntegerLiteral cs m) (fits : m < 2 ^ 63) (k : Nat) (path : String)
    (revision : Revision) (keep : Bool) :
    (∃ f decl, ParsedFile.read path ("x: " ++ signed k cs) revision keep = .ok f ∧ f.tree.decls = [decl] ∧
        IsField m k decl) ∨
      nestingLimit < k + 2 ∧ ∃ e, ParsedFile.read path ("x: " ++ signed k cs) revision keep = .error e := by
  let source : SourceText := ⟨path, "x: " ++ signed k cs⟩
  obtain ⟨tokens, scanner, scanned, kinds⟩ :=
    h.reads fits k (s := .ofString source.text keep) (toList_signed k cs) rfl
  have split : tokens.map (·.kind) =
      (.ident "x" :: .colon :: (List.replicate k .minus ++ [.int m])) ++ [.comma true, .eof] := by simp [kinds]
  obtain ⟨ts, last, rfl, field, ends⟩ := List.map_eq_append_iff.mp split
  obtain ⟨comma, last, rfl, isComma, ends⟩ := List.map_eq_cons_iff.mp ends
  obtain ⟨finish, rfl, eof⟩ := List.map_eq_singleton_iff.mp ends
  obtain ⟨decl, derived, field⟩ := exists_declaration revision 0 field
  obtain ⟨tree, derived, decls⟩ := exists_file_of_declaration derived (by rw [isComma]; rfl) eof
  obtain ⟨body, finish', same, arrives⟩ := Syntax.file_reads derived
  have ofSource : Syntax.File.ofSource source revision keep = _ := Syntax.File.ofSource_eq scanned revision
  rw [same, Syntax.Cursor.ofTokens_append] at ofSource
  rcases arrives with read | ⟨deep, span, failed⟩
  · rw [read] at ofSource
    exact .inl ⟨⟨source, _⟩, decl, Syntax.ParsedFile.read_eq_ok.mpr ⟨ofSource, rfl⟩, decls, field⟩
  · rw [failed] at ofSource
    refine .inr ⟨by omega, ⟨.tooDeep, source.position span⟩, ?_⟩
    rw [ParsedFile.read, ofSource]
    rfl

theorem IntegerLiteral.refused (h : IntegerLiteral cs m) (large : ¬m < 2 ^ 63) (k : Nat) (path : String)
    (revision : Revision) (keep : Bool) :
    ∃ e, ParsedFile.read path ("x: " ++ signed k cs) revision keep = .error e ∧ e.fault = .integerRange :=
  (h.fails large k (s := .ofString _ keep) (toList_signed k cs) rfl).refused revision

/-- An integer is written as the digits of its magnitude, behind a sign when it is negative. -/
theorem toString_int (n : Int) :
    ∃ k, toString n = signed k (Nat.toDigits 10 n.natAbs) ∧ k ≤ 1 ∧ (-1) ^ k * (n.natAbs : Int) = n := by
  have compact : (int n).compact = toString n := by rw [Document.compact]
  rcases Int.lt_or_le n 0 with negative | positive
  · have chars := chars_of_neg negative
    refine ⟨1, ?_, Nat.le_refl 1, by omega⟩
    rw [signed, ← compact, ← String.ofList_toList (s := (int n).compact)]
    exact congrArg String.ofList chars
  · have chars := chars_of_nonneg positive
    refine ⟨0, ?_, Nat.zero_le 1, by omega⟩
    rw [signed, ← compact, ← String.ofList_toList (s := (int n).compact)]
    exact congrArg String.ofList chars

/-- Every integer of 64 bits but the least can be written as it is, and no other one. However a number is spelled, and
    with any signs in front of it, nothing else comes of it. -/
theorem document_of_written_integer (path : String) (revision : Revision) (keep : Bool) :
    (∀ n : Int, -2 ^ 63 < n ∧ n < 2 ^ 63 → ∃ f, ParsedFile.read path ("x: " ++ toString n) revision keep = .ok f ∧
        Package.document [f] = .ok (object [("x", .int n)])) ∧
      (∀ n : Int, n ≤ -2 ^ 63 ∨ 2 ^ 63 ≤ n → ∃ e, ParsedFile.read path ("x: " ++ toString n) revision keep = .error e ∧
        e.fault = .integerRange) ∧
      ∀ cs m k f d, IntegerLiteral cs m → ParsedFile.read path ("x: " ++ signed k cs) revision keep = .ok f →
        Package.document [f] = .ok d → d = object [("x", .int ((-1) ^ k * m))] := by
  refine ⟨fun n range => ?_, fun n range => ?_, fun cs m k f d literal read document => ?_⟩
  · obtain ⟨k, text, few, value⟩ := toString_int n
    have fits : n.natAbs < 2 ^ 63 := by omega
    rw [text]
    rcases (integerLiteral_toDigits n.natAbs).read fits k path revision keep with
      ⟨f, decl, read, is, field⟩ | ⟨deep, _⟩
    · have document := (document_of_field is field fits).1 (Nat.lt_of_le_of_lt (Nat.succ_le_succ few) (by decide))
      rw [value] at document
      exact ⟨f, read, document⟩
    · exact absurd deep (Nat.not_lt.mpr (Nat.le_trans (Nat.add_le_add_right few 2) (by decide)))
  · obtain ⟨k, text, -, -⟩ := toString_int n
    have large : ¬n.natAbs < 2 ^ 63 := by omega
    rw [text]
    exact (integerLiteral_toDigits n.natAbs).refused large k path revision keep
  · by_cases fits : m < 2 ^ 63
    · rcases literal.read fits k path revision keep with ⟨f', decl, read', is, field⟩ | ⟨_, e, failed⟩
      · cases read.symm.trans read'
        exact (document_of_field is field fits).2 d document
      · cases read.symm.trans failed
    · obtain ⟨e, failed, -⟩ := literal.refused fits k path revision keep
      cases read.symm.trans failed

/-- The least integer of 64 bits is refused, for its magnitude. -/
theorem least_integer_refused :
    ∃ e, ParsedFile.read "a.cue" "x: -9223372036854775808" .current true = .error e ∧ e.fault = .integerRange := by
  have text : "x: " ++ signed 1 (Nat.toDigits 10 (2 ^ 63)) = "x: -9223372036854775808" := by decide +kernel
  rw [← text]
  exact (integerLiteral_toDigits (2 ^ 63)).refused (Nat.lt_irrefl _) 1 "a.cue" .current true

end Files

end StackLattice.Document
