import StackLattice.Proofs.Syntax.Gaps

/-!
Where commas are inserted: between a token that ends a line and the next one, if a line break stands between them or
the next one is the end of the text, and nowhere else. There is one comma however many lines are broken.
-/

namespace StackLattice.Syntax

open Text (Input byteLength)
open Text.Input (Passes Reaches)

namespace Scanner

variable {s t u : Scanner} {tokens commas : List Token} {next : Token}

/-- Tokens that begin with inserted commas, and the first token that is none. -/
inductive Leads : List Token → List Token → Token → Prop
  | here {next : Token} {rest : List Token} : next.kind ≠ .comma true → Leads (next :: rest) [] next
  | comma {comma next : Token} {rest commas : List Token} : comma.kind = .comma true → Leads rest commas next →
    Leads (comma :: rest) (comma :: commas) next

theorem leads_append {rest : List Token} (inserted : ∀ comma ∈ commas, comma.kind = .comma true)
    (other : next.kind ≠ .comma true) : Leads (commas ++ next :: rest) commas next := by
  induction commas with
  | nil => exact .here other
  | cons comma commas ih =>
    rw [List.forall_mem_cons] at inserted
    exact .comma inserted.1 (ih inserted.2)

theorem Leads.of_comma {comma : Token} (h : Leads (comma :: tokens) commas next) (inserted : comma.kind = .comma true) :
    ∃ others, commas = comma :: others ∧ Leads tokens others next := by
  cases h with
  | here other => exact absurd inserted other
  | comma _ rest => exact ⟨_, rfl, rest⟩

theorem Leads.of_other {token : Token} (h : Leads (token :: tokens) commas next) (other : token.kind ≠ .comma true) :
    commas = [] ∧ next = token := by
  cases h with
  | here => exact ⟨rfl, rfl⟩
  | comma inserted => exact absurd inserted other

/-- How many commas are inserted over a gap in front of a token, when a line break may end a declaration or not. -/
def due (pending : Bool) (gap : List Char) (next : Token) : Nat :=
  if pending = true ∧ ('\n' ∈ gap ∨ next.kind = .eof) then 1 else 0

theorem due_false (gap : List Char) (next : Token) : due false gap next = 0 := rfl

theorem due_append {cs : List Char} (lineless : '\n' ∉ cs) (pending : Bool) (gap : List Char) (next : Token) :
    due pending (cs ++ gap) next = due pending gap next := by
  simp only [due, List.mem_append, lineless, false_or]

/-- The commas in front of the next token, and the gap that leads to it. -/
def FindsNext (s : Scanner) (commas : List Token) (next : Token) : Prop :=
  ∃ gap after, s.input.rest = gap ++ after ∧ next.span.start = s.input.offset + byteLength gap ∧
    commas.length = due s.pendingComma gap next

/-- What is found behind a piece of a line is found from before it. -/
theorem FindsNext.across {cs : List Char} (h : FindsNext u commas next) (passes : Passes cs s.input u.input)
    (lineless : '\n' ∉ cs) (same : u.pendingComma = s.pendingComma) : FindsNext s commas next := by
  obtain ⟨gap, after, rest, start, count⟩ := h
  refine ⟨cs ++ gap, after, by rw [passes.rest, rest, List.append_assoc], ?_, ?_⟩
  · rw [start, passes.offset, Text.byteLength_append, Nat.add_assoc]
  · rw [count, due_append lineless, same]

theorem FindsNext.across_line {cs : List Char} (h : FindsNext s.passLine commas next) (here : s.input.rest = '\n' :: cs) :
    FindsNext s (s.commaDue ++ commas) next := by
  obtain ⟨gap, after, rest, start, count⟩ := h
  have passes : Passes ['\n'] s.input s.passLine.input := Input.passes_skip here
  refine ⟨'\n' :: gap, after, by rw [passes.rest, rest]; rfl, ?_, ?_⟩
  · rw [start, passes.offset, Text.byteLength_cons, Text.byteLength_cons, Text.byteLength_nil]
    omega
  · -- The line break takes the comma that is due, so none is due behind it.
    rw [List.length_append, count, passLine, due_false, commaDue, due]
    cases s.pendingComma <;> simp

theorem Run.finds (h : Run s tokens t) (leads : Leads tokens commas next) : FindsNext s commas next := by
  induction h generalizing commas with
  | @ends s here =>
    have last {commas : List Token} (leads : Leads [s.endToken] commas next) : commas = [] ∧ next = s.endToken :=
      leads.of_other TokenKind.noConfusion
    refine ⟨[], [], here, ?_⟩
    unfold commaDue at leads
    cases pending : s.pendingComma <;> rw [pending] at leads
    · obtain ⟨rfl, rfl⟩ := last leads
      exact ⟨rfl, rfl⟩
    · obtain ⟨others, rfl, behind⟩ := leads.of_comma rfl
      obtain ⟨rfl, rfl⟩ := last behind
      exact ⟨rfl, rfl⟩
  | @step s u t read tokens step run ih =>
    cases step with
    | blank here blank other => exact (ih leads).across (Input.passes_skip here) (by simpa using other.symm) rfl
    | line here =>
      unfold commaDue at leads
      cases pending : s.pendingComma <;> rw [pending] at leads
      · have found := (ih leads).across_line here
        rwa [commaDue, pending] at found
      · obtain ⟨others, rfl, behind⟩ := leads.of_comma rfl
        have found := (ih behind).across_line here
        rwa [commaDue, pending] at found
    | comment here =>
      have passed := Input.passes_skipWhile (· ≠ '\n') s.input
      rw [← s.input_passComment] at passed
      exact (ih leads).across passed (lineless_takeWhile _) s.pendingComma_passComment
    | token filled written lexed =>
      obtain ⟨rfl, rfl⟩ := leads.of_other written.2
      refine ⟨[], s.input.rest, rfl, rfl, ?_⟩
      simp [due, written.1]

/-- Behind a token that stands in the text the scan goes on as it does behind its kind. -/
theorem Run.behind {before rest : List Token} {token : Token} (h : Run s (before ++ token :: rest) t)
    (written : token.kind.Written) :
    ∃ u, Run u rest t ∧ u.pendingComma = token.kind.endsLine ∧ u.input.offset = token.span.stop ∧
      Reaches s.input u.input := by
  generalize same : before ++ token :: rest = tokens at h
  induction h generalizing before with
  | @ends s here =>
    have member : token ∈ (s.commaDue ++ [s.endToken]).filter (·.kind.Written) := by
      rw [← same]
      simp [written]
    rw [written_of_end] at member
    cases member
  | @step s u t read tokens step run ih =>
    have later {before' : List Token} (same : before' ++ token :: rest = tokens) :
        ∃ u, Run u rest t ∧ u.pendingComma = token.kind.endsLine ∧ u.input.offset = token.span.stop ∧
          Reaches s.input u.input := by
      obtain ⟨v, run, pending, offset, reaches⟩ := ih same
      exact ⟨v, run, pending, offset, step.reaches.trans reaches⟩
    rcases step.reads with rfl | rfl | ⟨found, rfl, _, span, pending⟩
    · exact later same
    · cases before with
      | nil =>
        cases (List.cons.inj same).1
        exact absurd rfl written.2
      | cons comma before => exact later (List.cons.inj same).2
    · cases before with
      | nil =>
        obtain ⟨rfl, rfl⟩ := List.cons.inj same
        exact ⟨u, run, pending, by rw [span], step.reaches⟩
      | cons token before => exact later (List.cons.inj same).2

/-- Between two tokens of a text that stand next to each other there is one inserted comma if the first ends a line,
    and a line break or the end of the text follows it, and none otherwise; before the first token there is none. -/
theorem commas_between {text : String} {keepComments : Bool} {tokens : List Token} {t : Scanner}
    (h : (ofString text keepComments).tokens = (.ok tokens, t)) :
    (∀ commas next rest, tokens = commas ++ next :: rest → (∀ comma ∈ commas, comma.kind = .comma true) →
      next.kind ≠ .comma true → commas = []) ∧
    ∀ before token commas next rest, tokens = before ++ token :: (commas ++ next :: rest) → token.kind.Written →
      (∀ comma ∈ commas, comma.kind = .comma true) → next.kind ≠ .comma true →
      commas.length =
        if token.kind.endsLine = true ∧
          ('\n' ∈ (Span.slice ⟨token.span.stop, next.span.start⟩ text).toList ∨ next.kind = .eof) then 1 else 0 := by
  have run := run_of_tokens h
  constructor
  · rintro commas next rest rfl inserted other
    obtain ⟨gap, after, _, _, count⟩ := run.finds (leads_append inserted other)
    exact List.eq_nil_of_length_eq_zero count
  · rintro before token commas next rest rfl written inserted other
    obtain ⟨u, run, pending, stop, within⟩ := run.behind written
    obtain ⟨gap, after, split, start, count⟩ := run.finds (leads_append inserted other)
    have within : Reaches ⟨text.toList, 0⟩ u.input := within
    obtain ⟨passed, whole, offset⟩ := exists_before within
    rw [split, ← List.append_assoc] at whole
    rw [count, due, pending, ← stop, start, offset, Span.slice_eq whole, String.toList_ofList]

/-- A comment behind a line, blank lines, a comment on its own line and a literal over several lines. -/
theorem commas_between_commented :
    let text := "port: // é\n\n\"\"\"\n  ü\n  \"\"\" // one\n\n// two\n\nload: 1"
    ∃ colon literal comma name rest t,
      (ofString text false).tokens = (.ok (colon ++ literal :: ([comma] ++ name :: rest)), t) ∧
      colon.map (·.kind) = [.ident "port", .colon] ∧ literal.kind = .string "ü" ∧ name.kind = .ident "load" ∧
      [comma].length =
        if literal.kind.endsLine = true ∧
          ('\n' ∈ (Span.slice ⟨literal.span.stop, name.span.start⟩ text).toList ∨ name.kind = .eof) then 1 else 0 := by
  intro text
  have kinds : (ofString text false).tokens.1.toOption.map (List.map (·.kind)) =
      some ([.ident "port", .colon] ++
        [.string "ü", .comma true, .ident "load", .colon, .int 1, .comma true, .eof]) := by
    decide +kernel
  rcases read : (ofString text false).tokens with ⟨_ | tokens, t⟩ <;> rw [read] at kinds
  · cases kinds
  · obtain ⟨colon, _, rfl, first, kinds⟩ := List.map_eq_append_iff.mp (Option.some.inj kinds)
    obtain ⟨literal, _, rfl, value, kinds⟩ := List.map_eq_cons_iff.mp kinds
    obtain ⟨comma, _, rfl, inserted, kinds⟩ := List.map_eq_cons_iff.mp kinds
    obtain ⟨name, rest, rfl, label, _⟩ := List.map_eq_cons_iff.mp kinds
    refine ⟨colon, literal, comma, name, rest, t, rfl, first, value, label, ?_⟩
    refine (commas_between read).2 colon literal [comma] name rest rfl ?_ ?_ ?_
    · rw [value]
      decide
    · simpa using inserted
    · rw [label]
      exact TokenKind.noConfusion

end Scanner

end StackLattice.Syntax
