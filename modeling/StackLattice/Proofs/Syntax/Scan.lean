import StackLattice.Proofs.Syntax.Lexing
import StackLattice.Proofs.Text.Passing

/-!
A scan, one step at a time: over a blank, over a line break, over a comment, over a token. What a scanner reads is read
in such steps, and each of them passes over a piece of the text.
-/

namespace StackLattice.Syntax

open Text (Input isBlank isAsciiDigit byteLength)
open Text.Input (Passes Reaches)

section Readers

variable {i : Input}

theorem reaches_stringBody (start : Nat) (i : Input) : Reaches i (stringBody start i).2 := by
  fun_induction stringBody start i with
  | case1 | case2 => exact .refl _
  | case3 | case4 => exact Input.reaches_skip _
  | case5 i rest here c taken stands tail left body ih =>
    rw [body] at ih
    exact (Input.reaches_skipMany _ i).trans ih
  | case6 i c rest _ _ _ here tail left body ih =>
    rw [body] at ih
    exact (Input.reaches_skip i).trans ih

/-- The quotes that close a literal stand behind the blanks in front of them. -/
theorem indented_quotes {line : List Char} (closes : quotes <+: line.dropWhile isBlank) :
    line.takeWhile isBlank ++ quotes <+: line := by
  conv => rhs; rw [← List.takeWhile_append_dropWhile (p := isBlank) (l := line)]
  exact (List.prefix_append_right_inj _).mpr closes

theorem reaches_blockLines (start : Nat) (i : Input) (lines : List Line) : Reaches i (blockLines start i lines).2 := by
  fun_induction blockLines start i lines with
  | case1 => exact .refl _
  | case2 => exact Input.reaches_skipMany _ _
  | case3 i lines _ _ _ line _ ih => exact (Input.reaches_skipMany _ i).trans ih

theorem reaches_blockString (i : Input) : Reaches i (blockString i).2 := by
  have opened := (Input.reaches_skipMany 3 i).trans
    (Input.reaches_skipWhile (fun c => isBlank c && c != '\n') (i.skipMany 3))
  unfold blockString
  dsimp only
  generalize (i.skipMany 3).skipWhile (fun c => isBlank c && c != '\n') = before at opened
  split
  · have lines := (Input.reaches_skip before).trans (reaches_blockLines i.offset before.skip [])
    split <;> rename_i read <;> rw [read] at lines <;> exact opened.trans lines
  · exact opened

theorem reaches_number (i : Input) : Reaches i (number i).2 := by
  unfold number
  dsimp only
  split <;> split <;> exact Input.reaches_skipMany _ i

theorem reaches_name (i : Input) : Reaches i (name i).2 := by
  unfold name
  split
  · split
    · exact Input.reaches_skipMany _ i
    · exact Input.reaches_skip i
  · exact Input.reaches_skip i
  · exact Input.reaches_skipMany _ i

/-- Reading a lexeme passes over text, also when it fails. -/
theorem reaches_lexeme (i : Input) : Reaches i (lexeme i).2 := by
  unfold lexeme
  dsimp only
  split <;> try exact Input.reaches_skipMany _ i
  · exact reaches_blockString i
  · exact (Input.reaches_skip i).trans (reaches_stringBody _ _)
  · split_ifs
    · exact reaches_number i
    · exact reaches_name i
    · exact .refl i

theorem passes_of_lexeme {left : Input} {kind : TokenKind} (filled : i.rest ≠ []) (read : lexeme i = (.ok kind, left)) :
    ∃ cs, cs ≠ [] ∧ Passes cs i left := by
  obtain ⟨c, rest, here⟩ := List.exists_cons_of_ne_nil filled
  have reached := reaches_lexeme i
  rw [read] at reached
  obtain ⟨cs, passes⟩ := reached
  refine ⟨cs, ?_, passes⟩
  rintro rfl
  have shorter := lexeme_length_lt here read
  rw [passes.rest] at shorter
  exact absurd shorter (Nat.lt_irrefl _)

end Readers

/-- A token that stands in the text; inserted commas and the end of the text do not. -/
def TokenKind.Written (kind : TokenKind) : Prop := kind ≠ .eof ∧ kind ≠ .comma Bool.true

instance (kind : TokenKind) : Decidable kind.Written := inferInstanceAs (Decidable (_ ∧ _))

namespace Scanner

/-- The comment that starts here. -/
def commentHere (s : Scanner) : Comment :=
  ⟨commentText (s.input.rest.takeWhile (· ≠ '\n')), ⟨s.input.offset, (s.input.skipWhile (· ≠ '\n')).offset⟩⟩

/-- The end of the text, as the last token. -/
def endToken (s : Scanner) : Token := ⟨.eof, .point s.input.offset, s.doc⟩

/-- The comma that is inserted here, if one is due. -/
def commaDue (s : Scanner) : List Token := if s.pendingComma then [s.insertedComma] else []

/-- One step of a scan and the tokens that it reads. -/
inductive Step : Scanner → List Token → Scanner → Prop
  | blank {s : Scanner} {c : Char} {cs : List Char} : s.input.rest = c :: cs → isBlank c = true → c ≠ '\n' →
    Step s [] { s with input := s.input.skip }
  | line {s : Scanner} {cs : List Char} : s.input.rest = '\n' :: cs → Step s s.commaDue s.passLine
  | comment {s : Scanner} {cs : List Char} : s.input.rest = '/' :: '/' :: cs → Step s [] s.passComment
  | token {s : Scanner} {kind : TokenKind} {left : Input} : s.input.rest ≠ [] → kind.Written →
    lexeme s.input = (.ok kind, left) →
    Step s [⟨kind, ⟨s.input.offset, left.offset⟩, s.doc⟩]
      { s with input := left, doc := [], lineHasContent := true, pendingComma := kind.endsLine }

/-- A scan up to the end of the text. -/
inductive Run : Scanner → List Token → Scanner → Prop
  | ends {s : Scanner} : s.input.rest = [] →
    Run s (s.commaDue ++ [s.endToken]) { s with pendingComma := false, doc := [] }
  | step {s u t : Scanner} {read tokens : List Token} : Step s read u → Run u tokens t → Run s (read ++ tokens) t

variable {s t u : Scanner}

theorem not_step_of_end (here : s.input.rest = []) {read : List Token} : ¬Step s read u := by
  rintro (rest | rest | rest | rest)
  · cases here.symm.trans rest
  · cases here.symm.trans rest
  · cases here.symm.trans rest
  · exact rest here

/-- The next token of a scan, and what is read behind it. -/
theorem run_of_next {token : Token} (h : s.next = (.ok token, t)) :
    (token.kind = .eof → Run s [token] t) ∧
      (token.kind ≠ .eof → ∀ {tokens last}, Run t tokens last → Run s (token :: tokens) last) := by
  fun_induction next s with
  | case1 s rest pending =>
    cases h
    refine ⟨fun eof => (by cases eof), fun _ tokens last run => ?_⟩
    have ends := Run.ends (s := s) rest
    rw [commaDue, if_pos pending] at ends
    cases run with
    | ends => exact ends
    | step step _ => exact absurd step (not_step_of_end (s := { s with pendingComma := false }) rest)
  | case2 s rest pending =>
    cases h
    refine ⟨fun _ => ?_, fun more => absurd rfl more⟩
    have ends := Run.ends (s := s) rest
    rw [commaDue, if_neg pending] at ends
    simp only [Bool.not_eq_true] at pending
    obtain ⟨input, keepComments, pendingComma, lineHasContent, doc, comments⟩ := s
    cases pending
    exact ends
  | case3 s cs rest pending =>
    cases h
    refine ⟨fun eof => (by cases eof), fun _ tokens last run => ?_⟩
    have step := Run.step (.line rest) run
    rwa [commaDue, if_pos pending] at step
  | case4 s cs rest pending ih =>
    have line : Step s [] s.passLine := by
      have step := Step.line rest
      rwa [commaDue, if_neg pending] at step
    exact ⟨fun eof => .step line ((ih h).1 eof), fun more _ _ run => .step line ((ih h).2 more run)⟩
  | case5 s cs rest ih =>
    have step := Step.comment rest
    exact ⟨fun eof => .step step ((ih h).1 eof), fun more _ _ run => .step step ((ih h).2 more run)⟩
  | case6 s c cs line comment rest blank ih =>
    have step := Step.blank rest blank line
    exact ⟨fun eof => .step step ((ih h).1 eof), fun more _ _ run => .step step ((ih h).2 more run)⟩
  | case7 s c cs line comment rest solid =>
    unfold readToken at h
    split at h
    · cases h
    · rename_i kind left read
      cases h
      have written := lexeme_written rest read
      exact ⟨fun eof => absurd eof written.1, fun _ _ _ run => .step (.token (by simp [rest]) written read) run⟩

theorem run_of_tokens {tokens : List Token} (h : s.tokens = (.ok tokens, t)) : Run s tokens t := by
  fun_induction Scanner.tokens s generalizing tokens t with
  | case1 => cases h
  | case2 s token u next eof =>
    cases h
    exact (run_of_next next).1 eof
  | case3 s token u next more others last rest ih =>
    cases others with
    | error e => cases h
    | ok tokens =>
      cases h
      exact (run_of_next next).2 more (ih rest)

theorem keepComments_passComment (s : Scanner) : s.passComment.keepComments = s.keepComments := by
  unfold passComment
  split <;> rfl

theorem comments_passComment (s : Scanner) :
    s.passComment.comments = s.comments ++ if s.keepComments then [s.commentHere] else [] := by
  unfold passComment
  split <;> simp [commentHere]

theorem reaches_passComment (s : Scanner) : Reaches s.input s.passComment.input := by
  rw [input_passComment]
  exact Input.reaches_skipWhile _ _

theorem Step.reaches {read : List Token} (h : Step s read u) : Reaches s.input u.input := by
  cases h with
  | blank => exact Input.reaches_skip _
  | line => exact Input.reaches_skip _
  | comment => exact reaches_passComment _
  | token rest _ found =>
    obtain ⟨cs, _, passes⟩ := passes_of_lexeme rest found
    exact ⟨cs, passes⟩

end Scanner

end StackLattice.Syntax
