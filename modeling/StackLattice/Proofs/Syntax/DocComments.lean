import StackLattice.Proofs.Syntax.Escapes
import StackLattice.Proofs.Syntax.Found
import StackLattice.Proofs.Text.Lines

/-!
Comments that document a token. They stand on lines of their own above it, and no line of blanks is between.
-/

namespace StackLattice.Syntax

open Text (Input isBlank isAsciiDigit byteLength lastLine BlankLine)
open Text.Input (Passes Reaches)

section Lexemes

variable {i left : Input} {kind : TokenKind} {c : Char} {rest : List Char}

/-- No lexeme starts with a blank. -/
theorem solid_of_lexeme (here : i.rest = c :: rest) (read : lexeme i = (.ok kind, left)) : isBlank c = false := by
  have blanks : ∀ n ∈ [9, 10, 11, 12, 13, 0x20, 0x85, 0xA0, 0x1680, 0x2000, 0x2001, 0x2002, 0x2003, 0x2004, 0x2005,
      0x2006, 0x2007, 0x2008, 0x2009, 0x200A, 0x2028, 0x2029, 0x202F, 0x205F, 0x3000],
      Char.ofNat n ∉ [':', '.', '"'] ∧ punctuation (Char.ofNat n) = none ∧ isAsciiDigit (Char.ofNat n) = false ∧
        startsName (Char.ofNat n) = false := by
    decide +kernel
  rw [Bool.eq_false_iff]
  intro blank
  obtain ⟨mark, alone, digit, starts⟩ := blanks c.toNat <| by
    simp only [isBlank, Bool.or_eq_true, Bool.and_eq_true, decide_eq_true_eq, beq_iff_eq] at blank
    simp only [List.mem_cons, List.not_mem_nil, or_false]
    omega
  rw [Char.ofNat_toNat] at mark alone digit starts
  rw [lexeme_unexpected here mark alone digit starts] at read
  cases read

theorem passes_number (i : Input) : ∃ cs, Passes cs i (number i).2 ∧ '\n' ∉ cs := by
  have whole := List.takeWhile_append_dropWhile (p := isNumberChar) (l := i.rest)
  have lineless := lineless_takeWhile_of not_isNumberChar_newline i.rest
  obtain ⟨⟨others, point⟩, pointLine⟩ := pointPart_line (i.rest.dropWhile isNumberChar)
  obtain ⟨⟨last, exponent⟩, exponentLine⟩ :=
    exponentPart_line ((i.rest.dropWhile isNumberChar).drop (pointPart (i.rest.dropWhile isNumberChar)).length)
  unfold number
  dsimp only
  generalize i.rest.takeWhile isNumberChar = digits at *
  generalize i.rest.dropWhile isNumberChar = behind at *
  generalize pointPart behind = point' at *
  subst point
  rw [List.drop_left] at exponent exponentLine ⊢
  generalize exponentPart others = exponent' at *
  refine ⟨digits ++ point' ++ exponent', ?_, by simp [lineless, pointLine, exponentLine]⟩
  have starts : digits ++ point' ++ exponent' <+: i.rest := ⟨last, by rw [← whole, ← exponent]; simp⟩
  split <;> split <;> exact Input.passes_prefix starts

theorem passes_name (i : Input) (read : name i = (.ok kind, left)) : ∃ cs, Passes cs i left ∧ '\n' ∉ cs := by
  have body (cs : List Char) : '\n' ∉ cs.takeWhile isNameChar := lineless_takeWhile_of not_isNameChar_newline cs
  unfold name at read
  split at read
  · rename_i c rest here
    split at read <;> cases read
    refine ⟨'#' :: (c :: rest).takeWhile isNameChar, Input.passes_prefix ?_, by simp [body]⟩
    rw [here, List.cons_prefix_cons]
    exact ⟨rfl, List.takeWhile_prefix _⟩
  · cases read
  · cases read
    exact ⟨_, Input.passes_prefix (List.takeWhile_prefix _), body _⟩

/-- A literal over several lines ends with its quotes. -/
theorem passes_blockLines {start : Nat} {lines : List Line} {r : List Line × List Char}
    (read : blockLines start i lines = (.ok r, left)) : ∃ cs, Passes (cs ++ ['"']) i left := by
  fun_induction blockLines start i lines with
  | case1 => cases read
  | case2 i lines c cs here line indent closes =>
    cases read
    have starts : indent ++ quotes <+: i.rest :=
      (indented_quotes (List.isPrefixOf_iff_prefix.mp closes)).trans (List.takeWhile_prefix _)
    have passes := Input.passes_prefix starts
    rw [List.length_append] at passes
    refine ⟨indent ++ ['"', '"'], ?_⟩
    rw [List.append_assoc]
    exact passes
  | case3 i lines c cs here line indent ih =>
    obtain ⟨cs, passes⟩ := ih read
    have whole := (Input.passes_skipMany (line.length + 1) i).trans passes
    rw [← List.append_assoc] at whole
    exact ⟨_, whole⟩

theorem passes_blockString {text : List Char} (read : blockString i = (.ok text, left)) :
    ∃ cs, Passes (cs ++ ['"']) i left := by
  have opened := (Input.passes_skipMany 3 i).trans
    (Input.passes_skipWhile (fun c => isBlank c && c != '\n') (i.skipMany 3))
  unfold blockString at read
  dsimp only at read
  generalize (i.skipMany 3).skipWhile (fun c => isBlank c && c != '\n') = before at opened read
  split at read
  · rename_i newline
    split at read
    · cases read
    · rename_i lines indent left' found
      obtain ⟨_, rfl⟩ := Prod.mk.inj read
      obtain ⟨after, here⟩ := List.head?_eq_some_iff.mp newline
      obtain ⟨cs, passes⟩ := passes_blockLines found
      have whole := (opened.trans (Input.passes_skip here)).trans passes
      rw [← List.append_assoc] at whole
      exact ⟨_, whole⟩
  · cases read

/-- A lexeme leaves something other than blanks on its last line: its first character if it is on one line, or else its
    last quote. -/
theorem passes_content (here : i.rest = c :: rest) (read : lexeme i = (.ok kind, left)) :
    ∃ cs, Passes cs i left ∧ ∀ before, ∃ d ∈ lastLine (before ++ cs), isBlank d = false := by
  have onLine (h : ∃ cs, Passes cs i left ∧ '\n' ∉ cs) :
      ∃ cs, Passes cs i left ∧ ∀ before, ∃ d ∈ lastLine (before ++ cs), isBlank d = false := by
    obtain ⟨cs, passes, lineless⟩ := h
    refine ⟨cs, passes, fun before => ⟨c, ?_, solid_of_lexeme here read⟩⟩
    have shorter := lexeme_length_lt here read
    have split := passes.rest
    rw [here] at split shorter
    cases cs with
    | nil => simp [split] at shorter
    | cons d cs =>
      rw [(List.cons.inj split).1, Text.lastLine_append lineless]
      simp
  have quoted {cs : List Char} (passes : Passes (cs ++ ['"']) i left) :
      ∃ cs, Passes cs i left ∧ ∀ before, ∃ d ∈ lastLine (before ++ cs), isBlank d = false := by
    refine ⟨_, passes, fun before => ⟨'"', ?_, by decide⟩⟩
    rw [← List.append_assoc, Text.lastLine_append (by decide)]
    simp
  unfold lexeme at read
  dsimp only at read
  split at read
  all_goals rename_i first
  case h_1 => cases here.symm.trans first
  case h_18 =>
    rcases body : blockString i with ⟨_ | text, left'⟩ <;> rw [body] at read <;> cases read
    obtain ⟨cs, passes⟩ := passes_blockString body
    exact quoted passes
  case h_19 =>
    rcases body : stringBody i.offset i.skip with ⟨_ | text, left'⟩ <;> rw [body] at read <;> cases read
    obtain ⟨cs, _, passes⟩ := denotes_of_stringBody body
    have whole := (Input.passes_skip first).trans passes
    rw [← List.append_assoc] at whole
    exact quoted whole
  case h_20 =>
    split_ifs at read
    · have passes := passes_number i
      rw [read] at passes
      exact onLine passes
    · exact onLine (passes_name i read)
    · cases read
  all_goals
    obtain ⟨_, rfl⟩ := Prod.mk.inj read
    refine onLine ⟨_, Input.passes_skipMany _ i, ?_⟩
    rw [first]
    simp

end Lexemes

/-- Only blanks stand before the comment on its line. -/
def Comment.Alone (text : List Char) (c : Comment) : Prop :=
  ∃ before after, text = before ++ after ∧ byteLength before = c.span.start ∧ ∀ d ∈ lastLine before, isBlank d = true

/-- A comment documents the first token behind it, or the end of the text, unless a line of blanks is between. -/
structure Comment.Documents (text : List Char) (tokens : List Token) (c : Comment) (token : Token) : Prop where
  alone : c.Alone text
  written : token.kind ≠ .comma true
  follows : c.span.stop ≤ token.span.start
  first : ∀ other ∈ tokens, other.kind ≠ .comma true → c.span.stop ≤ other.span.start →
    token.span.start ≤ other.span.start
  close : ∃ before between after, text = before ++ between ++ after ∧ byteLength before = c.span.stop ∧
    byteLength (before ++ between) = token.span.start ∧ ¬BlankLine between

theorem Comment.alone_iff {text before after : List Char} {c : Comment} (whole : text = before ++ after)
    (start : byteLength before = c.span.start) : c.Alone text ↔ ∀ d ∈ lastLine before, isBlank d = true := by
  refine ⟨?_, fun blank => ⟨before, after, whole, start, blank⟩⟩
  rintro ⟨before', after', whole', start', blank⟩
  rw [(Text.append_inj_of_byteLength (whole.symm.trans whole') (start.trans start'.symm)).1]
  exact blank

namespace Scanner

variable {text passed cs : List Char} {earlier read tokens : List Token} {s t u : Scanner} {c : Comment}

/-- Where a comment ends in what has been passed, and when a token that starts here has it. -/
def Holds (text passed : List Char) (earlier : List Token) (s : Scanner) (c : Comment) : Prop :=
  ∃ before gap, passed = before ++ gap ∧ byteLength before = c.span.stop ∧
    (s.lineHasContent = false → '\n' ∈ gap) ∧
    (c ∈ s.doc ↔ c.Alone text ∧ (∀ token ∈ earlier, token.kind ≠ .comma true → token.span.start < c.span.stop) ∧
      ¬BlankLine gap)

/-- What a scanner that keeps comments knows behind some text and the tokens of it. -/
structure Tracks (text passed : List Char) (earlier : List Token) (s : Scanner) : Prop where
  passes : Passes passed ⟨text, 0⟩ s.input
  keeps : s.keepComments = true
  content : s.lineHasContent = true ↔ ∃ d ∈ lastLine passed, isBlank d = false
  comments : ∀ c ∈ s.comments, Holds text passed earlier s c
  listed : ∀ c ∈ s.doc, c ∈ s.comments
  ordered : s.doc.Pairwise fun c d => c.span.stop ≤ d.span.start
  started : ∀ token ∈ earlier, token.kind ≠ .comma true → token.span.start < s.input.offset

theorem tracks_ofString (text : String) : Tracks text.toList [] [] (ofString text true) where
  passes := .refl _
  keeps := rfl
  content := by simp [ofString, lastLine]
  comments := List.forall_mem_nil _
  listed := List.forall_mem_nil _
  ordered := .nil
  started := List.forall_mem_nil _

/-- On the same line a comment stays where it is. -/
theorem Holds.across (h : Holds text passed earlier s c) (lineless : '\n' ∉ cs) (doc : c ∈ u.doc ↔ c ∈ s.doc)
    (content : u.lineHasContent = false → s.lineHasContent = false) : Holds text (passed ++ cs) earlier u c := by
  obtain ⟨before, gap, rfl, stop, broken, documents⟩ := h
  refine ⟨before, gap ++ cs, List.append_assoc _ _ _, stop, fun none => ?_, ?_⟩
  · exact List.mem_append_left _ (broken (content none))
  · rw [doc, documents, Text.blankLine_append lineless]

namespace Tracks

variable (h : Tracks text passed earlier s)

include h

theorem offset : s.input.offset = byteLength passed := by rw [h.passes.offset, Nat.zero_add]

theorem stop_le (member : c ∈ s.comments) : c.span.stop ≤ s.input.offset := by
  obtain ⟨before, gap, rfl, stop, _⟩ := h.comments c member
  rw [h.offset, ← stop, Text.byteLength_append]
  exact Nat.le_add_right _ _

theorem blank {d : Char} {rest : List Char} (here : s.input.rest = d :: rest) (blank : isBlank d = true)
    (line : d ≠ '\n') : Tracks text (passed ++ [d]) earlier { s with input := s.input.skip } := by
  have lineless : '\n' ∉ [d] := by simpa using line.symm
  refine ⟨h.passes.trans (Input.passes_skip here), h.keeps, ?_, ?_, h.listed, h.ordered, ?_⟩
  · rw [Text.lastLine_append lineless]
    simpa [blank] using h.content
  · exact fun c member => (h.comments c member).across lineless Iff.rfl id
  · exact fun token member written =>
      Nat.lt_trans (h.started token member written) (Step.blank here blank line).offset_lt

/-- A line break detaches the comments above it if there are only blanks before it on its line. -/
theorem line {rest : List Char} (here : s.input.rest = '\n' :: rest) :
    Tracks text (passed ++ ['\n']) (earlier ++ s.commaDue) s.passLine := by
  have written {P : Token → Prop} :
      (∀ token ∈ earlier ++ s.commaDue, token.kind ≠ .comma true → P token) ↔
        ∀ token ∈ earlier, token.kind ≠ .comma true → P token := by
    rcases s.commaDue_cases with due | due <;> simp [due, insertedComma, or_imp, forall_and]
  refine ⟨h.passes.trans (Input.passes_skip here), h.keeps, ?_, fun c member => ?_, ?_, ?_, ?_⟩
  · rw [Text.lastLine_newline List.not_mem_nil]
    simp [passLine]
  · obtain ⟨before, gap, rfl, stop, broken, documents⟩ := h.comments c member
    refine ⟨before, gap ++ ['\n'], List.append_assoc _ _ _, stop, fun _ => by simp, ?_⟩
    rw [written]
    cases content : s.lineHasContent with
    | true =>
      rw [Text.blankLine_iff_of_content (h.content.mp content), ← documents]
      simp [passLine, content]
    | false =>
      have blank : ∀ d ∈ lastLine (before ++ gap), isBlank d = true := by
        intro d inside
        by_contra solid
        have := h.content.mpr ⟨d, inside, by simpa using solid⟩
        rw [content] at this
        cases this
      have detached := Text.blankLine_of_blank (broken content) blank
      simp [passLine, content, detached]
  · intro c member
    cases content : s.lineHasContent <;> simp only [passLine, content] at member
    · cases member
    · exact h.listed c member
  · cases content : s.lineHasContent <;> simp only [passLine, content]
    · exact .nil
    · exact h.ordered
  · rw [written]
    exact fun token member other => Nat.lt_trans (h.started token member other) (Step.line here).offset_lt

theorem comment {rest : List Char} (here : s.input.rest = '/' :: '/' :: rest) :
    Tracks text (passed ++ s.input.rest.takeWhile (· ≠ '\n')) earlier s.passComment := by
  have lineless := lineless_takeWhile s.input.rest
  have moves := (Step.comment here).offset_lt
  have passes : Passes (s.input.rest.takeWhile (· ≠ '\n')) s.input s.passComment.input := by
    rw [input_passComment]
    exact Input.passes_skipWhile _ _
  have content : s.passComment.lineHasContent = true := by simp [passComment, h.keeps]
  have doc : s.passComment.doc = if s.lineHasContent then s.doc else s.doc ++ [s.commentHere] := by
    simp [passComment, h.keeps, commentHere]
  have comments : s.passComment.comments = s.comments ++ [s.commentHere] := by
    rw [comments_passComment, if_pos h.keeps]
  have stop : s.commentHere.span.stop = s.passComment.input.offset := by
    rw [input_passComment]
    rfl
  have whole : text = passed ++ s.input.rest := h.passes.rest
  have alone : s.commentHere.Alone text ↔ s.lineHasContent = false := by
    rw [Comment.alone_iff whole h.offset.symm, ← Bool.not_eq_true, h.content]
    simp
  have fresh : s.commentHere ∉ s.comments := fun member => by
    have := h.stop_le member
    omega
  have notListed : s.commentHere ∉ s.doc := fun member => fresh (h.listed _ member)
  refine ⟨h.passes.trans passes, (keepComments_passComment s).trans h.keeps, ?_, fun c member => ?_, ?_, ?_, ?_⟩
  · refine ⟨fun _ => ⟨'/', ?_, by decide⟩, fun _ => content⟩
    rw [Text.lastLine_append lineless, here]
    simp
  · rw [comments] at member
    rcases List.mem_append.mp member with old | new
    · refine (h.comments c old).across lineless ?_ fun none => by
        rw [content] at none
        cases none
      have other : c ≠ s.commentHere := fun same => fresh (same ▸ old)
      rw [doc]
      split <;> simp [other]
    · rw [List.mem_singleton.mp new]
      refine ⟨_, [], (List.append_nil _).symm, ?_, fun none => ?_, ?_⟩
      · rw [stop, (h.passes.trans passes).offset, Nat.zero_add]
      · rw [content] at none
        cases none
      · have started : ∀ token ∈ earlier, token.kind ≠ .comma true → token.span.start < s.commentHere.span.stop := by
          intro token member written
          have := h.started token member written
          omega
        have close : ¬BlankLine [] := by simp [BlankLine]
        rw [doc, alone]
        cases s.lineHasContent <;> simp [close, notListed]
        exact started
  · intro c member
    rw [doc] at member
    rw [comments]
    split at member
    · exact List.mem_append_left _ (h.listed c member)
    · exact List.mem_append.mpr ((List.mem_append.mp member).imp_left (h.listed c))
  · rw [doc]
    split
    · exact h.ordered
    · refine List.pairwise_append.mpr ⟨h.ordered, List.pairwise_singleton _ _, fun c inDoc d new => ?_⟩
      rw [List.mem_singleton.mp new]
      exact h.stop_le (h.listed c inDoc)
  · exact fun token member written => Nat.lt_trans (h.started token member written) moves

theorem token {kind : TokenKind} {left : Input} (filled : s.input.rest ≠ []) (written : kind.Written)
    (lexed : lexeme s.input = (.ok kind, left)) :
    ∃ cs, Tracks text (passed ++ cs) (earlier ++ [⟨kind, ⟨s.input.offset, left.offset⟩, s.doc⟩])
      { s with input := left, doc := [], lineHasContent := true, pendingComma := kind.endsLine } := by
  obtain ⟨d, rest, here⟩ := List.exists_cons_of_ne_nil filled
  obtain ⟨cs, passes, content⟩ := passes_content here lexed
  have moves := (Step.token filled written lexed).offset_lt
  refine ⟨cs, h.passes.trans passes, h.keeps, ⟨fun _ => content passed, fun _ => rfl⟩, fun c member => ?_,
    List.forall_mem_nil _, .nil, fun token member other => ?_⟩
  · obtain ⟨before, gap, rfl, stop, _⟩ := h.comments c member
    refine ⟨before, gap ++ cs, List.append_assoc _ _ _, stop, (fun none => by cases none), ?_⟩
    refine ⟨fun none => absurd none List.not_mem_nil, fun ⟨_, started, _⟩ => ?_⟩
    have := started _ (List.mem_append_right _ (List.mem_singleton_self _)) written.2
    exact absurd (h.stop_le member) (Nat.not_le_of_lt this)
  · rcases List.mem_append.mp member with before | new
    · exact Nat.lt_trans (h.started token before other) moves
    · rw [List.mem_singleton.mp new]
      exact moves

/-- Each step of a scan keeps track of the comments. -/
theorem step (step : Step s read u) : ∃ cs, Tracks text (passed ++ cs) (earlier ++ read) u := by
  cases step with
  | blank here isBlank other => exact ⟨_, (List.append_nil earlier).symm ▸ h.blank here isBlank other⟩
  | line here => exact ⟨_, h.line here⟩
  | comment here => exact ⟨_, (List.append_nil earlier).symm ▸ h.comment here⟩
  | token filled written lexed => exact h.token filled written lexed

/-- A token that starts here has the comments that document it. -/
theorem documents {token : Token} {later : List Token} {more : List Comment} (start : token.span.start = s.input.offset)
    (written : token.kind ≠ .comma true) (behind : ∀ other ∈ later, s.input.offset ≤ other.span.start)
    (further : ∀ c ∈ more, s.input.offset < c.span.stop) (c : Comment) :
    c ∈ s.doc ↔ c ∈ s.comments ++ more ∧ c.Documents text (earlier ++ later) token := by
  have whole : text = passed ++ s.input.rest := h.passes.rest
  constructor
  · intro member
    have old := h.listed c member
    obtain ⟨before, gap, rfl, stop, _, documents⟩ := h.comments c old
    obtain ⟨alone, started, close⟩ := documents.mp member
    refine ⟨List.mem_append_left _ old, alone, written, start ▸ h.stop_le old, fun other inside real follows => ?_,
      before, gap, s.input.rest, whole, stop, by rw [start, h.offset], close⟩
    rcases List.mem_append.mp inside with inEarlier | inLater
    · have := started other inEarlier real
      omega
    · rw [start]
      exact behind other inLater
  · rintro ⟨member, documents⟩
    have follows := documents.follows
    rcases List.mem_append.mp member with old | new
    · obtain ⟨before, gap, rfl, stop, _, iff⟩ := h.comments c old
      refine iff.mpr ⟨documents.alone, fun other inside real => ?_, ?_⟩
      · by_contra past
        have := documents.first other (List.mem_append_left _ inside) real (Nat.le_of_not_lt past)
        have := h.started other inside real
        omega
      · obtain ⟨before', gap', after, split, stop', last, close⟩ := documents.close
        rw [start, h.offset] at last
        have same := (Text.append_inj_of_byteLength (whole.symm.trans split) last.symm).1
        rw [(Text.append_inj_of_byteLength same (stop.trans stop'.symm)).2]
        exact close
    · have := further c new
      omega

end Tracks

theorem Run.further (run : Run s tokens t) :
    ∃ more, t.comments = s.comments ++ more ∧ ∀ c ∈ more, s.input.offset < c.span.stop := by
  induction run with
  | ends => exact ⟨[], (List.append_nil _).symm, List.forall_mem_nil _⟩
  | @step s u t read tokens step _ ih =>
    obtain ⟨more, comments, further⟩ := ih
    have moves := step.offset_lt
    have later : ∀ c ∈ more, s.input.offset < c.span.stop := fun c member => Nat.lt_trans moves (further c member)
    cases step with
    | blank | line | token => exact ⟨more, comments, later⟩
    | comment here =>
      rw [comments_passComment, List.append_assoc] at comments
      refine ⟨_, comments, fun c member => ?_⟩
      rcases List.mem_append.mp member with new | member
      · split at new
        · rw [List.mem_singleton.mp new]
          rw [input_passComment] at moves
          exact moves
        · cases new
      · exact later c member

/-- Every token of a scan has the comments that document it, in their order. -/
theorem Run.documents (run : Run s tokens t) (h : Tracks text passed earlier s) : ∀ token ∈ tokens,
    (∀ c, c ∈ token.doc ↔ c ∈ t.comments ∧ c.Documents text (earlier ++ tokens) token) ∧
      token.doc.Pairwise fun c d => c.span.stop ≤ d.span.start := by
  have inserted (s : Scanner) (comments : List Comment) (tokens : List Token) :
      (∀ c, c ∈ s.insertedComma.doc ↔ c ∈ comments ∧ c.Documents text tokens s.insertedComma) ∧
        s.insertedComma.doc.Pairwise fun c d => c.span.stop ≤ d.span.start :=
    ⟨fun c => ⟨fun none => absurd none List.not_mem_nil, fun all => absurd rfl all.2.written⟩, .nil⟩
  induction run generalizing passed earlier with
  | @ends s here =>
    intro token member
    rcases eq_or_of_mem_end member with rfl | rfl
    · exact inserted s _ _
    · refine ⟨fun c => ?_, h.ordered⟩
      have starts : ∀ other ∈ s.commaDue ++ [s.endToken], s.input.offset ≤ other.span.start := by
        intro other inside
        rw [s.spans_of_end other inside]
        exact Nat.le_refl _
      have all : c ∈ s.doc ↔ c ∈ s.comments ++ [] ∧ c.Documents text _ s.endToken :=
        h.documents rfl TokenKind.noConfusion starts (List.forall_mem_nil _) c
      rwa [List.append_nil] at all
  | @step s u t read tokens step run ih =>
    intro token member
    obtain ⟨cs, tracks⟩ := h.step step
    rcases List.mem_append.mp member with inRead | inRest
    · have moves := step.offset_lt
      have starts := (Run.step step run).starts
      obtain ⟨more, comments, further⟩ := (Run.step step run).further
      cases step with
      | blank | comment => cases inRead
      | line =>
        rcases s.commaDue_cases with due | due <;> rw [due] at inRead
        · cases inRead
        · rw [List.mem_singleton.mp inRead]
          exact inserted s _ _
      | token _ written =>
        rw [List.mem_singleton.mp inRead]
        refine ⟨fun c => ?_, h.ordered⟩
        rw [comments]
        exact h.documents rfl written.2 starts further c
    · rw [← List.append_assoc]
      exact ih tracks token inRest

/-- Of the comments that stand between the tokens of a text, those of a token are the ones that document it, in their
    order, and no comment is one of two tokens. -/
theorem docs_document {text : String} {tokens : List Token} {t : Scanner}
    (h : (ofString text true).tokens = (.ok tokens, t)) :
    (∃ found, List.Forall₂ (fun gap comments => Filler text.toList gap.start gap.stop comments)
        (gaps 0 (byteLength text.toList) (tokens.filter (·.kind.Written))) found ∧
      ∀ token ∈ tokens, ∀ c, c ∈ token.doc ↔ c ∈ found.flatten ∧ c.Documents text.toList tokens token) ∧
    (∀ token ∈ tokens, token.doc.Pairwise fun c d => c.span.stop ≤ d.span.start) ∧
    (∀ token ∈ tokens, token.kind = .comma true → token.doc = []) ∧
    tokens.Pairwise fun first last => ∀ c ∈ first.doc, c ∉ last.doc := by
  have run := run_of_tokens h
  obtain ⟨found, kept, between⟩ := run.between (.refl ⟨text.toList, 0⟩)
  have docs := run.documents (tracks_ofString text)
  have documents : ∀ token ∈ tokens, ∀ c ∈ token.doc, c.Documents text.toList tokens token :=
    fun token member c inside => (((docs token member).1 c).mp inside).2
  refine ⟨⟨found, between, fun token member => ?_⟩, fun token member => (docs token member).2, ?_, ?_⟩
  · have all : t.comments = found.flatten := kept
    rw [← all]
    exact (docs token member).1
  · intro token member comma
    refine List.eq_nil_iff_forall_not_mem.mpr fun c inside => ?_
    exact (documents token member c inside).written comma
  · obtain ⟨init, last, rfl, _, _, inside⟩ := run.ends_text (.refl _)
    -- Of two tokens behind a comment it documents the first, which takes up some text, at most.
    have apart {first second : Token} (member : first ∈ init ++ [last]) (member' : second ∈ init ++ [last])
        (more : first.kind ≠ .eof) (before : first.span.stop ≤ second.span.start) :
        ∀ c ∈ first.doc, c ∉ second.doc := by
      intro c inFirst inSecond
      have documents₁ := documents first member c inFirst
      have documents₂ := documents second member' c inSecond
      have filled := run.filled first member ⟨more, documents₁.written⟩
      have notLater := documents₂.first first member documents₁.written documents₁.follows
      omega
    obtain ⟨ordered, _, beforeLast⟩ := List.pairwise_append.mp run.ordered
    refine List.pairwise_append.mpr ⟨?_, List.pairwise_singleton _ _, fun first member second member' => ?_⟩
    · exact ordered.imp_of_mem fun member member' =>
        apart (List.mem_append_left _ member) (List.mem_append_left _ member') (inside _ member)
    · exact apart (List.mem_append_left _ member) (List.mem_append_right _ member') (inside first member)
        (beforeLast first member second member')

/-- Comments above a token and above the end of the text, and others: behind a token, detached, and inside a literal. -/
theorem docs_document_arranged :
    let text := "// a\n\n// b\n  // c\nx: \"// d\" // e\n , // f\n// g"
    ∃ tokens t, ∃ found : List Comment, (ofString text true).tokens = (.ok tokens, t) ∧
      tokens.map (fun token => (token.kind, token.doc.map (·.text))) =
        [(.ident "x", ["b", "c"]), (.colon, []), (.string "// d", []), (.comma true, []), (.comma false, []),
          (.eof, ["g"])] ∧
      ∀ token ∈ tokens, ∀ c, c ∈ token.doc ↔ c ∈ found ∧ c.Documents text.toList tokens token := by
  intro text
  have docs : (ofString text true).tokens.1.toOption.map
      (List.map fun token => (token.kind, token.doc.map (·.text))) =
        some [(.ident "x", ["b", "c"]), (.colon, []), (.string "// d", []), (.comma true, []), (.comma false, []),
          (.eof, ["g"])] := by
    decide +kernel
  rcases read : (ofString text true).tokens with ⟨_ | tokens, t⟩ <;> rw [read] at docs
  · cases docs
  · obtain ⟨found, _, documents⟩ := (docs_document read).1
    exact ⟨tokens, t, found.flatten, rfl, Option.some.inj docs, documents⟩

end Scanner

end StackLattice.Syntax
