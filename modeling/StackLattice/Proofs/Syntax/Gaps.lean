import StackLattice.Proofs.Syntax.Scan

/-!
Tokenizing loses nothing. The tokens of a text stand in it one behind the other, and before, between and behind them
there are only blanks and comments.
-/

namespace StackLattice.Syntax

open Text (Input isBlank byteLength Boundary)
open Text.Input (Passes Reaches)

/-- What is left of a text before, between and behind tokens that stand in it. -/
def gaps (start stop : Nat) : List Token → List Span
  | [] => [⟨start, stop⟩]
  | token :: tokens => ⟨start, token.span.start⟩ :: gaps token.span.stop stop tokens

/-- Between two offsets of a text there are only blanks, and comments that run to the end of their line. The comments
    are listed. -/
inductive Filler (text : List Char) : Nat → Nat → List Comment → Prop
  | done {stop : Nat} : Boundary text stop → Filler text stop stop []
  | blank {before after : List Char} {c : Char} {stop : Nat} {comments : List Comment} :
    text = before ++ c :: after → isBlank c = true → Filler text (byteLength before + c.utf8Size) stop comments →
    Filler text (byteLength before) stop comments
  | comment {before body after : List Char} {stop behind : Nat} {comments : List Comment} :
    text = before ++ ('/' :: '/' :: body) ++ after → '\n' ∉ body → MoreLines after →
    behind = byteLength before + byteLength ('/' :: '/' :: body) → Filler text behind stop comments →
    Filler text (byteLength before) stop
      (⟨Scanner.commentText ('/' :: '/' :: body), ⟨byteLength before, behind⟩⟩ :: comments)

/-- Tokens and comments that account for a whole text. -/
structure Covers (text : List Char) (tokens : List Token) (comments : List Comment) : Prop where
  aligned : ∀ token ∈ tokens, Boundary text token.span.start ∧ Boundary text token.span.stop
  filled : ∀ token ∈ tokens, token.kind.Written → token.span.start < token.span.stop
  ordered : tokens.Pairwise fun first last => first.span.stop ≤ last.span.start
  between : ∃ found, found.flatten = comments ∧
    List.Forall₂ (fun gap comments => Filler text gap.start gap.stop comments)
      (gaps 0 (byteLength text) (tokens.filter (·.kind.Written))) found
  inserted : ∀ token ∈ tokens, token.kind = .comma true → token.span.start = token.span.stop ∧
    (token.span.start = byteLength text ∨ ∃ gap ∈ gaps 0 (byteLength text) (tokens.filter (·.kind.Written)),
      gap.start ≤ token.span.start ∧ token.span.start < gap.stop)
  ends : ∃ init last, tokens = init ++ [last] ∧ last.kind = .eof ∧ last.span = .point (byteLength text) ∧
    ∀ token ∈ init, token.kind ≠ .eof

section Places

variable {text : List Char} {i j : Input}

/-- A place of a text stands behind as many bytes as its offset says. -/
theorem exists_before (within : Reaches ⟨text, 0⟩ i) :
    ∃ before, text = before ++ i.rest ∧ i.offset = byteLength before := by
  obtain ⟨before, rest, offset⟩ := within
  exact ⟨before, rest, by rw [offset, Nat.zero_add]⟩

theorem boundary_of_reaches (within : Reaches ⟨text, 0⟩ i) : Boundary text i.offset := by
  obtain ⟨before, whole, start⟩ := exists_before within
  exact ⟨before, i.rest, whole, start.symm⟩

theorem offset_le_of_reaches (h : Reaches i j) : i.offset ≤ j.offset := by
  obtain ⟨cs, passes⟩ := h
  rw [passes.offset]
  exact Nat.le_add_right _ _

theorem offset_le_length (within : Reaches ⟨text, 0⟩ i) : i.offset ≤ byteLength text := by
  obtain ⟨before, whole, start⟩ := exists_before within
  rw [start, whole, Text.byteLength_append]
  exact Nat.le_add_right _ _

theorem offset_at_end (within : Reaches ⟨text, 0⟩ i) (here : i.rest = []) : i.offset = byteLength text := by
  obtain ⟨before, whole, start⟩ := exists_before within
  rw [start, whole, here, List.append_nil]

theorem filler_blank {c : Char} {cs : List Char} {stop : Nat} {comments : List Comment} (within : Reaches ⟨text, 0⟩ i)
    (here : i.rest = c :: cs) (blank : isBlank c = true) (h : Filler text i.skip.offset stop comments) :
    Filler text i.offset stop comments := by
  obtain ⟨before, whole, start⟩ := exists_before within
  rw [here] at whole
  rw [(Input.passes_skip here).offset, start, Text.byteLength_cons, Text.byteLength_nil, Nat.add_zero] at h
  rw [start]
  exact .blank whole blank h

theorem filler_comment {s : Scanner} {cs : List Char} {stop : Nat} {comments : List Comment}
    (within : Reaches ⟨text, 0⟩ s.input) (here : s.input.rest = '/' :: '/' :: cs)
    (h : Filler text (s.input.skipWhile (· ≠ '\n')).offset stop comments) :
    Filler text s.input.offset stop (s.commentHere :: comments) := by
  obtain ⟨before, whole, start⟩ := exists_before within
  have body : s.input.rest.takeWhile (· ≠ '\n') = '/' :: '/' :: cs.takeWhile (· ≠ '\n') := by
    rw [here]
    rfl
  have passed := Input.passes_skipWhile (· ≠ '\n') s.input
  rw [body] at passed
  rw [Scanner.commentHere, body, start]
  refine .comment ?_ (lineless_takeWhile cs) (moreLines_dropWhile s.input.rest) (by rw [passed.offset, start]) h
  rw [List.append_assoc, whole]
  exact congrArg (before ++ ·) passed.rest

end Places

/-- Comments that are found before the first gap come before those of all gaps. -/
theorem fills_from {text : List Char} {start start' stop : Nat} {tokens : List Token} {found : List (List Comment)}
    (first : List Comment)
    (widens : ∀ {stop comments}, Filler text start' stop comments → Filler text start stop (first ++ comments))
    (h : List.Forall₂ (fun gap comments => Filler text gap.start gap.stop comments) (gaps start' stop tokens) found) :
    ∃ found', found'.flatten = first ++ found.flatten ∧
      List.Forall₂ (fun gap comments => Filler text gap.start gap.stop comments) (gaps start stop tokens) found' := by
  cases tokens with
  | nil =>
    obtain ⟨comments, _, filler, none, rfl⟩ := List.forall₂_cons_left_iff.mp h
    cases none
    exact ⟨[first ++ comments], by simp, .cons (widens filler) .nil⟩
  | cons token tokens =>
    obtain ⟨comments, others, filler, rest, rfl⟩ := List.forall₂_cons_left_iff.mp h
    exact ⟨(first ++ comments) :: others, by simp, .cons (widens filler) rest⟩

theorem exists_first_gap (start stop : Nat) (tokens : List Token) :
    ∃ behind, ⟨start, behind⟩ ∈ gaps start stop tokens ∧
      (behind = stop ∨ ∃ token ∈ tokens, behind = token.span.start) := by
  cases tokens with
  | nil => exact ⟨stop, List.mem_singleton_self _, .inl rfl⟩
  | cons token tokens => exact ⟨token.span.start, List.mem_cons_self, .inr ⟨token, List.mem_cons_self, rfl⟩⟩

theorem exists_gap_from {start start' stop : Nat} (earlier : start ≤ start') {tokens : List Token} {gap : Span}
    (member : gap ∈ gaps start' stop tokens) :
    ∃ gap' ∈ gaps start stop tokens, gap'.start ≤ gap.start ∧ gap'.stop = gap.stop := by
  cases tokens with
  | nil =>
    cases List.mem_singleton.mp member
    exact ⟨_, List.mem_singleton_self _, earlier, rfl⟩
  | cons token tokens =>
    rcases List.mem_cons.mp member with rfl | member
    · exact ⟨_, List.mem_cons_self, earlier, rfl⟩
    · exact ⟨gap, List.mem_cons_of_mem _ member, Nat.le_refl _, rfl⟩

namespace Scanner

variable {text : List Char} {s t u : Scanner} {read tokens : List Token}

theorem commaDue_cases (s : Scanner) : s.commaDue = [] ∨ s.commaDue = [s.insertedComma] := by
  unfold commaDue
  split
  · exact .inr rfl
  · exact .inl rfl

theorem eq_or_of_mem_end {token : Token} (member : token ∈ s.commaDue ++ [s.endToken]) :
    token = s.insertedComma ∨ token = s.endToken := by
  rcases List.mem_append.mp member with inDue | last
  · rcases s.commaDue_cases with due | due <;> rw [due] at inDue
    · cases inDue
    · exact .inl (List.mem_singleton.mp inDue)
  · exact .inr (List.mem_singleton.mp last)

theorem written_commaDue (s : Scanner) : s.commaDue.filter (·.kind.Written) = [] := by
  rcases s.commaDue_cases with due | due <;> rw [due] <;> rfl

theorem Step.offset_lt (h : Step s read u) : s.input.offset < u.input.offset := by
  have passing {cs : List Char} {j : Input} (filled : cs ≠ []) (passes : Passes cs s.input j) :
      s.input.offset < j.offset := by
    have := Text.byteLength_pos filled
    rw [passes.offset]
    omega
  cases h with
  | blank here | line here => exact passing (List.cons_ne_nil _ _) (Input.passes_skip here)
  | comment here =>
    rw [input_passComment]
    exact passing (by simp [here]) (Input.passes_skipWhile _ _)
  | token filled _ lexed =>
    obtain ⟨cs, some, passes⟩ := passes_of_lexeme filled lexed
    exact passing some passes

/-- A step reads nothing, a comma that is inserted where it starts, or the token that it passes over. -/
theorem Step.reads (h : Step s read u) :
    read = [] ∨ read = [s.insertedComma] ∨
      ∃ token, read = [token] ∧ token.kind.Written ∧ token.span = ⟨s.input.offset, u.input.offset⟩ ∧
        u.pendingComma = token.kind.endsLine := by
  cases h with
  | blank | comment => exact .inl rfl
  | line =>
    rcases s.commaDue_cases with due | due
    · exact .inl due
    · exact .inr (.inl due)
  | token _ written => exact .inr (.inr ⟨_, rfl, written, rfl, rfl⟩)

theorem Step.of_mem (h : Step s read u) {token : Token} (member : token ∈ read) :
    token = s.insertedComma ∨ token.kind.Written ∧ token.span = ⟨s.input.offset, u.input.offset⟩ := by
  rcases h.reads with rfl | rfl | ⟨found, rfl, written, span, _⟩
  · cases member
  · exact .inl (List.mem_singleton.mp member)
  · cases List.mem_singleton.mp member
    exact .inr ⟨written, span⟩

theorem Step.spans (h : Step s read u) : ∀ token ∈ read,
    token.span = .point s.input.offset ∨ token.span = ⟨s.input.offset, u.input.offset⟩ := by
  intro token member
  rcases h.of_mem member with rfl | ⟨_, span⟩
  · exact .inl rfl
  · exact .inr span

theorem spans_of_end (s : Scanner) : ∀ token ∈ s.commaDue ++ [s.endToken], token.span = .point s.input.offset := by
  intro token member
  rcases eq_or_of_mem_end member with rfl | rfl <;> rfl

theorem Run.starts (h : Run s tokens t) : ∀ token ∈ tokens, s.input.offset ≤ token.span.start := by
  induction h with
  | ends =>
    intro token member
    rw [spans_of_end _ token member]
    exact Nat.le_refl _
  | step step _ ih =>
    intro token member
    rcases List.mem_append.mp member with inRead | inRest
    · rcases step.spans token inRead with span | span <;> exact Nat.le_of_eq (congrArg Span.start span).symm
    · exact Nat.le_trans (Nat.le_of_lt step.offset_lt) (ih token inRest)

theorem Run.ordered (h : Run s tokens t) : tokens.Pairwise fun first last => first.span.stop ≤ last.span.start := by
  induction h with
  | @ends s here =>
    have points := s.spans_of_end
    refine List.pairwise_iff_forall_sublist.mpr fun {first last} pair => ?_
    rw [points first (pair.subset List.mem_cons_self),
      points last (pair.subset (List.mem_cons_of_mem _ List.mem_cons_self))]
    exact Nat.le_refl _
  | step step run ih =>
    refine List.pairwise_append.mpr ⟨?_, ih, fun first inRead last inRest => ?_⟩
    · rcases step.reads with rfl | rfl | ⟨token, rfl, _⟩
      · exact .nil
      · exact List.pairwise_singleton _ _
      · exact List.pairwise_singleton _ _
    · refine Nat.le_trans ?_ (run.starts last inRest)
      rcases step.spans first inRead with span | span
      · exact Nat.le_trans (Nat.le_of_eq (congrArg Span.stop span)) (Nat.le_of_lt step.offset_lt)
      · exact Nat.le_of_eq (congrArg Span.stop span)

theorem Run.aligned (h : Run s tokens t) (within : Reaches ⟨text, 0⟩ s.input) :
    ∀ token ∈ tokens, Boundary text token.span.start ∧ Boundary text token.span.stop := by
  have point {i : Input} {span : Span} (within : Reaches ⟨text, 0⟩ i) (same : span = .point i.offset) :
      Boundary text span.start ∧ Boundary text span.stop := by
    rw [same]
    exact ⟨boundary_of_reaches within, boundary_of_reaches within⟩
  induction h with
  | @ends s here => exact fun token member => point within (s.spans_of_end token member)
  | step step _ ih =>
    intro token member
    have further := within.trans step.reaches
    rcases List.mem_append.mp member with inRead | inRest
    · rcases step.spans token inRead with span | span
      · exact point within span
      · rw [span]
        exact ⟨boundary_of_reaches within, boundary_of_reaches further⟩
    · exact ih further token inRest

theorem Run.filled (h : Run s tokens t) :
    ∀ token ∈ tokens, token.kind.Written → token.span.start < token.span.stop := by
  induction h with
  | @ends s here =>
    intro token member written
    rcases eq_or_of_mem_end member with rfl | rfl
    · exact absurd rfl written.2
    · exact absurd rfl written.1
  | step step _ ih =>
    intro token member written
    rcases List.mem_append.mp member with inRead | inRest
    · rcases step.of_mem inRead with rfl | ⟨_, span⟩
      · exact absurd rfl written.2
      · rw [span]
        exact step.offset_lt
    · exact ih token inRest written

theorem filter_written {token : Token} (written : token.kind.Written) :
    [token].filter (·.kind.Written) = [token] := by
  simp [written]

/-- The tokens that stand in the text are read with the steps over them. -/
theorem Step.written (h : Step s read u) :
    read.filter (·.kind.Written) = [] ∨
      ∃ token, read.filter (·.kind.Written) = [token] ∧ token.span = ⟨s.input.offset, u.input.offset⟩ := by
  rcases h.reads with rfl | rfl | ⟨token, rfl, written, span, _⟩
  · exact .inl rfl
  · exact .inl rfl
  · exact .inr ⟨token, filter_written written, span⟩

theorem written_of_end (s : Scanner) : (s.commaDue ++ [s.endToken]).filter (·.kind.Written) = [] := by
  rcases s.commaDue_cases with due | due <;> rw [due] <;> rfl

theorem Run.between (h : Run s tokens t) (within : Reaches ⟨text, 0⟩ s.input) :
    ∃ found, t.comments = s.comments ++ (if s.keepComments then found.flatten else []) ∧
      List.Forall₂ (fun gap comments => Filler text gap.start gap.stop comments)
        (gaps s.input.offset (byteLength text) (tokens.filter (·.kind.Written))) found := by
  induction h with
  | @ends s here =>
    refine ⟨[[]], by simp, ?_⟩
    rw [written_of_end, offset_at_end within here]
    refine .cons (.done ?_) .nil
    exact ⟨text, [], by simp, rfl⟩
  | @step s u t read tokens step _ ih =>
    obtain ⟨found, comments, fills⟩ := ih (within.trans step.reaches)
    rw [List.filter_append]
    cases step with
    | blank here blank other =>
      obtain ⟨found', same, fills'⟩ := fills_from [] (filler_blank within here blank) fills
      exact ⟨found', by rw [comments, same]; rfl, fills'⟩
    | line here =>
      rw [written_commaDue]
      obtain ⟨found', same, fills'⟩ := fills_from [] (filler_blank within here (by decide)) fills
      exact ⟨found', by rw [comments, same]; rfl, fills'⟩
    | comment here =>
      rw [input_passComment] at fills
      obtain ⟨found', same, fills'⟩ := fills_from [s.commentHere] (filler_comment within here) fills
      refine ⟨found', ?_, fills'⟩
      rw [comments, comments_passComment, keepComments_passComment, same]
      split <;> simp
    | token filled written lexed =>
      refine ⟨[] :: found, comments, ?_⟩
      rw [filter_written written]
      exact .cons (.done (boundary_of_reaches within)) fills

theorem Run.inserted (h : Run s tokens t) (within : Reaches ⟨text, 0⟩ s.input) :
    ∀ token ∈ tokens, token.kind = .comma true → token.span.start = token.span.stop ∧
      (token.span.start = byteLength text ∨
        ∃ gap ∈ gaps s.input.offset (byteLength text) (tokens.filter (·.kind.Written)),
          gap.start ≤ token.span.start ∧ token.span.start < gap.stop) := by
  induction h with
  | @ends s here =>
    intro token member _
    rw [s.spans_of_end token member]
    exact ⟨rfl, .inl (offset_at_end within here)⟩
  | @step s u t read tokens step run ih =>
    have further := within.trans step.reaches
    have later {gap : Span} (member : gap ∈ gaps u.input.offset (byteLength text) (tokens.filter (·.kind.Written))) :
        ∃ gap' ∈ gaps s.input.offset (byteLength text) ((read ++ tokens).filter (·.kind.Written)),
          gap'.start ≤ gap.start ∧ gap'.stop = gap.stop := by
      rw [List.filter_append]
      rcases step.written with none | ⟨token, one, span⟩
      · rw [none]
        exact exists_gap_from (Nat.le_of_lt step.offset_lt) member
      · rw [one]
        refine ⟨gap, List.mem_cons_of_mem _ ?_, Nat.le_refl _, rfl⟩
        rw [span]
        exact member
    intro token member comma
    rcases List.mem_append.mp member with inRead | inRest
    · rcases step.reads with rfl | rfl | ⟨found, rfl, written, _⟩
      · cases inRead
      · -- The gap that the comma is inserted in goes on at least up to where the next step starts.
        cases List.mem_singleton.mp inRead
        obtain ⟨behind, first, bound⟩ :=
          exists_first_gap s.input.offset (byteLength text) (tokens.filter (·.kind.Written))
        refine ⟨rfl, .inr ⟨_, first, Nat.le_refl _, Nat.lt_of_lt_of_le step.offset_lt ?_⟩⟩
        rcases bound with rfl | ⟨next, inRest, rfl⟩
        · exact offset_le_length further
        · exact run.starts next (List.mem_filter.mp inRest).1
      · cases List.mem_singleton.mp inRead
        exact absurd comma written.2
    · obtain ⟨empty, place⟩ := ih further token inRest comma
      refine ⟨empty, place.imp_right fun ⟨gap, inside, notBefore, within⟩ => ?_⟩
      obtain ⟨gap', member', earlier, same⟩ := later inside
      exact ⟨gap', member', Nat.le_trans earlier notBefore, same ▸ within⟩

theorem Run.ends_text (h : Run s tokens t) (within : Reaches ⟨text, 0⟩ s.input) :
    ∃ init last, tokens = init ++ [last] ∧ last.kind = .eof ∧ last.span = .point (byteLength text) ∧
      ∀ token ∈ init, token.kind ≠ .eof := by
  induction h with
  | @ends s here =>
    refine ⟨s.commaDue, s.endToken, rfl, rfl, by rw [← offset_at_end within here]; rfl, fun token member => ?_⟩
    rcases s.commaDue_cases with due | due <;> rw [due] at member
    · cases member
    · cases List.mem_singleton.mp member
      exact TokenKind.noConfusion
  | @step s u t read tokens step _ ih =>
    obtain ⟨init, last, rfl, eof, place, others⟩ := ih (within.trans step.reaches)
    refine ⟨read ++ init, last, (List.append_assoc _ _ _).symm, eof, place, fun token member => ?_⟩
    rcases List.mem_append.mp member with inRead | inInit
    · rcases step.of_mem inRead with rfl | ⟨written, _⟩
      · exact TokenKind.noConfusion
      · exact written.1
    · exact others token inInit

/-- The tokens of a text and its comments account for the whole of it. -/
theorem tokens_cover {text : String} {keepComments : Bool} {tokens : List Token} {t : Scanner}
    (h : (ofString text keepComments).tokens = (.ok tokens, t)) :
    ∃ comments, Covers text.toList tokens comments ∧ t.comments = if keepComments then comments else [] := by
  have run := run_of_tokens h
  have within : Reaches ⟨text.toList, 0⟩ (ofString text keepComments).input := .refl _
  obtain ⟨found, comments, fills⟩ := run.between within
  refine ⟨found.flatten, ?_, comments⟩
  exact ⟨run.aligned within, run.filled, run.ordered, ⟨found, rfl, fills⟩, run.inserted within, run.ends_text within⟩

/-- A literal over several lines, commas inserted behind a comment and at the end, and three comments. -/
theorem tokens_cover_commented :
    let text := "// é\nport: \"\"\"\n  ü\n  \"\"\" // open\n\nload: 1.5e3 //"
    ∃ tokens t, (ofString text true).tokens = (.ok tokens, t) ∧
      tokens.map (·.span) = [⟨6, 10⟩, ⟨10, 11⟩, ⟨12, 26⟩, ⟨34, 34⟩, ⟨36, 40⟩, ⟨40, 41⟩, ⟨42, 47⟩, ⟨50, 50⟩, ⟨50, 50⟩] ∧
      t.comments.map (·.text) = ["é", "open", ""] ∧ Covers text.toList tokens t.comments := by
  intro text
  have spans : (ofString text true).tokens.1.toOption.map (List.map (·.span)) =
      some [⟨6, 10⟩, ⟨10, 11⟩, ⟨12, 26⟩, ⟨34, 34⟩, ⟨36, 40⟩, ⟨40, 41⟩, ⟨42, 47⟩, ⟨50, 50⟩, ⟨50, 50⟩] := by
    decide +kernel
  have comments : (ofString text true).tokens.2.comments.map (·.text) = ["é", "open", ""] := by decide +kernel
  rcases read : (ofString text true).tokens with ⟨_ | tokens, t⟩ <;> rw [read] at spans comments
  · cases spans
  · obtain ⟨found, covers, same⟩ := tokens_cover read
    rw [if_pos rfl] at same
    exact ⟨tokens, t, rfl, Option.some.inj spans, comments, same ▸ covers⟩

end Scanner

end StackLattice.Syntax
