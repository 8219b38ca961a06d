import StackLattice.Proofs.Syntax.Accepted
import StackLattice.Proofs.Syntax.Bare
import StackLattice.Proofs.Syntax.Gaps
import StackLattice.Proofs.Syntax.LineEndings

/-!
A text next to the same text with a carriage return in front of every line feed. Its tokens and comments are the same,
but for the carriage returns between the quotes of literals over several lines.
-/

namespace StackLattice.Syntax

open Text (Input isBlank byteLength crlf rebroken)
open Text.Input (Passes Reaches)

/-- A token of a text and the token that stands for it in the other text. -/
structure Token.Rebroken (text : String) (token token' : Token) : Prop where
  kind : token.kind.Rebroken (blockBody (token.span.slice text).toList) token'.kind
  doc : token'.doc.map (·.text) = token.doc.map (·.text)

/-- Scanners at the same place of the two texts, which have read the same so far. -/
structure Scanner.Facing (text : String) (s s' : Scanner) : Prop where
  within : Reaches ⟨text.toList, 0⟩ s.input
  input : Text.Facing s.input.rest s'.input.rest
  keepComments : s'.keepComments = s.keepComments
  pendingComma : s'.pendingComma = s.pendingComma
  lineHasContent : s'.lineHasContent = s.lineHasContent
  doc : s'.doc.map (·.text) = s.doc.map (·.text)
  comments : s'.comments.map (·.text) = s.comments.map (·.text)

theorem TokenKind.Rebroken.eof_iff {body : List (List Char)} {kind kind' : TokenKind} (h : kind.Rebroken body kind') :
    kind' = .eof ↔ kind = .eof := by
  cases h with
  | plain => exact Iff.rfl
  | block => simp

theorem TokenKind.Rebroken.endsLine {body : List (List Char)} {kind kind' : TokenKind} (h : kind.Rebroken body kind') :
    kind'.endsLine = kind.endsLine := by
  cases h <;> rfl

theorem trimEnd_return (cs : List Char) : Text.trimEnd (cs ++ ['\r']) = Text.trimEnd cs := by
  rw [Text.trimEnd, List.reverse_append, List.reverse_singleton, List.singleton_append,
    List.dropWhile_cons_of_pos (by decide)]
  rfl

namespace Scanner

variable {text : String} {s s' : Scanner}

theorem commentText_return (body : List Char) :
    commentText ('/' :: '/' :: (body ++ ['\r'])) = commentText ('/' :: '/' :: body) := by
  have other {body : List Char} (first : body.head? ≠ some ' ') :
      commentText ('/' :: '/' :: body) = String.ofList (Text.trimEnd body) := by
    unfold commentText
    cases body with
    | nil => rfl
    | cons c body =>
      have ne : c ≠ ' ' := by simpa using first
      dsimp only [List.drop]
      split
      · rename_i same
        exact absurd (List.cons.inj same).1 ne
      · rfl
  cases body with
  | nil => decide
  | cons c body =>
    by_cases space : c = ' '
    · subst space
      exact congrArg String.ofList (trimEnd_return body)
    · rw [other (by simpa using space), other (by simpa using space), trimEnd_return]

theorem blockBody_point {i : Input} (within : Reaches ⟨text.toList, 0⟩ i) :
    blockBody ((Span.point i.offset).slice text).toList = [] := by
  obtain ⟨before, whole, offset⟩ := exists_before within
  have split : text.toList = before ++ [] ++ i.rest := by simpa using whole
  have slice := Span.slice_eq split
  rw [Text.byteLength_nil, Nat.add_zero, ← offset] at slice
  rw [Span.point, slice, String.toList_ofList]
  rfl

theorem lineHasContent_passComment (s : Scanner) :
    s.passComment.lineHasContent = (s.lineHasContent || s.keepComments) := by
  unfold passComment
  cases s.keepComments <;> simp

theorem doc_passComment (s : Scanner) :
    s.passComment.doc = if s.keepComments && !s.lineHasContent then s.doc ++ [s.commentHere] else s.doc := by
  unfold passComment
  cases s.keepComments <;> cases s.lineHasContent <;> rfl

/-- The next token is the same, and so is what is behind it. -/
def Onward (text : String) (token : Token) (t : Scanner) (token' : Token) (t' : Scanner) : Prop :=
  token.Rebroken text token' ∧ t.Facing text t'

/-- All tokens are the same, and all comments. -/
def Reread (text : String) (tokens : List Token) (t : Scanner) (tokens' : List Token) (t' : Scanner) : Prop :=
  List.Forall₂ (Token.Rebroken text) tokens tokens' ∧ t'.comments.map (·.text) = t.comments.map (·.text)

namespace Facing

variable (h : s.Facing text s')

include h

theorem insertedComma : s.insertedComma.Rebroken text s'.insertedComma :=
  ⟨.plain (blockBody_point h.within), rfl⟩

theorem endToken : s.endToken.Rebroken text s'.endToken := ⟨.plain (blockBody_point h.within), h.doc⟩

theorem at_end (here : s.input.rest = []) : s'.input.rest = [] := by
  rcases h.input with same | ⟨rest, line, _⟩
  · rw [same, here, Text.crlf_nil]
  · cases here.symm.trans line

theorem at_char {c : Char} {cs : List Char} (here : s.input.rest = c :: cs) (other : c ≠ '\n') :
    s'.input.rest = crlf s.input.rest ∧ s'.input.rest = c :: crlf cs := by
  rcases h.input with same | ⟨rest, line, _⟩
  · exact ⟨same, by rw [same, here, Text.crlf_cons other]⟩
  · cases here.symm.trans line
    exact absurd rfl other

/-- In front of a line break, the other scanner passes over the carriage return, if it has not yet. -/
theorem at_line {cs : List Char} (here : s.input.rest = '\n' :: cs) :
    ∃ u, s'.next = u.next ∧ u.input.rest = '\n' :: crlf cs ∧ s.Facing text u := by
  rcases h.input with same | ⟨rest, line, line'⟩
  · have here' : s'.input.rest = '\r' :: '\n' :: crlf cs := by rw [same, here, Text.crlf_newline]
    have behind : s'.input.skip.rest = '\n' :: crlf cs := by rw [Input.skip_rest, here', List.tail_cons]
    exact ⟨_, next_blank here' (by decide) (by decide), behind, { h with input := .inr ⟨cs, here, behind⟩ }⟩
  · cases here.symm.trans line
    exact ⟨s', rfl, line', h⟩

theorem skip {c : Char} {cs : List Char} (here : s.input.rest = c :: cs) (other : c ≠ '\n') :
    Facing text { s with input := s.input.skip } { s' with input := s'.input.skip } := by
  have here' := (h.at_char here other).2
  refine { h with within := h.within.trans (Input.reaches_skip _), input := .inl ?_ }
  show s'.input.skip.rest = crlf s.input.skip.rest
  rw [Input.skip_rest, Input.skip_rest, here, here', List.tail_cons, List.tail_cons]

theorem passLine {cs : List Char} (here : s.input.rest = '\n' :: cs) (here' : s'.input.rest = '\n' :: crlf cs) :
    s.passLine.Facing text s'.passLine := by
  refine ⟨h.within.trans (Input.reaches_skip _), .inl ?_, h.keepComments, rfl, rfl, ?_, h.comments⟩
  · show s'.input.skip.rest = crlf s.input.skip.rest
    rw [Input.skip_rest, Input.skip_rest, here, here', List.tail_cons, List.tail_cons]
  · unfold Scanner.passLine
    dsimp only
    rw [h.lineHasContent]
    split
    · exact h.doc
    · rfl

theorem commentHere {cs : List Char} (here : s.input.rest = '/' :: '/' :: cs) :
    s'.commentHere.text = s.commentHere.text := by
  have same := (h.at_char here (by decide)).1
  have body : s.input.rest.takeWhile (· ≠ '\n') = '/' :: '/' :: cs.takeWhile (· ≠ '\n') := by
    rw [here]
    rfl
  rw [Scanner.commentHere, Scanner.commentHere]
  rcases Text.firstLine_crlf s.input.rest with ⟨_, plain⟩ | ⟨rest, _, _, ofLine⟩
  · rw [same, plain]
  · rw [same, ofLine, body]
    exact commentText_return _

theorem passComment {cs : List Char} (here : s.input.rest = '/' :: '/' :: cs) :
    s.passComment.Facing text s'.passComment := by
  have comment := h.commentHere here
  constructor
  · rw [input_passComment]
    exact h.within.trans (Input.reaches_skipWhile _ _)
  · rw [input_passComment, input_passComment]
    exact h.input.dropWhile (by decide) (by decide)
  · rw [keepComments_passComment, keepComments_passComment, h.keepComments]
  · rw [pendingComma_passComment, pendingComma_passComment, h.pendingComma]
  · rw [lineHasContent_passComment, lineHasContent_passComment, h.lineHasContent, h.keepComments]
  · rw [doc_passComment, doc_passComment, h.keepComments, h.lineHasContent]
    split
    · rw [List.map_append, List.map_append, h.doc, List.map_singleton, List.map_singleton, comment]
    · exact h.doc
  · rw [comments_passComment, comments_passComment, h.keepComments, List.map_append, List.map_append, h.comments]
    split
    · rw [List.map_singleton, List.map_singleton, comment]
    · rfl

theorem readToken {c : Char} {cs : List Char} (returnless : '\r' ∉ text.toList) (here : s.input.rest = c :: cs)
    (other : c ≠ '\n') : Together (Onward text) s.readToken s'.readToken := by
  obtain ⟨before, whole, start⟩ := exists_before h.within
  rw [whole, List.mem_append, not_or] at returnless
  have reached := reaches_lexeme s.input
  have together := lexeme_crlf (h.at_char here other).1 returnless.2 here other
  unfold Scanner.readToken
  generalize lexeme s.input = r, lexeme s'.input = r' at reached together
  cases together with
  | fault => exact .fault
  | @ok kind kind' left left' both =>
    obtain ⟨behind, cs, passes, rebroken⟩ := both
    have slice : Span.slice ⟨s.input.offset, left.offset⟩ text = String.ofList cs := by
      rw [passes.offset, start]
      exact Span.slice_eq (by rw [whole, passes.rest, List.append_assoc])
    refine .ok ⟨⟨?_, h.doc⟩, h.within.trans reached, .inl behind, h.keepComments, rebroken.endsLine, rfl, rfl,
      h.comments⟩
    show kind.Rebroken (blockBody (Span.slice ⟨s.input.offset, left.offset⟩ text).toList) kind'
    rwa [slice, String.toList_ofList]

theorem next (returnless : '\r' ∉ text.toList) : Together (Onward text) s.next s'.next := by
  fun_induction Scanner.next s generalizing s' with
  | case1 s here pending =>
    rw [next_end (h.at_end here), h.pendingComma, if_pos pending]
    exact .ok ⟨h.insertedComma, { h with pendingComma := rfl }⟩
  | case2 s here pending =>
    rw [next_end (h.at_end here), h.pendingComma, if_neg pending]
    exact .ok ⟨h.endToken, { h with pendingComma := rfl, doc := rfl }⟩
  | case3 s cs here pending =>
    obtain ⟨u, same, here', facing⟩ := h.at_line here
    rw [same, next_line here', facing.pendingComma, if_pos pending]
    exact .ok ⟨facing.insertedComma, facing.passLine here here'⟩
  | case4 s cs here pending ih =>
    obtain ⟨u, same, here', facing⟩ := h.at_line here
    rw [same, next_line (s := u) here', facing.pendingComma, if_neg pending]
    exact ih (facing.passLine here here')
  | case5 s cs here ih =>
    have here' := (h.at_char here (by decide)).2
    rw [Text.crlf_cons (by decide)] at here'
    rw [next_comment (s := s') here']
    exact ih (h.passComment here)
  | case6 s c cs line comment here blank ih =>
    rw [next_blank (s := s') (h.at_char here line).2 blank line]
    exact ih (h.skip here line)
  | case7 s c cs line comment here solid =>
    have comment' : ¬['/', '/'] <+: c :: crlf cs := by
      rw [← Text.crlf_cons line, Text.prefix_crlf_iff (by decide) (by decide)]
      exact not_starts_comment comment
    rw [next_other (s := s') (h.at_char here line).2 line comment', if_neg solid]
    exact h.readToken returnless here line

theorem tokens (returnless : '\r' ∉ text.toList) : Together (Scanner.Reread text) s.tokens s'.tokens := by
  have step := h.next returnless
  fun_induction Scanner.tokens s generalizing s' with
  | case1 s e t read =>
    obtain ⟨e', t', read'⟩ := Together.of_fault (read ▸ step)
    rw [tokens_of_fault read']
    exact .fault
  | case2 s token t read eof =>
    obtain ⟨token', t', read', first, behind⟩ := Together.of_ok (read ▸ step)
    rw [tokens_of_next read', if_pos (first.kind.eof_iff.mpr eof)]
    exact .ok ⟨.cons first .nil, behind.comments⟩
  | case3 s token t read more rest last others ih =>
    obtain ⟨token', t', read', first, behind⟩ := Together.of_ok (read ▸ step)
    have later := ih behind (behind.next returnless)
    rw [others] at later
    rw [tokens_of_next read', if_neg (first.kind.eof_iff.not.mpr more)]
    generalize t'.tokens = r' at later ⊢
    cases later with
    | fault => exact .fault
    | ok both => exact .ok ⟨.cons first both.1, both.2⟩

end Facing

end Scanner

section Files

variable {text : String} {keep : Bool}

/-- Between the quotes of every literal over several lines there are blank lines only. -/
def Unfilled (text : String) (keep : Bool) : Prop :=
  ∀ tokens t, (Scanner.ofString text keep).tokens = (.ok tokens, t) →
    ∀ token ∈ tokens, ∀ line ∈ blockBody (token.span.slice text).toList, line.all isBlank = true

/-- There are no such literals in a text without three quotes in a row. -/
theorem unfilled_of_unquoted (unquoted : ¬quotes <:+: text.toList) (keep : Bool) : Unfilled text keep := by
  intro tokens t _ token _ line inside
  have other : ¬quotes <+: (token.span.slice text).toList := fun starts =>
    unquoted (starts.isInfix.trans (token.span.slice_infix text))
  rw [blockBody_of_unquoted other] at inside
  cases inside

theorem zipWith_withReturn {body texts : List (List Char)} (length : texts.length = body.length)
    (blank : ∀ line ∈ body, line.all isBlank) : List.zipWith withReturn body texts = texts := by
  induction body generalizing texts with
  | nil => rw [List.eq_nil_of_length_eq_zero length, List.zipWith_nil_left]
  | cons line body ih =>
    obtain ⟨text, texts, rfl⟩ := List.exists_cons_of_length_eq_add_one length
    obtain ⟨here, later⟩ := List.forall_mem_cons.mp blank
    rw [List.zipWith_cons_cons, ih (Nat.succ.inj length) later, withReturn, if_pos here]

theorem TokenKind.Rebroken.eq_of_blank {body : List (List Char)} {kind kind' : TokenKind} (h : kind.Rebroken body kind')
    (blank : ∀ line ∈ body, line.all isBlank) : kind' = kind := by
  cases h with
  | plain => rfl
  | block length => rw [zipWith_withReturn length blank]

theorem tokens_rebroken (keep : Bool) (returnless : '\r' ∉ text.toList) :
    Together (Scanner.Reread text) (Scanner.ofString text keep).tokens
      (Scanner.ofString (rebroken text) keep).tokens := by
  have start : (Scanner.ofString text keep).Facing text (Scanner.ofString (rebroken text) keep) :=
    ⟨.refl _, .inl (String.toList_ofList ..), rfl, rfl, rfl, rfl, rfl⟩
  exact start.tokens returnless

theorem Scanner.Reread.alike {tokens tokens' : List Token} {t t' : Scanner} (h : Reread text tokens t tokens' t')
    (blank : ∀ token ∈ tokens, ∀ line ∈ blockBody (token.span.slice text).toList, line.all isBlank = true) :
    Alike tokens tokens' := by
  obtain ⟨rebroken, -⟩ := h
  induction rebroken with
  | nil => rfl
  | cons first _ ih =>
    obtain ⟨here, later⟩ := List.forall_mem_cons.mp blank
    exact congrArg₂ List.cons (first.kind.eq_of_blank here).symm (ih later)

/-- Without filled lines in literals the kinds of the tokens are the same. -/
theorem kinds_rebroken (returnless : '\r' ∉ text.toList) (unfilled : Unfilled text keep) :
    Together (fun tokens t tokens' t' => Alike tokens tokens' ∧ t'.comments.map (·.text) = t.comments.map (·.text))
      (Scanner.ofString text keep).tokens (Scanner.ofString (rebroken text) keep).tokens := by
  have scanned := tokens_rebroken keep returnless
  rcases read : (Scanner.ofString text keep).tokens with ⟨_ | tokens, t⟩ <;> rw [read] at scanned
  · obtain ⟨e', t', read'⟩ := scanned.of_fault
    rw [read']
    exact .fault
  · obtain ⟨tokens', t', read', reread⟩ := scanned.of_ok
    rw [read']
    exact .ok ⟨reread.alike (unfilled tokens t read), reread.2⟩

/-- A text is accepted with carriage returns if it is without them, and as the same tree but for places. -/
theorem File.ofSource_rebroken (path : String) (returnless : '\r' ∉ text.toList) (unfilled : Unfilled text keep)
    (revision : Revision) :
    Option.Rel (fun f f' => f'.bare = f.bare ∧ f'.comments.map (·.text) = f.comments.map (·.text))
      (File.ofSource ⟨path, text⟩ revision keep).toOption
      (File.ofSource ⟨path, rebroken text⟩ revision keep).toOption := by
  have scanned := kinds_rebroken returnless unfilled
  cases accepted : File.ofSource ⟨path, text⟩ revision keep with
  | ok f =>
    obtain ⟨tokens, t, tree, read, derived, rfl⟩ := File.exists_derived accepted
    rw [read] at scanned
    obtain ⟨tokens', t', read', alike, comments⟩ := scanned.of_ok
    obtain ⟨tree', derived', same⟩ := derived.alike alike
    have accepted' : File.ofSource ⟨path, rebroken text⟩ revision keep = .ok { tree' with comments := t'.comments } :=
      File.ofSource_of_derived read' derived'
    rw [accepted']
    exact .some ⟨same.symm, comments⟩
  | error e =>
    cases accepted' : File.ofSource ⟨path, rebroken text⟩ revision keep with
    | error e' => exact .none
    | ok f' =>
      obtain ⟨tokens', t', tree', read', derived', rfl⟩ := File.exists_derived accepted'
      rcases read : (Scanner.ofString text keep).tokens with ⟨_ | tokens, t⟩ <;> rw [read] at scanned
      · obtain ⟨e', s', failed⟩ := scanned.of_fault
        cases read'.symm.trans failed
      · obtain ⟨again, t'', read'', alike, -⟩ := scanned.of_ok
        cases read'.symm.trans read''
        obtain ⟨tree, derived, -⟩ := derived'.alike alike.symm
        have accepted' : File.ofSource ⟨path, text⟩ revision keep = .ok { tree with comments := t.comments } :=
          File.ofSource_of_derived read derived
        cases accepted.symm.trans accepted'

end Files

end StackLattice.Syntax
