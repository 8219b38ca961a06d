import StackLattice.Proofs.Syntax.Lexemes

/-!
The kinds of the tokens of a text. They depend on the characters that are left and on whether a line break ends a
declaration, and on nothing else a scanner keeps.
-/

namespace StackLattice.Syntax

open Text (Input isBlank)

/-- The lexeme at the start of the characters is of a kind, and leaves characters behind it. -/
def Takes (cs : List Char) (kind : TokenKind) (left : List Char) : Prop :=
  ∀ i : Input, i.rest = cs → ∃ left' : Input, lexeme i = (.ok kind, left') ∧ left'.rest = left

theorem takes_of_lexeme {i left : Input} {kind : TokenKind} (read : lexeme i = (.ok kind, left))
    (filled : i.rest ≠ []) : Takes i.rest kind left.rest := by
  intro j same
  have same : j.rest = i.rest ++ [] := by rw [List.append_nil, same]
  obtain ⟨left', again, behind⟩ := lexeme_append moreLines_nil same filled read
  exact ⟨left', again, by rw [behind, List.append_nil]⟩

theorem Takes.append {cs left tail : List Char} {kind : TokenKind} (h : Takes cs kind left) (filled : cs ≠ [])
    (more : MoreLines tail) : Takes (cs ++ tail) kind (left ++ tail) := by
  intro j same
  obtain ⟨left', read, rfl⟩ := h ⟨cs, 0⟩ rfl
  exact lexeme_append more same filled read

/-- The kinds that are read between two places of a text. A place is given by the characters behind it and by whether
    a line break there ends a declaration. -/
inductive Lexes : Bool → List Char → List TokenKind → Bool → List Char → Prop
  | done {p : Bool} {cs : List Char} : Lexes p cs [] p cs
  | blank {p q : Bool} {c : Char} {cs rest : List Char} {ks : List TokenKind} : isBlank c = true → c ≠ '\n' →
    Lexes p cs ks q rest → Lexes p (c :: cs) ks q rest
  | inserted {q : Bool} {cs rest : List Char} {ks : List TokenKind} : Lexes false cs ks q rest →
    Lexes true ('\n' :: cs) (.comma true :: ks) q rest
  | line {q : Bool} {cs rest : List Char} {ks : List TokenKind} : Lexes false cs ks q rest →
    Lexes false ('\n' :: cs) ks q rest
  | comment {p q : Bool} {cs rest : List Char} {ks : List TokenKind} : Lexes p (cs.dropWhile (· ≠ '\n')) ks q rest →
    Lexes p ('/' :: '/' :: cs) ks q rest
  | token {p q : Bool} {c : Char} {cs left rest : List Char} {kind : TokenKind} {ks : List TokenKind} :
    isBlank c = false → Takes (c :: cs) kind left → Lexes kind.endsLine left ks q rest →
    Lexes p (c :: cs) (kind :: ks) q rest

namespace Lexes

variable {p q r : Bool} {cs left rest : List Char} {ks ls : List TokenKind}

theorem append (first : Lexes p cs ks q left) (last : Lexes q left ls r rest) : Lexes p cs (ks ++ ls) r rest := by
  induction first with
  | done => exact last
  | blank isBlank other _ ih => exact .blank isBlank other (ih last)
  | inserted _ ih => exact .inserted (ih last)
  | line _ ih => exact .line (ih last)
  | comment _ ih => exact .comment (ih last)
  | token solid takes _ ih => exact .token solid takes (ih last)

/-- What is read from a text is read from it also when more lines follow. -/
theorem longer (h : Lexes p cs ks q rest) {tail : List Char} (more : MoreLines tail) :
    Lexes p (cs ++ tail) ks q (rest ++ tail) := by
  induction h with
  | done => exact .done
  | blank isBlank other _ ih => exact .blank isBlank other ih
  | inserted _ ih => exact .inserted ih
  | line _ ih => exact .line ih
  | comment _ ih =>
    rw [← more.dropWhile_append (by simp)] at ih
    exact .comment ih
  | token solid takes _ ih => exact .token solid (takes.append (List.cons_ne_nil _ _) more) ih

/-- A second text behind a line break is read as it is alone. -/
theorem joined {second : List Char} (h : Lexes p cs ks q []) (next : Lexes false second ls r []) :
    Lexes p (cs ++ '\n' :: second) (ks ++ (if q then [.comma true] else []) ++ ls) r [] := by
  have first := h.longer (moreLines_cons second)
  rw [List.nil_append] at first
  rw [List.append_assoc]
  refine first.append ?_
  cases q with
  | false => exact .line next
  | true => exact .inserted next

end Lexes

/-- The kinds that end a text. -/
def ending (pendingComma : Bool) : List TokenKind := if pendingComma then [.comma true, .eof] else [.eof]

namespace Scanner

variable {s t : Scanner} {c : Char} {cs : List Char}

theorem next_end (here : s.input.rest = []) :
    s.next = if s.pendingComma then (.ok s.insertedComma, { s with pendingComma := false })
      else (.ok ⟨.eof, .point s.input.offset, s.doc⟩, { s with doc := [] }) := by
  unfold next
  split <;> simp_all

theorem next_line (here : s.input.rest = '\n' :: cs) :
    s.next = if s.pendingComma then (.ok s.insertedComma, s.passLine) else s.passLine.next := by
  conv => lhs; unfold next
  split <;> simp_all

theorem next_comment (here : s.input.rest = '/' :: '/' :: cs) : s.next = s.passComment.next := by
  conv => lhs; unfold next
  split <;> simp_all

theorem not_starts_comment (h : ∀ tail, c = '/' → cs = '/' :: tail → False) :
    ¬['/', '/'] <+: c :: cs := by
  rintro ⟨tail, same⟩
  cases same
  exact h tail rfl rfl

theorem next_other (here : s.input.rest = c :: cs) (line : c ≠ '\n') (comment : ¬['/', '/'] <+: c :: cs) :
    s.next = if isBlank c then { s with input := s.input.skip }.next else s.readToken := by
  conv => lhs; unfold next
  split <;> grind

theorem next_blank (here : s.input.rest = c :: cs) (blank : isBlank c = true) (other : c ≠ '\n') :
    s.next = { s with input := s.input.skip }.next := by
  rw [next_other here other, if_pos blank]
  intro comment
  cases (List.cons_prefix_cons.mp comment).1
  cases blank

/-- No lexeme starts with a slash. -/
theorem lexeme_slash {i : Input} (here : i.rest = '/' :: cs) :
    (lexeme i).1 = .error ⟨.unexpectedCharacter '/', .single i.offset⟩ := by
  unfold lexeme
  rw [here]
  rfl

theorem next_token {kind : TokenKind} {left : Input} (here : s.input.rest = c :: cs) (solid : isBlank c = false)
    (read : lexeme s.input = (.ok kind, left)) :
    s.next = (.ok ⟨kind, ⟨s.input.offset, left.offset⟩, s.doc⟩,
      { s with input := left, doc := [], lineHasContent := true, pendingComma := kind.endsLine }) := by
  rw [next_other here, solid, if_neg Bool.false_ne_true, readToken, read]
  · rintro rfl
    cases solid
  · intro comment
    cases (List.cons_prefix_cons.mp comment).1
    have fault := lexeme_slash here
    rw [read] at fault
    cases fault

theorem input_passComment (s : Scanner) : s.passComment.input = s.input.skipWhile (· ≠ '\n') := by
  unfold passComment
  split <;> rfl

theorem pendingComma_passComment (s : Scanner) : s.passComment.pendingComma = s.pendingComma := by
  unfold passComment
  split <;> rfl

theorem passComment_rest (here : s.input.rest = '/' :: '/' :: cs) :
    s.passComment.input.rest = cs.dropWhile (· ≠ '\n') ∧ s.passComment.pendingComma = s.pendingComma := by
  rw [input_passComment, Input.skipWhile, here]
  exact ⟨rfl, s.pendingComma_passComment⟩

/-- What a scanner reads is decided by its next token. -/
theorem tokens_of_next {token : Token} (h : s.next = (.ok token, t)) :
    s.tokens = if token.kind = .eof then (.ok [token], t) else (t.tokens.1.map (token :: ·), t.tokens.2) := by
  conv => lhs; unfold tokens
  split
  · rename_i fault
    cases h.symm.trans fault
  · rename_i found
    cases h.symm.trans found
    split <;> rfl

theorem tokens_of_fault {e : Located} (h : s.next = (.error e, t)) : s.tokens = (.error e, t) := by
  unfold tokens
  split
  · rename_i fault
    cases h.symm.trans fault
    rfl
  · rename_i found
    cases h.symm.trans found

theorem tokens_eq_of_next (same : s.next = t.next) : s.tokens = t.tokens := by
  rcases next : t.next with ⟨read, u⟩
  rw [next] at same
  cases read with
  | error e => rw [tokens_of_fault same, tokens_of_fault next]
  | ok token => rw [tokens_of_next same, tokens_of_next next]

end Scanner

/-- What a scanner reads up to the end of the text. -/
def Scanner.Reads (s : Scanner) (ks : List TokenKind) : Prop :=
  ∃ tokens t, s.tokens = (.ok tokens, t) ∧ tokens.map (·.kind) = ks

namespace Scanner.Reads

variable {s t : Scanner} {ks : List TokenKind} {token : Token}

theorem of_next (h : s.next = (.ok token, t)) (more : token.kind ≠ .eof) (rest : t.Reads ks) :
    s.Reads (token.kind :: ks) := by
  obtain ⟨tokens, last, read, rfl⟩ := rest
  refine ⟨token :: tokens, last, ?_, rfl⟩
  rw [tokens_of_next h, if_neg more, read]
  rfl

theorem of_end (h : s.next = (.ok token, t)) (eof : token.kind = .eof) : s.Reads [.eof] :=
  ⟨[token], t, by rw [tokens_of_next h, if_pos eof], by rw [List.map_singleton, eof]⟩

theorem of_same (same : s.next = t.next) (rest : t.Reads ks) : s.Reads ks := by
  obtain ⟨tokens, last, read, rfl⟩ := rest
  exact ⟨tokens, last, (tokens_eq_of_next same).trans read, rfl⟩

end Scanner.Reads

/-- From where a scanner is to where another one goes on as it would, with the kinds of the tokens between. -/
inductive Scanner.Gives : Scanner → List TokenKind → Scanner → Prop
  | done {s t : Scanner} : s.next = t.next → Gives s [] t
  | next {s u t : Scanner} {token : Token} {ks : List TokenKind} : s.next = (.ok token, u) → token.kind ≠ .eof →
    Gives u ks t → Gives s (token.kind :: ks) t

namespace Scanner.Gives

variable {s t u : Scanner} {ks ls : List TokenKind}

theorem of_same (same : s.next = u.next) (h : u.Gives ks t) : s.Gives ks t := by
  cases h with
  | done next => exact .done (same.trans next)
  | next read more rest => exact .next (same.trans read) more rest

theorem reads (h : s.Gives ks t) (rest : t.Reads ls) : s.Reads (ks ++ ls) := by
  induction h with
  | done same => exact .of_same same rest
  | next read more _ ih => exact .of_next read more (ih rest)

theorem split {k : TokenKind} (h : s.Gives (ks ++ k :: ls) t) :
    ∃ u token v, s.Gives ks u ∧ u.next = (.ok token, v) ∧ token.kind = k ∧ v.Gives ls t := by
  generalize whole : ks ++ k :: ls = all at h
  induction h generalizing ks with
  | done => exact (List.append_ne_nil_of_right_ne_nil ks (List.cons_ne_nil k ls) whole).elim
  | @next s _ _ token _ read more rest ih =>
    cases ks with
    | nil =>
      cases whole
      exact ⟨s, token, _, .done rfl, read, rfl, rest⟩
    | cons first ks =>
      obtain ⟨rfl, behind⟩ := List.cons.inj whole
      obtain ⟨u, found, v, gives, next, isKind, last⟩ := ih behind
      exact ⟨u, found, v, .next read more gives, next, isKind, last⟩

/-- The tokens in front of any token of a text are read before it. -/
theorem of_tokens {before rest : List Token} {token : Token} (h : s.tokens = (.ok (before ++ token :: rest), t)) :
    ∃ u v, s.Gives (before.map (·.kind)) u ∧ u.next = (.ok token, v) := by
  generalize whole : before ++ token :: rest = tokens at h
  fun_induction Scanner.tokens s generalizing before tokens t with
  | case1 => cases h
  | case2 s first u read eof =>
    cases h
    cases before with
    | nil =>
      cases whole
      exact ⟨s, _, .done rfl, read⟩
    | cons other before => cases before <;> cases whole
  | case3 s first u read more others last found ih =>
    cases others with
    | error e => cases h
    | ok others =>
      cases h
      cases before with
      | nil =>
        cases whole
        exact ⟨s, _, .done rfl, read⟩
      | cons other before =>
        obtain ⟨rfl, behind⟩ := List.cons.inj whole
        obtain ⟨v, w, gives, next⟩ := ih others behind found
        exact ⟨v, w, .next read more gives, next⟩

end Scanner.Gives

/-- The kinds of some text are given by every scanner in front of it. -/
theorem Lexes.gives {p q : Bool} {cs rest : List Char} {ks : List TokenKind} (h : Lexes p cs ks q rest) (s : Scanner)
    (here : s.input.rest = cs) (pending : s.pendingComma = p) :
    ∃ t, s.Gives ks t ∧ t.input.rest = rest ∧ t.pendingComma = q := by
  have same {s u : Scanner} {q : Bool} {rest : List Char} {ks : List TokenKind} (same : s.next = u.next)
      (behind : ∃ t, u.Gives ks t ∧ t.input.rest = rest ∧ t.pendingComma = q) :
      ∃ t, s.Gives ks t ∧ t.input.rest = rest ∧ t.pendingComma = q :=
    behind.imp fun _ found => ⟨found.1.of_same same, found.2⟩
  have next {s u : Scanner} {token : Token} {q : Bool} {rest : List Char} {ks : List TokenKind}
      (read : s.next = (.ok token, u)) (more : token.kind ≠ .eof)
      (behind : ∃ t, u.Gives ks t ∧ t.input.rest = rest ∧ t.pendingComma = q) :
      ∃ t, s.Gives (token.kind :: ks) t ∧ t.input.rest = rest ∧ t.pendingComma = q :=
    behind.imp fun _ found => ⟨.next read more found.1, found.2⟩
  induction h generalizing s with
  | done => exact ⟨s, .done rfl, here, pending⟩
  | blank isBlank other _ ih =>
    refine same (Scanner.next_blank here isBlank other) (ih _ ?_ pending)
    rw [Input.skip_rest, here, List.tail_cons]
  | inserted _ ih =>
    have step := Scanner.next_line here
    rw [pending, if_pos rfl] at step
    refine next step TokenKind.noConfusion (ih _ ?_ rfl)
    rw [Scanner.passLine, Input.skip_rest, here, List.tail_cons]
  | line _ ih =>
    have step := Scanner.next_line here
    rw [pending, if_neg Bool.false_ne_true] at step
    refine same step (ih _ ?_ rfl)
    rw [Scanner.passLine, Input.skip_rest, here, List.tail_cons]
  | comment _ ih =>
    obtain ⟨after, due⟩ := Scanner.passComment_rest here
    exact same (Scanner.next_comment here) (ih _ after (due.trans pending))
  | token solid takes _ ih =>
    obtain ⟨left', read, behind⟩ := takes s.input here
    exact next (Scanner.next_token here solid read) (lexeme_written here read).1 (ih _ behind rfl)

theorem Scanner.reads_end {s : Scanner} (here : s.input.rest = []) : s.Reads (ending s.pendingComma) := by
  have step := next_end here
  cases pending : s.pendingComma with
  | false =>
    rw [pending, if_neg Bool.false_ne_true] at step
    exact .of_end step rfl
  | true =>
    rw [pending, if_pos rfl] at step
    have last := next_end (s := { s with pendingComma := false }) here
    exact .of_next step TokenKind.noConfusion (.of_end last rfl)

/-- The kinds of a text are read as the tokens of it. -/
theorem Lexes.reads {p q : Bool} {cs : List Char} {ks : List TokenKind} (h : Lexes p cs ks q []) (s : Scanner)
    (here : s.input.rest = cs) (pending : s.pendingComma = p) : s.Reads (ks ++ ending q) := by
  obtain ⟨t, gives, ends, rfl⟩ := h.gives s here pending
  exact gives.reads (Scanner.reads_end ends)

/-- What is read with the next token: nothing before the end, the comma before the end, or the token itself. -/
inductive Scanner.Nexts (p : Bool) (cs : List Char) (kind : TokenKind) (t : Scanner) : Prop
  | ends : kind = .eof → Lexes p cs [] false [] → Nexts p cs kind t
  | closes : kind = .comma true → t.pendingComma = false → t.input.rest = [] → Lexes p cs [] true [] →
    Nexts p cs kind t
  | reads : kind ≠ .eof → Lexes p cs [kind] t.pendingComma t.input.rest → Nexts p cs kind t

theorem Scanner.Nexts.behind {p p' : Bool} {cs cs' : List Char} {kind : TokenKind} {t : Scanner}
    (h : Nexts p' cs' kind t)
    (passed : ∀ {ks q rest}, Lexes p' cs' ks q rest → Lexes p cs ks q rest) : Nexts p cs kind t := by
  cases h with
  | ends eof lexes => exact .ends eof (passed lexes)
  | closes comma pending rest lexes => exact .closes comma pending rest (passed lexes)
  | reads more lexes => exact .reads more (passed lexes)

theorem Scanner.nexts {s t : Scanner} {token : Token} (h : s.next = (.ok token, t)) :
    Nexts s.pendingComma s.input.rest token.kind t := by
  fun_induction next s with
  | case1 s rest pending =>
    cases h
    rw [pending, rest]
    exact .closes rfl rfl rest .done
  | case2 s rest pending =>
    cases h
    rw [Bool.eq_false_iff.mpr pending, rest]
    exact .ends rfl .done
  | case3 s cs rest pending =>
    cases h
    have behind : s.passLine.input.rest = cs := by rw [passLine, Input.skip_rest, rest, List.tail_cons]
    rw [pending, rest]
    exact .reads TokenKind.noConfusion (behind ▸ .inserted .done)
  | case4 s cs rest pending ih =>
    have behind : s.passLine.input.rest = cs := by rw [passLine, Input.skip_rest, rest, List.tail_cons]
    rw [Bool.eq_false_iff.mpr pending, rest]
    exact (ih h).behind (behind ▸ .line)
  | case5 s cs rest ih =>
    obtain ⟨behind, pending⟩ := passComment_rest rest
    rw [rest]
    refine (ih h).behind ?_
    rw [behind, pending]
    exact .comment
  | case6 s c cs line comment rest blank ih =>
    have behind : s.input.skip.rest = cs := by rw [Input.skip_rest, rest, List.tail_cons]
    rw [rest]
    refine (ih h).behind ?_
    rw [behind]
    exact .blank blank line
  | case7 s c cs line comment rest solid =>
    unfold readToken at h
    split at h
    · cases h
    · rename_i kind left read
      cases h
      have takes := takes_of_lexeme read (by simp [rest])
      rw [rest] at takes ⊢
      exact .reads (lexeme_written rest read).1 (.token (Bool.eq_false_iff.mpr solid) takes .done)

/-- The tokens of a text are of its kinds. -/
theorem lexes_of_tokens {s t : Scanner} {tokens : List Token} (h : s.tokens = (.ok tokens, t)) :
    ∃ ks q, Lexes s.pendingComma s.input.rest ks q [] ∧ tokens.map (·.kind) = ks ++ ending q := by
  fun_induction Scanner.tokens s generalizing tokens t with
  | case1 => cases h
  | case2 s token u next eof =>
    cases h
    cases Scanner.nexts next with
    | ends _ lexes => exact ⟨[], false, lexes, by rw [List.map_singleton, eof]; rfl⟩
    | closes comma _ _ _ => cases eof.symm.trans comma
    | reads more _ => exact absurd eof more
  | case3 s token u next more others last rest ih =>
    cases others with
    | error e => cases h
    | ok tokens =>
      cases h
      obtain ⟨ks, q, lexes, kinds⟩ := ih rest
      cases Scanner.nexts next with
      | ends eof _ => exact absurd eof more
      | closes comma pending rest lexes' =>
        rw [pending, rest] at lexes
        cases lexes
        exact ⟨[], true, lexes', by rw [List.map_cons, comma, kinds]; rfl⟩
      | reads _ lexes' => exact ⟨token.kind :: ks, q, lexes'.append lexes, by rw [List.map_cons, kinds]; rfl⟩

end StackLattice.Syntax
