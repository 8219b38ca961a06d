import StackLattice.Syntax.Progress

/-!
The scanner: tokens of a text one at a time, with a comma inserted at each line break that ends a
declaration and with comments collected beside the tokens. It can go on after a fault and after the
end of the text.
-/

namespace StackLattice.Syntax

open Text (Input isBlank)

structure Scanner where
  input : Input
  keepComments : Bool
  /-- A line break here ends a declaration. -/
  pendingComma : Bool := false
  /-- Something other than blanks was seen on the current line. -/
  lineHasContent : Bool := false
  /-- Comments on lines of their own since the last token or blank line. -/
  doc : List Comment := []
  /-- Every comment so far. -/
  comments : List Comment := []

namespace Scanner

def ofString (text : String) (keepComments : Bool) : Scanner :=
  { input := .ofString text, keepComments }

/-- Text of a comment, given with its slashes. -/
def commentText (raw : List Char) : String :=
  let body := match raw.drop 2 with
    | ' ' :: rest => rest
    | rest => rest
  String.ofList (Text.trimEnd body)

def passComment (s : Scanner) : Scanner :=
  let after := s.input.skipWhile (· ≠ '\n')
  if s.keepComments then
    let comment : Comment :=
      ⟨commentText (s.input.rest.takeWhile (· ≠ '\n')), ⟨s.input.offset, after.offset⟩⟩
    { s with
      input := after
      doc := if s.lineHasContent then s.doc else s.doc ++ [comment]
      lineHasContent := true
      comments := s.comments ++ [comment] }
  else { s with input := after }

/-- Passes over a line break; a line without content detaches the comments above it. -/
def passLine (s : Scanner) : Scanner :=
  { s with
    input := s.input.skip
    doc := if s.lineHasContent then s.doc else []
    lineHasContent := false
    pendingComma := false }

def insertedComma (s : Scanner) : Token := ⟨.comma true, .point s.input.offset, []⟩

/-- Reads the lexeme that starts here. -/
def readToken (s : Scanner) : Except Located Token × Scanner :=
  match lexeme s.input with
  | (.error e, left) => (.error e, { s with input := left })
  | (.ok kind, left) =>
    (.ok ⟨kind, ⟨s.input.offset, left.offset⟩, s.doc⟩,
      { s with input := left, doc := [], lineHasContent := true, pendingComma := kind.endsLine })

theorem passComment_length_lt {s : Scanner} {c : Char} {cs : List Char}
    (h : s.input.rest = c :: cs) (ne : c ≠ '\n') :
    s.passComment.input.rest.length < s.input.rest.length := by
  have shorter : (s.input.skipWhile (· ≠ '\n')).rest.length < s.input.rest.length := by
    have := (List.dropWhile_suffix (l := cs) (· ≠ '\n')).length_le
    simp only [Input.skipWhile, h, List.dropWhile_cons, decide_eq_true ne, if_true, List.length_cons]
    omega
  unfold passComment
  split <;> exact shorter

def next (s : Scanner) : Except Located Token × Scanner :=
  match _h : s.input.rest with
  | [] =>
    if s.pendingComma then (.ok s.insertedComma, { s with pendingComma := false })
    else (.ok ⟨.eof, .point s.input.offset, s.doc⟩, { s with doc := [] })
  | '\n' :: _ => if s.pendingComma then (.ok s.insertedComma, s.passLine) else next s.passLine
  | '/' :: '/' :: _ => next s.passComment
  | c :: _ =>
    if isBlank c then next { s with input := s.input.skip } else s.readToken
termination_by s.input.rest.length
decreasing_by
  · simp [passLine, Input.skip_rest, _h]
  · exact passComment_length_lt _h (by decide)
  · simp [Input.skip_rest, _h]

/-- What is left to do: two steps for each character, and one for a comma that may be inserted. -/
def remaining (s : Scanner) : Nat := 2 * s.input.rest.length + s.pendingComma.toNat

theorem next_remaining_lt {s t : Scanner} {token : Token} (h : s.next = (.ok token, t))
    (more : token.kind ≠ .eof) : t.remaining < s.remaining := by
  fun_induction next s with
  | case1 s rest pending =>
    cases h
    simp [remaining, rest, pending]
  | case2 s rest pending =>
    cases h
    exact absurd rfl more
  | case3 s _ rest pending =>
    cases h
    simp only [remaining, passLine, Input.skip_rest, rest, List.tail_cons, List.length_cons]
    simp only [Bool.toNat_false]
    omega
  | case4 s _ rest pending ih =>
    have := ih h
    simp only [remaining, passLine, Input.skip_rest, rest, List.tail_cons, List.length_cons] at this ⊢
    simp only [Bool.toNat_false] at this
    omega
  | case5 s _ rest ih =>
    have step := ih h
    have shorter := passComment_length_lt rest (by decide)
    have bound := Bool.toNat_le s.passComment.pendingComma
    simp only [remaining] at step ⊢
    omega
  | case6 s c cs _ _ rest _ ih =>
    have := ih h
    simp only [remaining, Input.skip_rest, rest, List.tail_cons, List.length_cons] at this ⊢
    omega
  | case7 s c cs _ _ rest _ =>
    unfold readToken at h
    split at h
    · cases h
    · rename_i kind left read
      have := lexeme_length_lt rest read
      cases h
      have bound := Bool.toNat_le kind.endsLine
      simp only [remaining] at *
      omega

/-- All tokens up to the end of the text, the last of them being its end, or the first fault. -/
def tokens (s : Scanner) : Except Located (List Token) × Scanner :=
  match _h : s.next with
  | (.error e, t) => (.error e, t)
  | (.ok token, t) =>
    if _more : token.kind = .eof then (.ok [token], t)
    else
      let (rest, last) := tokens t
      (rest.map (token :: ·), last)
termination_by s.remaining
decreasing_by exact next_remaining_lt _h _more

end Scanner

end StackLattice.Syntax
