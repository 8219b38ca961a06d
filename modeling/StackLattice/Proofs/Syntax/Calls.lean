import StackLattice.Proofs.Syntax.Positions
import StackLattice.Proofs.Syntax.Slices

/-!
Asking a scanner for token after token, also behind what it refuses and behind the end of the text. Each call is one of
the scanner by offsets, whose slices cut no character; it goes on and never back, and comes to rest only at a fault, at
a comma that is inserted and at the end.
-/

namespace StackLattice.Syntax

open Text (Input isBlank byteLength sliceBytes Boundary)
open Text.Input (Passes Reaches)
open Program

namespace Sliced

/-- What a scanner keeps that knows its place by an offset. -/
structure State where
  offset : Nat
  pendingComma : Bool
  lineHasContent : Bool
  doc : List Comment
  comments : List Comment

abbrev Scanning := Program State

def State.insertedComma (s : State) : Token := ⟨.comma true, .point s.offset, []⟩

/-- Reads at the place of a scanner. -/
def reading {α : Type} (r : Reading α) : Scanning α := fun s =>
  (r s.offset).map fun (outcome, offset) => (outcome, { s with offset })

section Definitions

variable (text : List Char) (keepComments : Bool)

def passComment : Scanning Unit := do
  let start := (← get).offset
  let stop ← reading (lineEnd text start)
  modify fun s => { s with offset := stop }
  if keepComments then
    let body ← reading (taken (sliceBytes (start + 2) stop text))
    let body := match body with
      | ' ' :: rest => rest
      | rest => rest
    let comment : Comment := ⟨String.ofList (Text.trimEnd body), ⟨start, stop⟩⟩
    modify fun s => { s with
      doc := if s.lineHasContent then s.doc else s.doc ++ [comment]
      lineHasContent := true
      comments := s.comments ++ [comment] }
  else return

def passLine : Scanning Unit := do
  reading (advance text)
  modify fun s => { s with
    doc := if s.lineHasContent then s.doc else []
    lineHasContent := false
    pendingComma := false }

def token (c : Char) : Scanning Token := do
  let start := (← get).offset
  let kind ← reading (tokenAt text c)
  let s ← get
  set { s with doc := [], lineHasContent := true, pendingComma := kind.endsLine }
  return ⟨kind, ⟨start, s.offset⟩, s.doc⟩

def atEnd : Scanning Token := do
  let s ← get
  if s.pendingComma then
    set { s with pendingComma := false }
    return s.insertedComma
  else
    set { s with doc := [] }
    return ⟨.eof, .point s.offset, s.doc⟩

def nextUpTo : Nat → Scanning Token
  | 0 => spent
  | n + 1 => do
    reading (skipWhile text fun c => isBlank c && c != '\n')
    match ← reading (current text) with
    | none => atEnd
    | some c =>
      if c = '\n' then
        let s ← get
        passLine text
        if s.pendingComma then return s.insertedComma else nextUpTo n
      else if c = '/' then
        if (← reading (following text)) = some '/' then
          passComment text keepComments
          nextUpTo n
        else token text c
      else token text c

def next : Scanning Token := nextUpTo text keepComments (turns text)

end Definitions

/-- The state of a scanner of characters, by offsets. -/
def State.of (s : Scanner) : State := ⟨s.input.offset, s.pendingComma, s.lineHasContent, s.doc, s.comments⟩

theorem State.of_offset (s : Scanner) : (State.of s).offset = s.input.offset := rfl

theorem reading_eq {α : Type} {r : Reading α} {s : State} {o : Nat} {outcome : Except Located α}
    (h : r s.offset = some (outcome, o)) :
    reading r s = some (outcome, { s with offset := o }) := by
  rw [reading, h]
  rfl

section Agreement

variable {text : List Char} {s : Scanner} {n : Nat}

/-- Where no blank stands, none is passed over. -/
theorem skipBlanks_of_solid {i : Input} (solid : ∀ c ∈ i.rest.head?, (isBlank c && c != '\n') = false) :
    i.skipWhile (fun c => isBlank c && c != '\n') = i := by
  obtain ⟨_ | ⟨c, cs⟩, offset⟩ := i
  · rfl
  · have other := solid c rfl
    rw [Input.skipWhile, List.takeWhile_cons, List.dropWhile_cons, other]
    rfl

theorem passComment_of (within : Reaches ⟨text, 0⟩ s.input) {cs : List Char} (here : s.input.rest = '/' :: '/' :: cs) :
    passComment text s.keepComments (.of s) = some (.ok (), .of s.passComment) := by
  have line : s.input.rest.takeWhile (· ≠ '\n') = ['/', '/'] ++ cs.takeWhile (· ≠ '\n') := by rw [here]; rfl
  have slashes : Passes ['/', '/'] s.input (s.input.skipMany 2) := Input.passes_prefix ⟨cs, by rw [here]; rfl⟩
  have whole := Input.passes_skipWhile (· ≠ '\n') s.input
  rw [line] at whole
  have body := slice_at (within.trans ⟨_, slashes⟩) (whole.behind slashes)
  rw [slashes.offset, show byteLength ['/', '/'] = 2 from rfl] at body
  rw [passComment, get_bind, State.of_offset, bind_of_ok (reading_eq (lineEnd_at within)), modify_bind]
  unfold Scanner.passComment
  split
  · rw [bind_of_ok (reading_eq (taken_of_some body)), line]
    rfl
  · rfl

theorem passLine_of (within : Reaches ⟨text, 0⟩ s.input) :
    passLine text (.of s) = some (.ok (), .of s.passLine) := by
  rw [passLine, bind_of_ok (reading_eq (advance_at within))]
  rfl

theorem token_of (within : Reaches ⟨text, 0⟩ s.input) {c : Char} {cs : List Char} (here : s.input.rest = c :: cs) :
    token text c (.of s) = some (s.readToken.1, .of s.readToken.2) := by
  have lexed := tokenAt_at within here
  rw [token, get_bind]
  unfold Scanner.readToken
  split <;> rename_i read <;> rw [read] at lexed
  · exact bind_of_error (reading_eq lexed)
  · rw [bind_of_ok (reading_eq lexed)]
    rfl

/-- A blank changes nothing in what is read. -/
theorem next_blank (within : Reaches ⟨text, 0⟩ s.input) {keepComments : Bool} {c : Char} {cs : List Char}
    (here : s.input.rest = c :: cs) (blank : isBlank c = true) (other : c ≠ '\n') :
    nextUpTo text keepComments (n + 1) (.of s) =
      nextUpTo text keepComments (n + 1) (.of { s with input := s.input.skip }) := by
  have passed : (isBlank c && c != '\n') = true := by
    rw [blank, bne_iff_ne.mpr other]
    rfl
  have same : (s.input.skip.skipWhile fun c => isBlank c && c != '\n') =
      s.input.skipWhile fun c => isBlank c && c != '\n' := by
    simp only [Input.skipWhile, Input.skip, here, List.takeWhile_cons, List.dropWhile_cons, passed, if_true,
      Text.byteLength_cons, Nat.add_assoc]
  have inside := within.trans (Input.reaches_skip s.input)
  conv => lhs; rw [nextUpTo, bind_of_ok (reading_eq (skipWhile_at _ within)), ← same]
  conv => rhs; rw [nextUpTo, bind_of_ok (reading_eq (skipWhile_at _ (show Reaches ⟨text, 0⟩ _ from inside)))]
  rfl

/-- What a call does where no blank stands. -/
theorem next_solid (within : Reaches ⟨text, 0⟩ s.input) {keepComments : Bool}
    (solid : ∀ c ∈ s.input.rest.head?, (isBlank c && c != '\n') = false) :
    nextUpTo text keepComments (n + 1) (.of s) =
      (match s.input.rest.head? with
      | none => atEnd
      | some c =>
        if c = '\n' then do
          let s ← get
          passLine text
          if s.pendingComma then return s.insertedComma else nextUpTo text keepComments n
        else if c = '/' then do
          if (← reading (following text)) = some '/' then
            passComment text keepComments
            nextUpTo text keepComments n
          else token text c
        else token text c : Scanning Token) (.of s) := by
  have blanks := skipWhile_at (fun c => isBlank c && c != '\n') within
  rw [skipBlanks_of_solid solid] at blanks
  conv => lhs; rw [nextUpTo, bind_of_ok (reading_eq (s := .of s) blanks)]
  exact bind_of_ok (reading_eq (s := .of s) (current_at within))

theorem next_line (within : Reaches ⟨text, 0⟩ s.input) {keepComments : Bool} {cs : List Char}
    (here : s.input.rest = '\n' :: cs) :
    nextUpTo text keepComments (n + 1) (.of s) =
      if s.pendingComma then some (.ok s.insertedComma, .of s.passLine)
      else nextUpTo text keepComments n (.of s.passLine) := by
  rw [next_solid within (by simp [here]), here]
  refine (bind_of_ok (passLine_of within)).trans ?_
  split <;> rename_i pending
  · exact (if_pos pending).symm
  · exact (if_neg pending).symm

theorem next_comment (within : Reaches ⟨text, 0⟩ s.input) {cs : List Char} (here : s.input.rest = '/' :: '/' :: cs) :
    nextUpTo text s.keepComments (n + 1) (.of s) = nextUpTo text s.keepComments n (.of s.passComment) := by
  have second := following_at within
  rw [next_solid within (by simp [here]; decide), here]
  rw [here] at second
  exact (bind_of_ok (reading_eq (s := .of s) second)).trans (bind_of_ok (passComment_of within here))

theorem next_token (within : Reaches ⟨text, 0⟩ s.input) {keepComments : Bool} {c : Char} {cs : List Char}
    (here : s.input.rest = c :: cs) (solid : isBlank c = false) (comment : ¬['/', '/'] <+: c :: cs) :
    nextUpTo text keepComments (n + 1) (.of s) = some (s.readToken.1, .of s.readToken.2) := by
  have line : c ≠ '\n' := by
    rintro rfl
    cases solid
  have second := following_at within
  rw [next_solid within (by simp [here, solid]), here]
  dsimp only [List.head?_cons]
  rw [if_neg line]
  by_cases slash : c = '/'
  · subst slash
    have alone : cs.head? ≠ some '/' := by
      intro first
      obtain ⟨rest, rfl⟩ := List.head?_eq_some_iff.mp first
      exact comment ⟨rest, rfl⟩
    rw [here, List.tail_cons] at second
    rw [if_pos rfl]
    refine (bind_of_ok (reading_eq (s := .of s) second)).trans ?_
    rw [if_neg alone]
    exact token_of within here
  · rw [if_neg slash]
    exact token_of within here

theorem nextUpTo_of (within : Reaches ⟨text, 0⟩ s.input) (enough : s.input.rest.length < n) :
    nextUpTo text s.keepComments n (.of s) = some (s.next.1, .of s.next.2) := by
  -- a turn takes a line break or a comment; the blanks in front of it are passed over in the same turn
  obtain ⟨n, rfl⟩ := Nat.exists_eq_add_one.mpr (Nat.zero_lt_of_lt enough)
  fun_induction Scanner.next s generalizing n with
  | case1 s rest pending =>
    rw [next_solid within (by simp [rest]), rest]
    exact congrFun (if_pos pending) _
  | case2 s rest pending =>
    rw [next_solid within (by simp [rest]), rest]
    exact congrFun (if_neg pending) _
  | case3 s cs rest pending => rw [next_line within rest, if_pos pending]
  | case4 s cs rest pending ih =>
    have fewer : s.passLine.input.rest.length < n := length_lt_of_taken (m := 0) rest enough
    obtain ⟨n, rfl⟩ := Nat.exists_eq_add_one.mpr (Nat.zero_lt_of_lt fewer)
    rw [next_line within rest, if_neg pending]
    exact ih (within.trans (Input.reaches_skip s.input)) n fewer
  | case5 s cs rest ih =>
    have fewer := (Scanner.passComment_length_lt rest (by decide)).trans_le (Nat.le_of_lt_succ enough)
    obtain ⟨n, rfl⟩ := Nat.exists_eq_add_one.mpr (Nat.zero_lt_of_lt fewer)
    rw [next_comment within rest, ← s.keepComments_passComment]
    exact ih (within.trans s.reaches_passComment) n fewer
  | case6 s c cs line comment rest blank ih =>
    have fewer : s.input.skip.rest.length < n := length_lt_of_taken (m := 0) rest enough
    rw [next_blank within rest blank line]
    exact ih (within.trans (Input.reaches_skip s.input)) n (Nat.lt_succ_of_lt fewer)
  | case7 s c cs line comment rest solid =>
    exact next_token within rest (Bool.eq_false_of_not_eq_true solid) (Scanner.not_starts_comment comment)

/-- A call of the scanner is one of the scanner by offsets. -/
theorem next_of (s : Scanner) (within : Reaches ⟨text, 0⟩ s.input) :
    next text s.keepComments (.of s) = some (s.next.1, .of s.next.2) :=
  nextUpTo_of within (length_rest_lt_turns within)

end Agreement

end Sliced

namespace Scanner

variable {s t : Scanner}

/-- The scanner after a number of calls, whatever they have given. -/
def after (s : Scanner) (n : Nat) : Scanner := (fun t : Scanner => t.next.2)^[n] s

theorem after_succ (s : Scanner) (n : Nat) : s.after (n + 1) = (s.after n).next.2 := Function.iterate_succ_apply' _ _ _

theorem after_add (s : Scanner) (m n : Nat) : s.after (m + n) = (s.after m).after n := by
  rw [after, Nat.add_comm, Function.iterate_add_apply]
  rfl

theorem keepComments_next (s : Scanner) : s.next.2.keepComments = s.keepComments := by
  fun_induction next s with
  | case1 | case2 | case3 => rfl
  | case4 s _ _ _ ih => exact ih
  | case5 s _ _ ih => exact ih.trans s.keepComments_passComment
  | case6 s _ _ _ _ _ _ ih => exact ih
  | case7 s =>
    unfold readToken
    split <;> rfl

theorem keepComments_after (s : Scanner) (n : Nat) : (s.after n).keepComments = s.keepComments := by
  induction n with
  | zero => rfl
  | succ n ih => rw [after_succ, keepComments_next, ih]

/-- What a call may come to: a token of the text is passed over, a comma is inserted where one was due, the text has
    ended and no comma is due, or something is refused. No comma comes to be due but behind a token of the text. -/
inductive Call (s : Scanner) : Except Located Token × Scanner → Prop
  | written {token : Token} {t : Scanner} : token.kind.Written → s.input.offset < t.input.offset → Call s (.ok token, t)
  | inserted {token : Token} {t : Scanner} : token.kind = .comma true → s.pendingComma = true →
    t.pendingComma = false → Call s (.ok token, t)
  | ended {token : Token} {t : Scanner} : token.kind = .eof → t.input.rest = [] → t.pendingComma = false →
    Call s (.ok token, t)
  | refused {e : Located} {t : Scanner} : (t.pendingComma = true → s.pendingComma = true) → Call s (.error e, t)

theorem Call.behind {r : Except Located Token × Scanner} (h : Call t r) (further : s.input.offset ≤ t.input.offset)
    (due : t.pendingComma = true → s.pendingComma = true) : Call s r := by
  cases h with
  | written written passed => exact .written written (further.trans_lt passed)
  | inserted inserted pending free => exact .inserted inserted (due pending) free
  | ended eof rest free => exact .ended eof rest free
  | refused still => exact .refused fun pending => due (still pending)

theorem call_readToken {c : Char} {cs : List Char} (here : s.input.rest = c :: cs) : Call s s.readToken := by
  unfold readToken
  split
  · exact .refused id
  · rename_i read
    obtain ⟨passed, some, passes⟩ := passes_of_lexeme (by simp [here]) read
    have filled := Text.byteLength_pos some
    refine .written (lexeme_written here read) ?_
    show s.input.offset < _
    rw [passes.offset]
    omega

theorem call_next (s : Scanner) : Call s s.next := by
  fun_induction next s with
  | case1 s rest pending => exact .inserted rfl pending rfl
  | case2 s rest pending => exact .ended rfl rest (Bool.eq_false_of_not_eq_true pending)
  | case3 s cs rest pending => exact .inserted rfl pending rfl
  | case4 s cs rest pending ih =>
    have free : ¬s.passLine.pendingComma = true := Bool.false_ne_true
    exact ih.behind (offset_le_of_reaches (Input.reaches_skip s.input)) fun due => absurd due free
  | case5 s cs rest ih =>
    exact ih.behind (offset_le_of_reaches s.reaches_passComment) fun due => s.pendingComma_passComment ▸ due
  | case6 s c cs line comment rest blank ih => exact ih.behind (offset_le_of_reaches (Input.reaches_skip s.input)) id
  | case7 s c cs line comment rest solid => exact call_readToken rest

/-- The next call gives a token, and one of this kind. -/
def Answers (s : Scanner) (kind : TokenKind) : Prop := s.next.1.map (·.kind) = .ok kind

theorem answers_iff {kind : TokenKind} :
    s.Answers kind ↔ ∃ token, s.next = (.ok token, s.next.2) ∧ token.kind = kind := by
  unfold Answers
  obtain ⟨outcome, t⟩ := s.next
  constructor
  · intro answer
    cases outcome with
    | error e => cases answer
    | ok token => exact ⟨token, rfl, Except.ok.inj answer⟩
  · rintro ⟨token, read, rfl⟩
    rw [(Prod.mk.inj read).1]
    rfl

theorem offset_lt_of_written {kind : TokenKind} (h : s.Answers kind) (written : kind.Written) :
    s.input.offset < s.next.2.input.offset := by
  obtain ⟨token, read, rfl⟩ := answers_iff.mp h
  have call := s.call_next
  rw [read] at call
  cases call with
  | written _ passed => exact passed
  | inserted is => exact absurd is written.2
  | ended is => exact absurd is written.1

/-- A comma is inserted where one is due, and then none is. -/
theorem due_of_inserted (h : s.Answers (.comma true)) : s.pendingComma = true ∧ s.next.2.pendingComma = false := by
  obtain ⟨token, read, is⟩ := answers_iff.mp h
  have call := s.call_next
  rw [read] at call
  cases call with
  | written written => exact absurd is written.2
  | inserted _ pending free => exact ⟨pending, free⟩
  | ended eof => cases is.symm.trans eof

theorem ended_of_answers (h : s.Answers .eof) : s.next.2.input.rest = [] ∧ s.next.2.pendingComma = false := by
  obtain ⟨token, read, is⟩ := answers_iff.mp h
  have call := s.call_next
  rw [read] at call
  cases call with
  | written written => exact absurd is written.1
  | inserted inserted => cases is.symm.trans inserted
  | ended _ rest free => exact ⟨rest, free⟩

/-- Behind the end there is only the end. -/
theorem answers_of_ended (rest : s.input.rest = []) (free : s.pendingComma = false) : s.Answers .eof := by
  unfold Answers
  rw [next_end rest, free]
  rfl

/-- A call after which a comma is due that was not has gone on. -/
theorem offset_lt_of_due (free : s.pendingComma = false) (due : s.next.2.pendingComma = true) :
    s.input.offset < s.next.2.input.offset := by
  have call := s.call_next
  generalize s.next = r at *
  cases call with
  | written _ passed => exact passed
  | inserted _ pending => cases free.symm.trans pending
  | ended _ _ none => cases none.symm.trans due
  | refused still => cases free.symm.trans (still due)

section After

variable (s) (n : Nat)

theorem reaches_after : Reaches s.input (s.after n).input := s.reaches_iterate n

theorem offset_le_after : s.input.offset ≤ (s.after n).input.offset := offset_le_of_reaches (s.reaches_after n)

end After

theorem offset_lt_of_due_after (free : s.pendingComma = false) (n : Nat) (due : (s.after n).pendingComma = true) :
    s.input.offset < (s.after n).input.offset := by
  induction n with
  | zero => cases free.symm.trans due
  | succ n ih =>
    rw [after_succ] at due ⊢
    cases pending : (s.after n).pendingComma with
    | false => exact (s.offset_le_after n).trans_lt (offset_lt_of_due pending due)
    | true => exact (ih pending).trans_le (offset_le_of_reaches (reaches_next _))

theorem ended_after (rest : s.input.rest = []) (free : s.pendingComma = false) (n : Nat) :
    (s.after n).input.rest = [] ∧ (s.after n).pendingComma = false := by
  induction n with
  | zero => exact ⟨rest, free⟩
  | succ n ih =>
    rw [after_succ]
    exact ended_of_answers (answers_of_ended ih.1 ih.2)

/-- Calls of one scanner, as many as one likes and whatever they have refused: each is one of the scanner by offsets,
    which looks nothing up within a character or behind the text; it ends at a boundary and not before where it began,
    and farther on with a token of the text. A second inserted comma stands farther on than the first, and behind the
    end of the text there is only the end. -/
theorem calls_at_boundaries (text : String) (keepComments : Bool) (n : Nat) :
    let start := ofString text keepComments
    let s := start.after n
    let t := start.after (n + 1)
    Sliced.next text.toList keepComments (.of s) = some (s.next.1, .of t) ∧
    Text.Boundary text.toList t.input.offset ∧ t.input.offset ≤ Text.byteLength text.toList ∧
    s.input.offset ≤ t.input.offset ∧
    (∀ kind, s.Answers kind → kind.Written → s.input.offset < t.input.offset) ∧
    (s.Answers (.comma true) → ∀ m > n, (start.after m).Answers (.comma true) →
      t.input.offset < (start.after m).input.offset) ∧
    (s.Answers .eof → ∀ m > n, (start.after m).Answers .eof) := by
  intro start s t
  have within : Reaches ⟨text.toList, 0⟩ s.input := start.reaches_after n
  have step : t = s.next.2 := start.after_succ n
  have there : Reaches ⟨text.toList, 0⟩ t.input := start.reaches_after (n + 1)
  have later : ∀ m > n, start.after m = t.after (m - (n + 1)) := fun m more => by
    rw [← after_add, Nat.add_sub_cancel' more]
  refine ⟨?_, boundary_of_reaches there, offset_le_length there, ?_, ?_, ?_, ?_⟩
  · rw [step, ← Sliced.next_of s within, start.keepComments_after n]
    rfl
  · exact step ▸ offset_le_of_reaches (reaches_next s)
  · exact fun kind answers written => step ▸ offset_lt_of_written answers written
  · intro inserted m more again
    rw [later m more] at again ⊢
    exact offset_lt_of_due_after (step ▸ (due_of_inserted inserted).2) _ (due_of_inserted again).1
  · intro eof m more
    obtain ⟨rest, free⟩ := ended_of_answers eof
    rw [later m more]
    obtain ⟨rest, free⟩ := ended_after (step ▸ rest) (step ▸ free) (m - (n + 1))
    exact answers_of_ended rest free

/-- An escape whose four digits are cut short by a character of two bytes: it is refused, and what stands behind the
    backslash is read as a name. -/
example : ((ofString "\"\\u000é\"" false).after 2).input.offset = 8 := by decide +kernel

end Scanner

end StackLattice.Syntax
