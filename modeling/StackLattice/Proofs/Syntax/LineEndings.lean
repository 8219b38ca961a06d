import StackLattice.Proofs.Syntax.Escapes
import StackLattice.Proofs.Syntax.Scan
import StackLattice.Proofs.Text.LineEndings

/-!
Lexemes of a text whose lines end in carriage return and line feed, next to the lexemes of the text with line feeds
alone. A lexeme on one line is the same in both. The carriage returns between the quotes of a literal over several
lines are part of it, but for those of blank lines.
-/

namespace StackLattice.Syntax

open Text (Input isBlank isAsciiDigit isAlphabetic byteLength crlf)
open Text.Input (Passes Reaches)

/-- Two readings fail both, or what they read and leave goes together. -/
inductive Together {α σ : Type} (p : α → σ → α → σ → Prop) : Except Located α × σ → Except Located α × σ → Prop
  | fault {e e' : Located} {s s' : σ} : Together p (.error e, s) (.error e', s')
  | ok {a a' : α} {s s' : σ} : p a s a' s' → Together p (.ok a, s) (.ok a', s')

/-- The same is read, and the same is left but for the carriage returns. -/
def Same {α : Type} (a : α) (left : Input) (a' : α) (left' : Input) : Prop := a' = a ∧ left'.rest = crlf left.rest

theorem Together.of_fault {α σ : Type} {p : α → σ → α → σ → Prop} {e : Located} {s : σ} {r' : Except Located α × σ}
    (h : Together p (.error e, s) r') : ∃ e' s', r' = (.error e', s') := by
  cases h with
  | fault => exact ⟨_, _, rfl⟩

theorem Together.of_ok {α σ : Type} {p : α → σ → α → σ → Prop} {a : α} {s : σ} {r' : Except Located α × σ}
    (h : Together p (.ok a, s) r') : ∃ a' s', r' = (.ok a', s') ∧ p a s a' s' := by
  cases h with
  | ok together => exact ⟨_, _, rfl, together⟩

theorem Together.imp {α σ : Type} {p q : α → σ → α → σ → Prop} {r r' : Except Located α × σ} (h : Together p r r')
    (weaker : ∀ {a s a' s'}, p a s a' s' → q a s a' s') : Together q r r' := by
  cases h with
  | fault => exact .fault
  | ok together => exact .ok (weaker together)

theorem Together.map {α β : Type} {r r' : Scan α} (f : α → β) (h : Together Same r r') :
    Together Same (r.1.map f, r.2) (r'.1.map f, r'.2) := by
  cases h with
  | fault => exact .fault
  | ok same => exact .ok ⟨congrArg f same.1, same.2⟩

section Line

variable {i j : Input}

theorem lineless_take {pre cs : List Char} (starts : pre <+: cs) (lineless : '\n' ∉ pre) :
    '\n' ∉ cs.take pre.length := by
  rwa [← List.prefix_iff_eq_take.mp starts]

/-- Passing over a piece of a line is the same in both texts. -/
theorem skipMany_crlf (same : j.rest = crlf i.rest) {pre : List Char} (starts : pre <+: i.rest)
    (lineless : '\n' ∉ pre) : (j.skipMany pre.length).rest = crlf (i.skipMany pre.length).rest := by
  rw [Input.skipMany_rest, Input.skipMany_rest, same, Text.crlf_drop (lineless_take starts lineless)]

/-- An escape is written without line endings. -/
theorem Escape.unbroken {e : List Char} {c : Char} (h : Escape e c) : '\n' ∉ e ∧ '\r' ∉ e := by
  have none {d : Char} (nothing : Decimal.digitValue d = none) {cs : List Char} {n : Nat}
      (numeral : Decimal.Numeral 16 cs n) : d ∉ cs := by
    obtain ⟨-, digits, all, -⟩ := numeral
    intro inside
    obtain ⟨k, -, digit⟩ := Value.exists_left_of_mem (List.Forall₂.flip all) inside
    rw [Decimal.digitValue_eq_some_iff.mpr digit] at nothing
    cases nothing
  cases h with
  | newline | tab | carriageReturn | backslash | quote | slash => decide
  | unit _ numeral => simp [none (d := '\n') rfl numeral, none (d := '\r') rfl numeral]
  | signed _ numeral => simp [none (d := '\n') rfl numeral, none (d := '\r') rfl numeral]

theorem Denotes.lineless {body text : List Char} (h : Denotes body text) : '\n' ∉ body := by
  induction h with
  | nil => exact List.not_mem_nil
  | plain _ _ newline _ ih => exact List.not_mem_cons_of_ne_of_not_mem newline.symm ih
  | escape stands _ ih => simp [stands.unbroken.1, ih]

theorem stringBody_crlf (start start' : Nat) (same : j.rest = crlf i.rest) :
    Together Same (stringBody start i) (stringBody start' j) := by
  rcases read : stringBody start i with ⟨_ | text, left⟩
  · rcases read' : stringBody start' j with ⟨_ | text', left'⟩
    · exact .fault
    · -- What is read with carriage returns is read without them.
      obtain ⟨body, denotes, passes⟩ := denotes_of_stringBody read'
      have split : crlf i.rest = body ++ '"' :: left'.rest := by rw [← same, passes.rest, List.append_assoc]; rfl
      obtain ⟨rest, whole, -⟩ := Text.exists_of_crlf_eq (by decide) (by decide) denotes.lineless split
      have passes' : Passes (body ++ ['"']) i ⟨rest, i.offset + byteLength (body ++ ['"'])⟩ :=
        ⟨by rw [whole, List.append_cons], rfl⟩
      cases read.symm.trans (stringBody_of_denotes start denotes passes')
  · obtain ⟨body, denotes, passes⟩ := denotes_of_stringBody read
    have lineless : '\n' ∉ body ++ ['"'] := by simp [denotes.lineless]
    have passes' : Passes (body ++ ['"']) j ⟨crlf left.rest, j.offset + byteLength (body ++ ['"'])⟩ :=
      ⟨by rw [same, passes.rest, Text.crlf_line lineless], rfl⟩
    rw [stringBody_of_denotes start' denotes passes']
    exact .ok ⟨rfl, rfl⟩

theorem pointPart_crlf (cs : List Char) : pointPart (crlf cs) = pointPart cs := by
  have digits (rest : List Char) : (crlf rest).takeWhile isNumberChar = rest.takeWhile isNumberChar :=
    Text.takeWhile_crlf (by decide) (by decide) rest
  match cs with
  | [] => rfl
  | c :: cs =>
    by_cases line : c = '\n'
    · subst line
      rfl
    rw [Text.crlf_cons line]
    by_cases point : c = '.'
    · subst point
      match cs with
      | [] => rfl
      | d :: cs =>
        by_cases line : d = '\n'
        · subst line
          rfl
        · rw [Text.crlf_cons line, pointPart, pointPart, digits]
    · rw [pointPart_of_ne point, pointPart_of_ne point]

theorem exponentPart_crlf (cs : List Char) : exponentPart (crlf cs) = exponentPart cs := by
  have digits (rest : List Char) : (crlf rest).takeWhile isNumberChar = rest.takeWhile isNumberChar :=
    Text.takeWhile_crlf (by decide) (by decide) rest
  have returns : isAsciiDigit '\r' = false := by decide
  have lines : isAsciiDigit '\n' = false := by decide
  match cs with
  | [] => rfl
  | mark :: cs =>
    by_cases line : mark = '\n'
    · subst line
      rw [Text.crlf_newline, exponentPart_of_ne (by decide), exponentPart_of_ne (by decide)]
    rw [Text.crlf_cons line]
    match cs with
    | [] => rfl
    | c :: cs =>
      by_cases line : c = '\n'
      · subst line
        rw [Text.crlf_newline, exponentPart_plain (by decide), exponentPart_plain (by decide), returns, lines]
        simp
      rw [Text.crlf_cons line]
      by_cases signed : c = '+' ∨ c = '-'
      · match cs with
        | [] => rfl
        | d :: cs =>
          by_cases line : d = '\n'
          · subst line
            rw [Text.crlf_newline, exponentPart_signed signed, exponentPart_signed signed, returns, lines]
            simp
          · rw [Text.crlf_cons line, exponentPart_signed signed, exponentPart_signed signed, digits]
      · rw [not_or] at signed
        rw [exponentPart_plain signed, exponentPart_plain signed, digits]

theorem number_crlf (same : j.rest = crlf i.rest) : Together Same (number i) (number j) := by
  have whole : j.rest.takeWhile isNumberChar = i.rest.takeWhile isNumberChar := by
    rw [same, Text.takeWhile_crlf (by decide) (by decide)]
  have others : j.rest.dropWhile isNumberChar = crlf (i.rest.dropWhile isNumberChar) := by
    rw [same, Text.dropWhile_crlf (by decide) (by decide)]
  have parts := List.takeWhile_append_dropWhile (p := isNumberChar) (l := i.rest)
  have digits := lineless_takeWhile_of not_isNumberChar_newline i.rest
  unfold number
  simp only [whole, others]
  generalize i.rest.takeWhile isNumberChar = whole at parts digits
  generalize i.rest.dropWhile isNumberChar = others at parts
  obtain ⟨pointStarts, pointLine⟩ := pointPart_line others
  obtain ⟨exponentStarts, exponentLine⟩ := exponentPart_line (others.drop (pointPart others).length)
  simp only [pointPart_crlf, Text.crlf_drop (lineless_take pointStarts pointLine), exponentPart_crlf]
  have behind : others = pointPart others ++ others.drop (pointPart others).length :=
    (List.prefix_append_drop pointStarts)
  generalize pointPart others = point at *
  generalize others.drop point.length = last at *
  generalize exponentPart last = exponent at *
  have starts : whole ++ point ++ exponent <+: i.rest := by
    rw [← parts, behind, List.append_assoc, List.prefix_append_right_inj, List.prefix_append_right_inj]
    exact exponentStarts
  have left := skipMany_crlf same starts (by simp [digits, pointLine, exponentLine])
  split
  · split
    · exact .ok ⟨rfl, left⟩
    · exact .fault
  · split
    · exact .ok ⟨rfl, left⟩
    · exact .fault

theorem name_crlf {c : Char} {rest : List Char} (same : j.rest = crlf i.rest) (here : i.rest = c :: rest)
    (line : c ≠ '\n') : Together Same (name i) (name j) := by
  have here' : j.rest = c :: crlf rest := by rw [same, here, Text.crlf_cons line]
  have run (cs : List Char) : (crlf cs).takeWhile isNameChar = cs.takeWhile isNameChar :=
    Text.takeWhile_crlf (by decide +kernel) not_isNameChar_newline cs
  by_cases hash : c = '#'
  · subst hash
    by_cases starts : ∃ c ∈ rest.head?, (isAlphabetic c || c == '_') = true
    · obtain ⟨c, first, starts⟩ := starts
      obtain ⟨rest, rfl⟩ := List.head?_eq_some_iff.mp first
      have ne : c ≠ '\n' := by
        rintro rfl
        exact absurd starts (by decide +kernel)
      have begins : '#' :: (c :: rest).takeWhile isNameChar <+: i.rest := by
        rw [here, List.cons_prefix_cons]
        exact ⟨rfl, List.takeWhile_prefix _⟩
      rw [Text.crlf_cons ne] at here'
      rw [name_hash here starts, name_hash here' starts, ← Text.crlf_cons ne, run]
      refine .ok ⟨rfl, skipMany_crlf same begins ?_⟩
      simpa using lineless_takeWhile_of not_isNameChar_newline (c :: rest)
    · have other : ∀ c ∈ rest.head?, (isAlphabetic c || c == '_') = false := fun c first =>
        Bool.eq_false_iff.mpr fun yes => starts ⟨c, first, yes⟩
      have other' : ∀ c ∈ (crlf rest).head?, (isAlphabetic c || c == '_') = false := fun c first => by
        rcases Text.first_crlf first with rfl | ⟨_, first⟩
        · decide +kernel
        · exact other c first
      rw [name_bare here other, name_bare here' other']
      exact .fault
  · rw [name_plain (by simpa [here] using hash), name_plain (by simpa [here'] using hash), same, run]
    exact .ok ⟨rfl, skipMany_crlf same (List.takeWhile_prefix _) (lineless_takeWhile_of not_isNameChar_newline _)⟩

end Line

section Block

/-- A line of a literal with its carriage return, if that is kept. -/
def withReturn (line text : List Char) : List Char := if line.all isBlank then text else text ++ ['\r']

/-- The same line in the two texts. -/
def Line.Facing (l l' : Line) : Prop := '\r' ∉ l.text ∧ l'.text = l.text ++ ['\r']

theorem escape_return {rest : List Char} {r : Char × Nat} (h : escape (rest ++ ['\r']) = .ok r) :
    escape rest = .ok r := by
  obtain ⟨c, taken⟩ := r
  obtain ⟨e, after, split, length, stands⟩ := escape_eq_ok_iff.mp h
  rcases List.eq_nil_or_concat after with rfl | ⟨behind, d, rfl⟩
  · rw [List.append_nil] at split
    exact absurd (split ▸ List.mem_append_right rest (List.mem_singleton_self _)) stands.unbroken.2
  · rw [List.concat_eq_append, ← List.append_assoc] at split
    exact escape_eq_ok_iff.mpr ⟨e, behind, (List.append_inj' split rfl).1, length, stands⟩

theorem unescape_return (offset offset' : Nat) (cs : List Char) :
    Option.Rel (fun text text' => text' = text ++ ['\r']) (unescape offset cs).toOption
      (unescape offset' (cs ++ ['\r'])).toOption := by
  have kept {c : Char} {r r' : Except Located (List Char)}
      (h : Option.Rel (fun text text' => text' = text ++ ['\r']) r.toOption r'.toOption) :
      Option.Rel (fun text text' => text' = text ++ ['\r']) (r.map (c :: ·)).toOption (r'.map (c :: ·)).toOption := by
    rcases r with _ | text <;> rcases r' with _ | text' <;> cases h
    · exact .none
    · rename_i same
      exact .some (congrArg (c :: ·) same)
  fun_induction unescape offset cs generalizing offset' with
  | case1 offset =>
    rw [List.nil_append, unescape_plain (by decide), unescape]
    exact .some rfl
  | case2 offset rest fault failed =>
    have failed' : (escape (rest ++ ['\r'])).toOption = none := by
      rcases again : escape (rest ++ ['\r']) with _ | r
      · rfl
      · cases failed.symm.trans (escape_return again)
    rw [List.cons_append, unescape]
    split
    · exact .none
    · rename_i again
      rw [again] at failed'
      cases failed'
  | case3 offset rest c taken stands ih =>
    obtain ⟨longer, inside⟩ := escape_append stands ['\r']
    rw [List.cons_append, unescape_escape longer, List.drop_append_of_le_length inside]
    exact kept (ih _)
  | case4 offset c rest other ih =>
    rw [List.cons_append, unescape_plain other]
    exact kept (ih _)

variable {indent : List Char}

theorem dedent_crlf {l l' : Line} (returnless : '\r' ∉ indent) (h : l.Facing l') :
    Option.Rel (fun text text' => text' = withReturn l.text text) (l.dedent indent).toOption
      (l'.dedent indent).toOption := by
  unfold Line.dedent withReturn
  have blank : l'.text.all isBlank = l.text.all isBlank := by simp [h.2, show isBlank '\r' = true by decide]
  have indented : indent.isPrefixOf l'.text = indent.isPrefixOf l.text := by
    rw [Bool.eq_iff_iff, List.isPrefixOf_iff_prefix, List.isPrefixOf_iff_prefix, h.2, List.prefix_concat_iff,
      or_iff_right]
    rintro rfl
    exact returnless (List.mem_append_right _ (List.mem_singleton_self _))
  rw [blank, indented]
  split
  · exact .some rfl
  · split
    · rename_i starts
      rw [h.2, List.drop_append_of_le_length (List.isPrefixOf_iff_prefix.mp starts).length_le]
      exact unescape_return _ _ _
    · exact .none

theorem dedentAll_crlf {ls ls' : List Line} (returnless : '\r' ∉ indent) (h : List.Forall₂ Line.Facing ls ls') :
    Option.Rel
      (fun texts texts' => texts.length = ls.length ∧ texts' = List.zipWith withReturn (ls.map (·.text)) texts)
      (ls.mapM (Line.dedent indent)).toOption (ls'.mapM (Line.dedent indent)).toOption := by
  induction h with
  | nil => exact .some ⟨rfl, rfl⟩
  | @cons l l' ls ls' first _ ih =>
    have here := dedent_crlf returnless first
    rw [List.mapM_cons, List.mapM_cons]
    generalize l.dedent indent = r, l'.dedent indent = r' at here ⊢
    generalize ls.mapM (Line.dedent indent) = rs, ls'.mapM (Line.dedent indent) = rs' at ih ⊢
    rcases r with _ | text <;> rcases r' with _ | text' <;> cases here
    · exact .none
    rename_i same
    rcases rs with _ | texts <;> rcases rs' with _ | texts' <;> cases ih
    · exact .none
    rename_i others
    refine .some ⟨congrArg (· + 1) others.1, ?_⟩
    rw [others.2, same]
    rfl

/-- A carriage return behind a line decides neither whether the line closes a literal nor how it is indented. -/
theorem closing_return (line : List Char) :
    (quotes <+: (line ++ ['\r']).dropWhile isBlank ↔ quotes <+: line.dropWhile isBlank) ∧
      (quotes <+: line.dropWhile isBlank → (line ++ ['\r']).takeWhile isBlank = line.takeWhile isBlank) := by
  have blank : ['\r'].dropWhile isBlank = [] := by decide
  rw [List.dropWhile_append, blank]
  constructor
  · split
    · rename_i all
      rw [List.isEmpty_iff.mp all]
    · rw [List.prefix_concat_iff, or_iff_right]
      intro ends
      exact absurd (ends ▸ List.mem_append_right _ (List.mem_singleton_self '\r')) (by decide)
  · intro closes
    rw [List.takeWhile_append, if_neg]
    intro all
    have parts := congrArg List.length (List.takeWhile_append_dropWhile (p := isBlank) (l := line))
    have three : 3 ≤ (line.dropWhile isBlank).length := closes.length_le
    rw [List.length_append] at parts
    omega

/-- What is found up to the closing quotes in the two texts: the same lines behind those before, and the same
    indentation. -/
structure Closed (i : Input) (before : List Line) (r : List Line × List Char) (left : Input)
    (r' : List Line × List Char) (left' : Input) : Prop where
  behind : left'.rest = crlf left.rest
  lines : List.Forall₂ Line.Facing r.1 r'.1
  indent : r'.2 = r.2
  unbroken : '\n' ∉ r.2 ∧ '\r' ∉ r.2
  body : ∃ found : List (List Char), r.1.map (·.text) = found.reverse ++ before.map (·.text) ∧
    (∀ line ∈ found, '\n' ∉ line) ∧ Passes (found.flatMap (· ++ ['\n']) ++ (r.2 ++ quotes)) i left

theorem Closed.across {i k : Input} {before : List Line} {l : Line} {r r' : List Line × List Char}
    {left left' : Input} (h : Closed k (l :: before) r left r' left') (lineless : '\n' ∉ l.text)
    (passes : Passes (l.text ++ ['\n']) i k) : Closed i before r left r' left' := by
  obtain ⟨found, texts, lines, behind⟩ := h.body
  refine { h with body := ⟨l.text :: found, by simp [texts], List.forall_mem_cons.mpr ⟨lineless, lines⟩, ?_⟩ }
  rw [List.flatMap_cons, List.append_assoc]
  exact passes.trans behind

theorem passes_line {i : Input} {line rest : List Char} (split : i.rest = line ++ '\n' :: rest) :
    Passes (line ++ ['\n']) i (i.skipMany (line.length + 1)) ∧ (i.skipMany (line.length + 1)).rest = rest := by
  have passes := Input.passes_skipMany (line.length + 1) i
  have taken : i.rest.take (line.length + 1) = line ++ ['\n'] := by simp [split, List.take_append]
  rw [taken] at passes
  have same : line ++ ['\n'] ++ (i.skipMany (line.length + 1)).rest = line ++ ['\n'] ++ rest := by
    rw [← passes.rest, split, List.append_assoc]
    rfl
  exact ⟨passes, List.append_cancel_left same⟩

section Lines

variable {i j : Input} {lines lines' : List Line} {line : List Char} (same : j.rest = crlf i.rest)
  (first : i.rest.takeWhile (· ≠ '\n') = line)

include same

theorem filled_crlf (filled : i.rest ≠ []) : j.rest ≠ [] := by
  rw [same]
  exact Text.crlf_eq_nil_iff.not.mpr filled

include first

/-- The line that closes a literal closes it in both texts. -/
theorem blockLines_closes (start : Nat) (filled : i.rest ≠ []) (closes : quotes <+: line.dropWhile isBlank) :
    blockLines start j lines' =
      (.ok (lines', line.takeWhile isBlank), j.skipMany ((line.takeWhile isBlank).length + 3)) := by
  have filled := filled_crlf same filled
  have accepted := List.isPrefixOf_iff_prefix.mpr closes
  rcases Text.firstLine_crlf i.rest with ⟨_, plain⟩ | ⟨rest, _, _, ofLine⟩
  · rw [blockLines_eq filled (by rw [same, plain, first]), if_pos accepted]
  · obtain ⟨closes', indented⟩ := closing_return line
    rw [← same, first] at ofLine
    rw [blockLines_eq filled ofLine, if_pos (List.isPrefixOf_iff_prefix.mpr (closes'.mpr closes)), indented closes]

theorem closed_here (returnless : '\r' ∉ i.rest) (closes : quotes <+: line.dropWhile isBlank)
    (facing : List.Forall₂ Line.Facing lines lines') :
    Closed i lines (lines, line.takeWhile isBlank) (i.skipMany ((line.takeWhile isBlank).length + 3))
      (lines', line.takeWhile isBlank) (j.skipMany ((line.takeWhile isBlank).length + 3)) := by
  have within : line <+: i.rest := first ▸ List.takeWhile_prefix _
  have lineless : '\n' ∉ line := first ▸ lineless_takeWhile i.rest
  have starts : line.takeWhile isBlank ++ quotes <+: i.rest := (indented_quotes closes).trans within
  have unbroken : '\n' ∉ line.takeWhile isBlank ∧ '\r' ∉ line.takeWhile isBlank :=
    ⟨fun inside => lineless ((List.takeWhile_prefix _).mem inside),
      fun inside => returnless (within.mem ((List.takeWhile_prefix _).mem inside))⟩
  have length : (line.takeWhile isBlank ++ quotes).length = (line.takeWhile isBlank).length + 3 := List.length_append
  have behind := skipMany_crlf same starts (by simp [unbroken.1, quotes])
  have passes := Input.passes_prefix starts
  rw [length] at passes
  rw [length] at behind
  exact ⟨behind, facing, rfl, unbroken, [], rfl, List.forall_mem_nil _, passes⟩

end Lines

theorem blockLines_crlf (start start' : Nat) {i j : Input} {lines lines' : List Line} (same : j.rest = crlf i.rest)
    (returnless : '\r' ∉ i.rest) (facing : List.Forall₂ Line.Facing lines lines') :
    Together (Closed i lines) (blockLines start i lines) (blockLines start' j lines') := by
  fun_induction blockLines start i lines generalizing j lines' with
  | case1 i lines here =>
    rw [blockLines_end (i := j) (by rw [same, here, Text.crlf_nil])]
    exact .fault
  | case2 i lines _ _ here line =>
    rename_i indent closes
    have closes := List.isPrefixOf_iff_prefix.mp closes
    rw [blockLines_closes same rfl start' (by simp [here]) closes]
    exact .ok (closed_here same rfl returnless closes facing)
  | case3 i lines _ _ here line unclosed =>
    rename_i ih
    have filled := filled_crlf same (by simp [here])
    rcases Text.firstLine_crlf i.rest with ⟨whole, plain⟩ | ⟨rest, split, split', ofLine⟩
    · -- The last line does not close the literal, and nothing is behind it.
      have ended : (i.skipMany (line.length + 1)).rest = [] := by
        rw [Input.skipMany_rest, List.drop_eq_nil_iff]
        exact Nat.le_succ_of_le (Nat.le_of_eq (congrArg List.length whole).symm)
      have ended' : (j.skipMany (line.length + 1)).rest = [] := by
        rw [← ended, Input.skipMany_rest, Input.skipMany_rest, same, plain]
      rw [blockLines_eq filled (by rw [same, plain]), if_neg unclosed, blockLines_end ended, blockLines_end ended']
      exact .fault
    · rw [← same] at split' ofLine
      have unclosed' : ¬quotes.isPrefixOf ((line ++ ['\r']).dropWhile isBlank) = true := by
        rw [List.isPrefixOf_iff_prefix, (closing_return line).1, ← List.isPrefixOf_iff_prefix]
        exact unclosed
      obtain ⟨passes, behind⟩ := passes_line split
      obtain ⟨_, behind'⟩ := passes_line split'
      have returnlessLine : '\r' ∉ line := fun inside => returnless ((List.takeWhile_prefix _).mem inside)
      have returnlessRest : '\r' ∉ (i.skipMany (line.length + 1)).rest := by
        rw [Input.skipMany_rest]
        exact fun inside => returnless (List.mem_of_mem_drop inside)
      rw [blockLines_eq filled ofLine, if_neg unclosed']
      have later := ih (behind'.trans (congrArg crlf behind.symm)) returnlessRest
        (.cons ⟨returnlessLine, rfl⟩ facing : List.Forall₂ Line.Facing _ (⟨j.offset, line ++ ['\r']⟩ :: lines'))
      exact later.imp fun closed => closed.across (lineless_takeWhile i.rest) passes

/-- The lines between the quotes of a literal over several lines; none of other text. -/
def blockBody (cs : List Char) : List (List Char) :=
  if quotes.isPrefixOf cs then (Text.pieces '\n' cs).tail.dropLast else []

theorem blockBody_of_unquoted {cs : List Char} (other : ¬quotes <+: cs) : blockBody cs = [] := by
  rw [blockBody, if_neg (by rwa [List.isPrefixOf_iff_prefix])]

theorem blockBody_eq {blanks indent : List Char} {found : List (List Char)} (opening : '\n' ∉ blanks)
    (lines : ∀ line ∈ found, '\n' ∉ line) (closing : '\n' ∉ indent) :
    blockBody (quotes ++ blanks ++ '\n' :: (found.flatMap (· ++ ['\n']) ++ (indent ++ quotes))) = found := by
  have quoted : '\n' ∉ quotes := by decide
  have pieces : Text.pieces '\n' (found.flatMap (· ++ ['\n']) ++ (indent ++ quotes)) = found ++ [indent ++ quotes] := by
    induction found with
    | nil => exact Text.pieces_lineless (by simp [closing, quoted])
    | cons line found ih =>
      obtain ⟨first, lines⟩ := List.forall_mem_cons.mp lines
      rw [List.flatMap_cons, List.append_assoc, List.append_assoc]
      exact (Text.pieces_line first _).trans (congrArg (line :: ·) (ih lines))
  have starts : quotes <+: quotes ++ blanks ++ '\n' :: (found.flatMap (· ++ ['\n']) ++ (indent ++ quotes)) := by
    rw [List.append_assoc]
    exact List.prefix_append _ _
  rw [blockBody, if_pos (List.isPrefixOf_iff_prefix.mpr starts), Text.pieces_line (by simp [opening, quoted]), pieces,
    List.tail_cons, List.dropLast_concat]

/-- What a token is read as in the two texts. Of a literal, the lines that are not blank keep their carriage
    returns. -/
inductive TokenKind.Rebroken (body : List (List Char)) : TokenKind → TokenKind → Prop
  | plain {kind : TokenKind} : body = [] → Rebroken body kind kind
  | block {texts : List (List Char)} : texts.length = body.length →
    Rebroken body (.string (String.ofList (['\n'].intercalate texts)))
      (.string (String.ofList (['\n'].intercalate (List.zipWith withReturn body texts))))

/-- A token is read in both texts, and the same is behind it. -/
def Reread (i : Input) (kind : TokenKind) (left : Input) (kind' : TokenKind) (left' : Input) : Prop :=
  left'.rest = crlf left.rest ∧ ∃ cs, Passes cs i left ∧ kind.Rebroken (blockBody cs) kind'

/-- The end of the first line of a literal, or what else stands on it. -/
def opened (i : Input) : Input := (i.skipMany 3).skipWhile fun c => isBlank c && c != '\n'

theorem opened_crlf {i j : Input} (same : j.rest = crlf i.rest) (starts : quotes <+: i.rest) :
    (∃ spaces rest, '\n' ∉ spaces ∧ Passes (quotes ++ spaces) i (opened i) ∧ (opened i).rest = '\n' :: rest ∧
      (opened j).rest = '\n' :: crlf rest) ∨
      (opened i).rest.head? ≠ some '\n' ∧ (opened j).rest.head? ≠ some '\n' := by
  let p (c : Char) : Bool := isBlank c && c != '\n'
  have behind : (j.skipMany 3).rest = crlf (i.skipMany 3).rest := skipMany_crlf same starts (by decide)
  have quoted : Passes quotes i (i.skipMany 3) := Input.passes_prefix starts
  have blanks : Passes ((i.skipMany 3).rest.takeWhile p) (i.skipMany 3) (opened i) := Input.passes_skipWhile p _
  have passed : (opened j).rest = (crlf (i.skipMany 3).rest).dropWhile p := by rw [← behind]; rfl
  rcases Text.dropWhile_crlf_cases (p := p) (by decide) (by decide) (i.skipMany 3).rest with
    ⟨rest, here, here'⟩ | ⟨other, same'⟩
  · exact .inl ⟨_, rest, lineless_takeWhile_of (by decide) _, quoted.trans blanks, here, passed.trans here'⟩
  · refine .inr ⟨other, ?_⟩
    rw [passed, same']
    exact Text.head?_crlf_ne _

/-- The text of a literal, from its lines in the two texts. -/
theorem Closed.reread {i k left left' : Input} {spaces rest indent indent' : List Char} {lines lines' : List Line}
    (lineless : '\n' ∉ spaces) (opened : Passes (quotes ++ spaces) i k) (here : k.rest = '\n' :: rest)
    (h : Closed k.skip [] (lines, indent) left (lines', indent') left') :
    Together (Reread i)
      (((lines.reverse.mapM (Line.dedent indent)).map fun texts => ['\n'].intercalate texts).map
        fun cs => .string (String.ofList cs), left)
      (((lines'.reverse.mapM (Line.dedent indent')).map fun texts => ['\n'].intercalate texts).map
        fun cs => .string (String.ofList cs), left') := by
  obtain ⟨behind, facing, same, ⟨closing, returnless⟩, body, texts, unbroken, passes⟩ := h
  dsimp only at *
  subst same
  rw [List.map_nil, List.append_nil] at texts
  have inOrder : lines.reverse.map (·.text) = body := by rw [List.map_reverse, texts, List.reverse_reverse]
  have whole := opened.trans ((Input.passes_skip here).trans passes)
  have dedented := dedentAll_crlf returnless (List.rel_reverse facing)
  rw [← List.length_map (f := (·.text)), inOrder] at dedented
  generalize lines.reverse.mapM (Line.dedent indent') = r, lines'.reverse.mapM (Line.dedent indent') = r' at dedented ⊢
  rcases r with _ | texts <;> rcases r' with _ | texts' <;> cases dedented
  · exact .fault
  · rename_i both
    obtain ⟨length, rfl⟩ := both
    refine .ok ⟨behind, _, whole, ?_⟩
    rw [List.singleton_append, blockBody_eq lineless unbroken closing]
    exact .block length

theorem blockString_crlf {i j : Input} (same : j.rest = crlf i.rest) (returnless : '\r' ∉ i.rest)
    (starts : quotes <+: i.rest) :
    Together (Reread i) ((blockString i).1.map fun cs => .string (String.ofList cs), (blockString i).2)
      ((blockString j).1.map fun cs => .string (String.ofList cs), (blockString j).2) := by
  unfold blockString
  dsimp only
  rw [← opened, ← opened]
  rcases opened_crlf same starts with ⟨spaces, rest, lineless, passes, here, here'⟩ | ⟨other, other'⟩
  · rw [if_pos (by rw [here]; rfl), if_pos (by rw [here']; rfl)]
    have skipped : (opened i).skip.rest = rest := by rw [Input.skip_rest, here, List.tail_cons]
    have skipped' : (opened j).skip.rest = crlf rest := by rw [Input.skip_rest, here', List.tail_cons]
    have returnlessRest : '\r' ∉ (opened i).skip.rest := by
      rw [passes.rest, here] at returnless
      rw [skipped]
      exact fun inside => returnless (List.mem_append_right _ (List.mem_cons_of_mem _ inside))
    have found := blockLines_crlf i.offset j.offset (skipped'.trans (congrArg crlf skipped.symm)) returnlessRest .nil
    generalize blockLines i.offset (opened i).skip [] = r, blockLines j.offset (opened j).skip [] = r' at found ⊢
    cases found with
    | fault => exact .fault
    | ok closed => exact closed.reread lineless passes here
  · rw [if_neg other, if_neg other']
    exact .fault

end Block

section Lexemes

variable {i j : Input} {c : Char} {rest : List Char}

/-- A lexeme on one line is the same in both texts. -/
theorem lexeme_line_crlf (same : j.rest = crlf i.rest) (here : i.rest = c :: rest) (line : c ≠ '\n')
    (single : ¬quotes <+: i.rest) : Together Same (lexeme i) (lexeme j) := by
  have here' : j.rest = c :: crlf rest := by rw [same, here, Text.crlf_cons line]
  have take (pre : List Char) {kind : TokenKind} (starts : pre <+: i.rest) (lineless : '\n' ∉ pre)
      (read : lexeme i = (.ok kind, i.skipMany pre.length)) (read' : lexeme j = (.ok kind, j.skipMany pre.length)) :
      Together Same (lexeme i) (lexeme j) := by
    rw [read, read']
    exact .ok ⟨rfl, skipMany_crlf same starts lineless⟩
  have first : [c] <+: i.rest := by simp [here]
  have lineless : '\n' ∉ [c] := by simpa using line.symm
  have prefixed {pre : List Char} (lineless : '\n' ∉ pre) (returnless : '\r' ∉ pre) :
      pre <+: crlf rest ↔ pre <+: rest := Text.prefix_crlf_iff lineless returnless
  by_cases mark : c ∈ [':', '.', '"']
  · rcases List.mem_cons.mp mark with rfl | mark
    · by_cases double : [':'] <+: rest
      · obtain ⟨rest, rfl⟩ := double
        rw [Text.crlf_line (by decide)] at here'
        exact take [':', ':'] (by simp [here]) (by decide) (lexeme_doubleColon here) (lexeme_doubleColon here')
      · exact take _ first lineless (lexeme_colon here double)
          (lexeme_colon here' (by rwa [prefixed (by decide) (by decide)]))
    rcases List.mem_cons.mp mark with rfl | mark
    · by_cases triple : ['.', '.'] <+: rest
      · obtain ⟨rest, rfl⟩ := triple
        rw [Text.crlf_line (by decide)] at here'
        exact take ['.', '.', '.'] (by simp [here]) (by decide) (lexeme_ellipsis here) (lexeme_ellipsis here')
      · exact take _ first lineless (lexeme_dot here triple)
          (lexeme_dot here' (by rwa [prefixed (by decide) (by decide)]))
    cases List.mem_singleton.mp mark
    have alone : ¬['"', '"'] <+: rest := fun two => single (by rw [here]; exact List.cons_prefix_cons.mpr ⟨rfl, two⟩)
    rw [lexeme_eq_stringBody here alone, lexeme_eq_stringBody here' (by rwa [prefixed (by decide) (by decide)])]
    refine (stringBody_crlf _ _ ?_).map _
    rw [Input.skip_rest, Input.skip_rest, here, here', List.tail_cons, List.tail_cons]
  cases alone : punctuation c with
  | some kind => exact take [c] first lineless (lexeme_punctuation here alone) (lexeme_punctuation here' alone)
  | none =>
    cases digit : isAsciiDigit c with
    | true =>
      rw [lexeme_number here digit, lexeme_number here' digit]
      exact number_crlf same
    | false =>
      cases starts : startsName c with
      | true =>
        rw [lexeme_name here starts digit, lexeme_name here' starts digit]
        exact name_crlf same here line
      | false =>
        rw [lexeme_unexpected here mark alone digit starts, lexeme_unexpected here' mark alone digit starts]
        exact .fault

/-- A lexeme is read in both texts, or in neither. -/
theorem lexeme_crlf (same : j.rest = crlf i.rest) (returnless : '\r' ∉ i.rest) (here : i.rest = c :: rest)
    (line : c ≠ '\n') : Together (Reread i) (lexeme i) (lexeme j) := by
  by_cases quoted : quotes <+: i.rest
  · obtain ⟨rest, opening⟩ := quoted
    have opening' : j.rest = '"' :: '"' :: '"' :: crlf rest := by
      rw [same, ← opening, Text.crlf_line (by decide)]
      rfl
    rw [lexeme_eq_blockString opening.symm, lexeme_eq_blockString opening']
    exact blockString_crlf same returnless ⟨rest, opening⟩
  · have reached := reaches_lexeme i
    have together := lexeme_line_crlf same here line quoted
    generalize lexeme i = r, lexeme j = r' at reached together
    cases together with
    | fault => exact .fault
    | ok both =>
      obtain ⟨rfl, behind⟩ := both
      obtain ⟨cs, passes⟩ := reached
      have other : ¬quotes <+: cs := fun starts => quoted (starts.trans ⟨_, passes.rest.symm⟩)
      exact .ok ⟨behind, cs, passes, .plain (blockBody_of_unquoted other)⟩

end Lexemes

end StackLattice.Syntax
