import StackLattice.Proofs.Value.Unify
import StackLattice.Syntax.Scanner

/-!
A lexeme is the same at every place of a text and before every line break: what is read from a text is read from the
text with more lines behind it, and leaves the more.
-/

namespace StackLattice.Syntax

open Text (Input isBlank isAsciiDigit isAlphabetic isAlphanumeric byteLength)

/-- Nothing, or more lines. -/
def MoreLines (tail : List Char) : Prop := ∀ c ∈ tail.head?, c = '\n'

theorem moreLines_nil : MoreLines [] := fun _ impossible => by cases impossible

theorem moreLines_cons (cs : List Char) : MoreLines ('\n' :: cs) := fun c here => by
  cases here
  rfl

theorem moreLines_dropWhile (cs : List Char) : MoreLines (cs.dropWhile (· ≠ '\n')) := by
  intro c first
  have stopped := List.head?_dropWhile_not (· ≠ '\n') cs
  rw [Option.mem_def.mp first] at stopped
  simpa using stopped

theorem lineless_takeWhile_of {p : Char → Bool} (stops : p '\n' = false) (cs : List Char) : '\n' ∉ cs.takeWhile p := by
  intro inside
  have passed := List.all_eq_true.mp List.all_takeWhile _ inside
  rw [stops] at passed
  cases passed

theorem lineless_takeWhile (cs : List Char) : '\n' ∉ cs.takeWhile (· ≠ '\n') := lineless_takeWhile_of (by simp) cs

section Runs

variable {tail : List Char} {p : Char → Bool}

theorem MoreLines.takeWhile (more : MoreLines tail) (stops : p '\n' = false) : tail.takeWhile p = [] := by
  cases tail with
  | nil => rfl
  | cons c cs =>
    cases more c rfl
    rw [List.takeWhile_cons_of_neg (by simp [stops])]

theorem MoreLines.dropWhile (more : MoreLines tail) (stops : p '\n' = false) : tail.dropWhile p = tail := by
  cases tail with
  | nil => rfl
  | cons c cs =>
    cases more c rfl
    rw [List.dropWhile_cons_of_neg (by simp [stops])]

theorem MoreLines.takeWhile_append (more : MoreLines tail) (stops : p '\n' = false) (cs : List Char) :
    (cs ++ tail).takeWhile p = cs.takeWhile p := by
  induction cs with
  | nil => exact more.takeWhile stops
  | cons c cs ih => simp only [List.cons_append, List.takeWhile_cons, ih]

theorem MoreLines.dropWhile_append (more : MoreLines tail) (stops : p '\n' = false) (cs : List Char) :
    (cs ++ tail).dropWhile p = cs.dropWhile p ++ tail := by
  induction cs with
  | nil => exact more.dropWhile stops
  | cons c cs ih =>
    simp only [List.cons_append, List.dropWhile_cons, ih]
    split <;> rfl

end Runs

section Passing

variable {i j : Input} {tail : List Char} (same : j.rest = i.rest ++ tail)

include same

theorem skipMany_append {n : Nat} (inside : n ≤ i.rest.length) :
    (j.skipMany n).rest = (i.skipMany n).rest ++ tail := by
  rw [Input.skipMany_rest, Input.skipMany_rest, same, List.drop_append_of_le_length inside]

theorem skip_append (inside : i.rest ≠ []) : j.skip.rest = i.skip.rest ++ tail := by
  rw [Input.skip_rest, Input.skip_rest, same, List.tail_append_of_ne_nil inside]

theorem skipWhile_append {p : Char → Bool} (more : MoreLines tail) (stops : p '\n' = false) :
    (j.skipWhile p).rest = (i.skipWhile p).rest ++ tail := by
  rw [Input.skipWhile, Input.skipWhile, same, more.dropWhile_append stops]

end Passing

section Strings

variable {i j left : Input} {tail : List Char} {start start' : Nat}

/-- An escape is a code unit, or one character that stands for another. -/
theorem escape_eq_ok {rest : List Char} {c : Char} {taken : Nat} : escape rest = .ok (c, taken) ↔
    (∃ cs, rest = 'u' :: cs ∧ taken = 5 ∧ 4 ≤ cs.length ∧ codeUnit (cs.take 4) = some c) ∨
      ∃ d cs, rest = d :: cs ∧ taken = 1 ∧ plainEscape d = some c := by
  constructor
  · intro stands
    unfold escape at stands
    split at stands
    · cases stands
    · rename_i cs
      split at stands
      · cases stands
      · rename_i long
        split at stands <;> cases stands
        exact .inl ⟨cs, rfl, rfl, Nat.not_lt.mp long, ‹_›⟩
    · cases stands
    · rename_i d cs _ _
      split at stands <;> cases stands
      exact .inr ⟨d, cs, rfl, rfl, ‹_›⟩
  · rintro (⟨cs, rfl, rfl, long, unit⟩ | ⟨d, cs, rfl, rfl, plain⟩)
    · rw [escape, if_neg (Nat.not_lt.mpr long), unit]
    · rw [escape, plain]
      · rintro rfl
        cases plain
      · rintro rfl
        cases plain

theorem escape_append {cs : List Char} {r : Char × Nat} (h : escape cs = .ok r) (tail : List Char) :
    escape (cs ++ tail) = .ok r ∧ r.2 ≤ cs.length := by
  obtain ⟨c, taken⟩ := r
  rcases escape_eq_ok.mp h with ⟨cs, rfl, rfl, long, unit⟩ | ⟨d, cs, rfl, rfl, plain⟩
  · refine ⟨escape_eq_ok.mpr (.inl ⟨cs ++ tail, rfl, rfl, ?_, ?_⟩), Nat.succ_le_succ long⟩
    · rw [List.length_append]
      omega
    · rw [List.take_append_of_le_length long, unit]
  · exact ⟨escape_eq_ok.mpr (.inr ⟨d, cs ++ tail, rfl, rfl, plain⟩), Nat.succ_le_succ (Nat.zero_le _)⟩

theorem escape_of_lineEscape {cs : List Char} {r : Char × Nat} (h : lineEscape cs = .ok r) : escape cs = .ok r := by
  unfold lineEscape at h
  split at h
  · split at h <;> cases h
  · exact h

theorem lineEscape_of_escape {cs : List Char} {r : Char × Nat} (h : escape cs = .ok r) : lineEscape cs = .ok r := by
  rw [lineEscape, h]

theorem stringBody_quote {rest : List Char} (here : i.rest = '"' :: rest) : stringBody start i = (.ok [], i.skip) := by
  unfold stringBody
  split <;> simp_all

theorem stringBody_escape {rest : List Char} {c : Char} {taken : Nat} (here : i.rest = '\\' :: rest)
    (stands : lineEscape rest = .ok (c, taken)) :
    stringBody start i =
      ((stringBody start (i.skipMany (taken + 1))).1.map (c :: ·), (stringBody start (i.skipMany (taken + 1))).2) := by
  conv => lhs; unfold stringBody
  split <;> simp_all

theorem stringBody_plain {rest : List Char} {c : Char} (here : i.rest = c :: rest)
    (other : c ≠ '\n' ∧ c ≠ '"' ∧ c ≠ '\\') :
    stringBody start i = ((stringBody start i.skip).1.map (c :: ·), (stringBody start i.skip).2) := by
  have newline := other.1.symm
  have quote := other.2.1.symm
  have backslash := other.2.2.symm
  conv => lhs; unfold stringBody
  split <;> simp_all

theorem stringBody_append {text : List Char} (same : j.rest = i.rest ++ tail)
    (read : stringBody start i = (.ok text, left)) :
    ∃ left', stringBody start' j = (.ok text, left') ∧ left'.rest = left.rest ++ tail := by
  fun_induction stringBody start i generalizing j text left with
  | case1 | case2 | case4 => cases read
  | case3 i rest here =>
    cases read
    rw [here, List.cons_append] at same
    refine ⟨j.skip, stringBody_quote same, ?_⟩
    rw [Input.skip_rest, Input.skip_rest, same, here]
    rfl
  | case5 i rest here c taken stands others last next ih =>
    rw [here, List.cons_append] at same
    obtain ⟨escaped, inside⟩ := escape_append (escape_of_lineEscape stands) tail
    cases others with
    | error e => cases read
    | ok cs =>
      cases read
      obtain ⟨left', step, rest⟩ := ih (j := j.skipMany (taken + 1))
        (skipMany_append (by rw [same, here]; rfl) (by rw [here, List.length_cons]; omega)) next
      refine ⟨left', ?_, rest⟩
      rw [stringBody_escape same (lineEscape_of_escape escaped), step]
      rfl
  | case6 i c rest newline quote backslash here others last next ih =>
    rw [here, List.cons_append] at same
    cases others with
    | error e => cases read
    | ok cs =>
      cases read
      obtain ⟨left', step, rest⟩ := ih (j := j.skip) (skip_append (by rw [same, here]; rfl) (by simp [here])) next
      refine ⟨left', ?_, rest⟩
      rw [stringBody_plain same ⟨newline, quote, backslash⟩, step]
      rfl

theorem unescape_escape {offset : Nat} {rest : List Char} {c : Char} {taken : Nat} (stands : escape rest = .ok (c, taken)) :
    unescape offset ('\\' :: rest) =
      (unescape (offset + 1 + byteLength (rest.take taken)) (rest.drop taken)).map (c :: ·) := by
  rw [unescape, stands]
  rfl

theorem unescape_plain {offset : Nat} {rest : List Char} {c : Char} (other : c ≠ '\\') :
    unescape offset (c :: rest) = (unescape (offset + c.utf8Size) rest).map (c :: ·) := by
  rw [unescape]
  · rfl
  · exact other

theorem unescape_elsewhere {offset : Nat} (offset' : Nat) {cs text : List Char}
    (read : unescape offset cs = .ok text) : unescape offset' cs = .ok text := by
  fun_induction unescape offset cs generalizing offset' text with
  | case1 =>
    rw [unescape]
    exact read
  | case2 => cases read
  | case3 offset rest c taken stands ih =>
    obtain ⟨tail, others, same⟩ := Value.bind_eq_ok read
    cases same
    rw [unescape_escape stands, ih _ others]
    rfl
  | case4 offset c rest other ih =>
    obtain ⟨tail, others, same⟩ := Value.bind_eq_ok read
    cases same
    rw [unescape_plain other, ih _ others]
    rfl

theorem dedent_elsewhere {l l' : Line} {indent text : List Char} (same : l.text = l'.text)
    (read : l.dedent indent = .ok text) : l'.dedent indent = .ok text := by
  unfold Line.dedent at read ⊢
  rw [← same]
  by_cases blank : l.text.all isBlank = true
  · rwa [if_pos blank] at read ⊢
  · rw [if_neg blank] at read ⊢
    by_cases indented : indent.isPrefixOf l.text = true
    · rw [if_pos indented] at read ⊢
      exact unescape_elsewhere _ read
    · rw [if_neg indented] at read
      cases read

theorem dedentAll_elsewhere {ls ls' : List Line} {indent : List Char} {texts : List (List Char)}
    (same : ls.map (·.text) = ls'.map (·.text)) (read : ls.mapM (Line.dedent indent) = .ok texts) :
    ls'.mapM (Line.dedent indent) = .ok texts := by
  rw [Value.mapM_eq_ok] at read ⊢
  induction read generalizing ls' with
  | nil =>
    rw [List.map_nil, eq_comm, List.map_eq_nil_iff] at same
    rw [same]
    exact .nil
  | cons first _ ih =>
    cases ls' with
    | nil => cases same
    | cons l' ls' =>
      obtain ⟨here, others⟩ := List.cons.inj same
      exact .cons (dedent_elsewhere here first) (ih others)

theorem blockLines_end {start : Nat} {lines : List Line} (here : i.rest = []) :
    blockLines start i lines = (.error ⟨.unterminatedString, ⟨start, start + 3⟩⟩, i) := by
  unfold blockLines
  split
  · rfl
  · rename_i filled
    cases here.symm.trans filled

theorem blockLines_eq {lines : List Line} {line : List Char} (filled : i.rest ≠ [])
    (first : i.rest.takeWhile (· ≠ '\n') = line) :
    blockLines start i lines =
      if quotes.isPrefixOf (line.dropWhile isBlank) then
        (.ok (lines, line.takeWhile isBlank), i.skipMany ((line.takeWhile isBlank).length + 3))
      else blockLines start (i.skipMany (line.length + 1)) (⟨i.offset, line⟩ :: lines) := by
  subst first
  conv => lhs; unfold blockLines
  split
  · rename_i none
    exact absurd none filled
  · rfl

theorem blockLines_append {lines lines' ls : List Line} {indent : List Char} (more : MoreLines tail)
    (same : j.rest = i.rest ++ tail) (texts : lines.map (·.text) = lines'.map (·.text))
    (read : blockLines start i lines = (.ok (ls, indent), left)) :
    ∃ ls' left', blockLines start' j lines' = (.ok (ls', indent), left') ∧
      left'.rest = left.rest ++ tail ∧ ls.map (·.text) = ls'.map (·.text) := by
  fun_induction blockLines start i lines generalizing j lines' ls indent left with
  | case1 => cases read
  | case2 i lines _ _ here line =>
    cases read
    have ofLine : j.rest.takeWhile (· ≠ '\n') = line := by rw [same, more.takeWhile_append (by simp)]
    have filled : j.rest ≠ [] := by simp [same, here]
    rename_i quoted
    refine ⟨lines', _, by rw [blockLines_eq filled ofLine, if_pos quoted], skipMany_append same ?_, texts⟩
    have fits : line.length ≤ i.rest.length := (List.takeWhile_prefix _).length_le
    have three : 3 ≤ (line.dropWhile isBlank).length := (List.isPrefixOf_iff_prefix.mp quoted).length_le
    have parts := congrArg List.length (List.takeWhile_append_dropWhile (p := isBlank) (l := line))
    rw [List.length_append] at parts
    show (line.takeWhile isBlank).length + 3 ≤ i.rest.length
    omega
  | case3 i lines _ _ here line unclosed =>
    rename_i ih
    have ofLine : j.rest.takeWhile (· ≠ '\n') = line := by rw [same, more.takeWhile_append (by simp)]
    have filled : j.rest ≠ [] := by simp [same, here]
    rw [blockLines_eq filled ofLine, if_neg unclosed]
    by_cases fits : line.length + 1 ≤ i.rest.length
    · exact ih (skipMany_append same fits) (by rw [List.map_cons, List.map_cons, texts]) read
    · -- Without a line break behind it, the line is the last, and the literal is not closed.
      have nothing : (i.skipMany (line.length + 1)).rest = [] := by
        rw [Input.skipMany_rest, List.drop_eq_nil_iff]
        omega
      unfold blockLines at read
      split at read
      · cases read
      · rename_i more
        cases nothing.symm.trans more

theorem blockString_append {text : List Char} (more : MoreLines tail) (same : j.rest = i.rest ++ tail)
    (long : 3 ≤ i.rest.length) (read : blockString i = (.ok text, left)) :
    ∃ left', blockString j = (.ok text, left') ∧ left'.rest = left.rest ++ tail := by
  unfold blockString at read ⊢
  have opened := skipWhile_append (p := fun c => isBlank c && c != '\n') (skipMany_append same long) more (by decide)
  generalize (i.skipMany 3).skipWhile (fun c => isBlank c && c != '\n') = before at read opened
  generalize (j.skipMany 3).skipWhile (fun c => isBlank c && c != '\n') = before' at opened
  dsimp only at read ⊢
  by_cases broken : before.rest.head? = some '\n'
  · have filled : before.rest ≠ [] := fun none => by rw [none] at broken; cases broken
    have broken' : before'.rest.head? = some '\n' := by
      rw [opened, List.head?_append, broken]
      rfl
    rw [if_pos broken] at read
    rw [if_pos broken']
    rcases lines : blockLines i.offset before.skip [] with ⟨found, left₁⟩
    rw [lines] at read
    cases found with
    | error e => cases read
    | ok found =>
      obtain ⟨ls, indent⟩ := found
      obtain ⟨ls', left', closed, rest, texts⟩ : ∃ ls' left',
          blockLines j.offset before'.skip [] = (.ok (ls', indent), left') ∧ _ ∧ _ :=
        blockLines_append more (skip_append opened filled) rfl lines
      simp only [closed]
      simp only [Prod.mk.injEq] at read ⊢
      obtain ⟨read, rfl⟩ := read
      refine ⟨left', ⟨?_, rfl⟩, rest⟩
      cases dedented : ls.reverse.mapM (Line.dedent indent) with
      | error e =>
        rw [dedented] at read
        cases read
      | ok texts' =>
        rw [dedented] at read
        rw [dedentAll_elsewhere (by rw [List.map_reverse, List.map_reverse, texts]) dedented]
        exact read
  · rw [if_neg broken] at read
    cases read

end Strings

section Numbers

variable {i j left : Input} {tail : List Char}

theorem not_isNumberChar_newline : isNumberChar '\n' = false := by decide

theorem pointPart_of_ne {c : Char} (other : c ≠ '.') (cs : List Char) : pointPart (c :: cs) = [] := by
  unfold pointPart
  split <;> simp_all

theorem pointPart_append (more : MoreLines tail) (cs : List Char) : pointPart (cs ++ tail) = pointPart cs := by
  match cs with
  | [] =>
    cases tail with
    | nil => rfl
    | cons c tail =>
      cases more c rfl
      rfl
  | c :: cs =>
    by_cases point : c = '.'
    · subst point
      cases cs with
      | nil =>
        cases tail with
        | nil => rfl
        | cons c tail =>
          cases more c rfl
          rfl
      | cons c cs =>
        simp only [List.cons_append, pointPart, more.takeWhile_append not_isNumberChar_newline]
    · rw [List.cons_append, pointPart_of_ne point, pointPart_of_ne point]

theorem exponentPart_of_ne {c : Char} (other : c ≠ 'e' ∧ c ≠ 'E') (cs : List Char) : exponentPart (c :: cs) = [] := by
  unfold exponentPart
  split <;> simp_all

theorem exponentPart_plain {mark c : Char} (unsigned : c ≠ '+' ∧ c ≠ '-') (cs : List Char) :
    exponentPart (mark :: c :: cs) =
      if (mark == 'e' || mark == 'E') && isAsciiDigit c then mark :: c :: cs.takeWhile isNumberChar else [] := by
  rw [exponentPart] <;> simp [unsigned]

theorem exponentPart_signed {mark sign c : Char} (signed : sign = '+' ∨ sign = '-') (cs : List Char) :
    exponentPart (mark :: sign :: c :: cs) =
      if (mark == 'e' || mark == 'E') && isAsciiDigit c then mark :: sign :: c :: cs.takeWhile isNumberChar
      else [] := by
  rcases signed with rfl | rfl <;> rfl

theorem exponentPart_append (more : MoreLines tail) (cs : List Char) :
    exponentPart (cs ++ tail) = exponentPart cs := by
  have line : isAsciiDigit '\n' = false := by decide
  cases tail with
  | nil => rw [List.append_nil]
  | cons newline tail =>
    cases more newline rfl
    match cs with
    | [] => exact exponentPart_of_ne (by decide) tail
    | [mark] =>
      rw [List.cons_append, List.nil_append, exponentPart_plain (by decide), line, Bool.and_false]
      rfl
    | mark :: c :: cs =>
      by_cases signed : c = '+' ∨ c = '-'
      · cases cs with
        | nil =>
          rw [List.cons_append, List.cons_append, List.nil_append, exponentPart_signed signed, line, Bool.and_false]
          rcases signed with rfl | rfl <;> simp [exponentPart, show isAsciiDigit '+' = false by decide,
            show isAsciiDigit '-' = false by decide]
        | cons d cs =>
          rw [List.cons_append, List.cons_append, List.cons_append, exponentPart_signed signed,
            exponentPart_signed signed, more.takeWhile_append not_isNumberChar_newline]
      · rw [not_or] at signed
        rw [List.cons_append, List.cons_append, exponentPart_plain signed, exponentPart_plain signed,
          more.takeWhile_append not_isNumberChar_newline]

theorem not_newline_of_digit {c : Char} (digit : isAsciiDigit c = true) : '\n' ≠ c := by
  rintro rfl
  cases digit

theorem digits_line (pre : List Char) (lineless : '\n' ∉ pre) (rest : List Char) :
    pre ++ rest.takeWhile isNumberChar <+: pre ++ rest ∧ '\n' ∉ pre ++ rest.takeWhile isNumberChar := by
  refine ⟨(List.prefix_append_right_inj pre).mpr (List.takeWhile_prefix _), ?_⟩
  rw [List.mem_append, not_or]
  exact ⟨lineless, lineless_takeWhile_of not_isNumberChar_newline rest⟩

/-- The parts of a number stand on one line. -/
theorem pointPart_line (cs : List Char) : pointPart cs <+: cs ∧ '\n' ∉ pointPart cs := by
  unfold pointPart
  split
  · rename_i c rest
    split
    · exact digits_line ['.', c] (by simp [not_newline_of_digit ‹_›]) rest
    · exact ⟨List.nil_prefix, List.not_mem_nil⟩
  · exact ⟨List.nil_prefix, List.not_mem_nil⟩

theorem exponentPart_line (cs : List Char) : exponentPart cs <+: cs ∧ '\n' ∉ exponentPart cs := by
  have marked {mark c : Char} (h : ((mark == 'e' || mark == 'E') && isAsciiDigit c) = true) :
      '\n' ≠ mark ∧ '\n' ≠ c := by
    rw [Bool.and_eq_true] at h
    refine ⟨?_, not_newline_of_digit h.2⟩
    rintro rfl
    cases h.1
  unfold exponentPart
  split
  · rename_i mark c rest
    split
    · exact digits_line [mark, '+', c] (by simp [marked ‹_›]) rest
    · exact ⟨List.nil_prefix, List.not_mem_nil⟩
  · rename_i mark c rest
    split
    · exact digits_line [mark, '-', c] (by simp [marked ‹_›]) rest
    · exact ⟨List.nil_prefix, List.not_mem_nil⟩
  · rename_i mark c rest _ _
    split
    · exact digits_line [mark, c] (by simp [marked ‹_›]) rest
    · exact ⟨List.nil_prefix, List.not_mem_nil⟩
  · exact ⟨List.nil_prefix, List.not_mem_nil⟩

theorem number_append {kind : TokenKind} (more : MoreLines tail) (same : j.rest = i.rest ++ tail)
    (read : number i = (.ok kind, left)) :
    ∃ left', number j = (.ok kind, left') ∧ left'.rest = left.rest ++ tail := by
  unfold number at read ⊢
  have whole : j.rest.takeWhile isNumberChar = i.rest.takeWhile isNumberChar := by
    rw [same, more.takeWhile_append not_isNumberChar_newline]
  have rest : j.rest.dropWhile isNumberChar = i.rest.dropWhile isNumberChar ++ tail := by
    rw [same, more.dropWhile_append not_isNumberChar_newline]
  have parts := congrArg List.length (List.takeWhile_append_dropWhile (p := isNumberChar) (l := i.rest))
  simp only [whole, rest] at read ⊢
  generalize i.rest.takeWhile isNumberChar = digits at read parts
  generalize i.rest.dropWhile isNumberChar = others at read parts
  have pointFits := (pointPart_line others).1.length_le
  have exponentFits := (exponentPart_line (others.drop (pointPart others).length)).1.length_le
  simp only [pointPart_append more, List.drop_append_of_le_length pointFits, exponentPart_append more]
  generalize pointPart others = point at *
  generalize exponentPart (others.drop point.length) = exponent at *
  have passed : (j.skipMany (digits ++ point ++ exponent).length).rest =
      (i.skipMany (digits ++ point ++ exponent).length).rest ++ tail := by
    refine skipMany_append same ?_
    simp only [List.length_append, List.length_drop] at parts exponentFits ⊢
    omega
  by_cases integer : (point.isEmpty && exponent.isEmpty) = true
  · rw [if_pos integer] at read ⊢
    split at read
    · cases read
      exact ⟨_, rfl, passed⟩
    · cases read
  · rw [if_neg integer] at read ⊢
    split at read
    · cases read
      exact ⟨_, rfl, passed⟩
    · cases read

end Numbers

section Names

variable {i j left : Input} {tail : List Char}

theorem not_isNameChar_newline : isNameChar '\n' = false := by decide +kernel

theorem name_hash {c : Char} {rest : List Char} (here : i.rest = '#' :: c :: rest)
    (starts : (isAlphabetic c || c == '_') = true) :
    name i = (.ok (nameToken (String.ofList ('#' :: (c :: rest).takeWhile isNameChar))),
      i.skipMany (((c :: rest).takeWhile isNameChar).length + 1)) := by
  unfold name
  rw [here]
  simp only [starts, if_true]

theorem name_bare {rest : List Char} (here : i.rest = '#' :: rest)
    (other : ∀ c ∈ rest.head?, (isAlphabetic c || c == '_') = false) :
    name i = (.error ⟨.bareHash, .single i.offset⟩, i.skip) := by
  unfold name
  rw [here]
  cases rest with
  | nil => rfl
  | cons c rest => simp only [other c rfl, Bool.false_eq_true, if_false]

theorem name_plain (other : i.rest.head? ≠ some '#') :
    name i = (.ok (nameToken (String.ofList (i.rest.takeWhile isNameChar))),
      i.skipMany (i.rest.takeWhile isNameChar).length) := by
  unfold name
  split
  · rename_i here
    rw [here] at other
    exact absurd rfl other
  · rename_i here
    rw [here] at other
    exact absurd rfl other
  · rfl

theorem name_append {kind : TokenKind} (more : MoreLines tail) (same : j.rest = i.rest ++ tail)
    (filled : i.rest ≠ []) (read : name i = (.ok kind, left)) :
    ∃ left', name j = (.ok kind, left') ∧ left'.rest = left.rest ++ tail := by
  by_cases hash : i.rest.head? = some '#'
  · unfold name at read
    split at read
    · rename_i c rest here
      by_cases starts : (isAlphabetic c || c == '_') = true
      · have whole := more.takeWhile_append not_isNameChar_newline (c :: rest)
        rw [if_pos starts] at read
        cases read
        rw [here, List.cons_append, List.cons_append] at same
        rw [name_hash same starts, ← List.cons_append, whole]
        refine ⟨_, rfl, skipMany_append (by rw [same, here]; rfl) ?_⟩
        have fits := (List.takeWhile_prefix (l := c :: rest) isNameChar).length_le
        rw [here, List.length_cons]
        omega
      · rw [if_neg starts] at read
        cases read
    · cases read
    · rename_i definition bare
      obtain ⟨rest, here⟩ := List.head?_eq_some_iff.mp hash
      cases rest with
      | nil => exact absurd here bare
      | cons c rest => exact absurd here (definition c rest)
  · have hash' : j.rest.head? ≠ some '#' := by
      rw [same, List.head?_append_of_ne_nil _ filled]
      exact hash
    rw [name_plain hash] at read
    cases read
    rw [name_plain hash', same, more.takeWhile_append not_isNameChar_newline]
    exact ⟨_, rfl, skipMany_append same (List.takeWhile_prefix _).length_le⟩

end Names

section Lexemes

variable {i j left : Input} {tail : List Char}

/-- Characters that are a token each, whatever follows them. -/
def punctuation : Char → Option TokenKind
  | '{' => some .leftBrace
  | '}' => some .rightBrace
  | '[' => some .leftBracket
  | ']' => some .rightBracket
  | '(' => some .leftParen
  | ')' => some .rightParen
  | ',' => some (.comma false)
  | '&' => some .ampersand
  | '|' => some .pipe
  | '*' => some .star
  | '-' => some .minus
  | '?' => some .question
  | _ => none

theorem lexeme_punctuation {c : Char} {rest : List Char} {kind : TokenKind} (here : i.rest = c :: rest)
    (is : punctuation c = some kind) : lexeme i = (.ok kind, i.skipMany 1) := by
  unfold punctuation at is
  unfold lexeme
  rw [here]
  split at is <;> cases is <;> rfl

theorem lexeme_doubleColon {rest : List Char} (here : i.rest = ':' :: ':' :: rest) :
    lexeme i = (.ok .doubleColon, i.skipMany 2) := by
  unfold lexeme
  rw [here]
  rfl

theorem lexeme_colon {rest : List Char} (here : i.rest = ':' :: rest) (single : ¬[':'] <+: rest) :
    lexeme i = (.ok .colon, i.skipMany 1) := by
  unfold lexeme
  rw [here]
  split <;> grind

theorem lexeme_ellipsis {rest : List Char} (here : i.rest = '.' :: '.' :: '.' :: rest) :
    lexeme i = (.ok .ellipsis, i.skipMany 3) := by
  unfold lexeme
  rw [here]
  rfl

theorem lexeme_dot {rest : List Char} (here : i.rest = '.' :: rest) (single : ¬['.', '.'] <+: rest) :
    lexeme i = (.ok .dot, i.skipMany 1) := by
  unfold lexeme
  rw [here]
  split <;> grind

theorem lexeme_eq_stringBody {rest : List Char} (here : i.rest = '"' :: rest) (single : ¬['"', '"'] <+: rest) :
    lexeme i = ((stringBody i.offset i.skip).1.map fun cs => .string (String.ofList cs),
      (stringBody i.offset i.skip).2) := by
  unfold lexeme
  rw [here]
  split <;> grind

theorem lexeme_string {rest text : List Char} (here : i.rest = '"' :: rest) (single : ¬['"', '"'] <+: rest)
    (read : stringBody i.offset i.skip = (.ok text, left)) :
    lexeme i = (.ok (.string (String.ofList text)), left) := by
  rw [lexeme_eq_stringBody here single, read]
  rfl

theorem lexeme_eq_blockString {rest : List Char} (here : i.rest = '"' :: '"' :: '"' :: rest) :
    lexeme i = ((blockString i).1.map fun cs => .string (String.ofList cs), (blockString i).2) := by
  unfold lexeme
  rw [here]
  rfl

theorem lexeme_block {rest text : List Char} (here : i.rest = '"' :: '"' :: '"' :: rest)
    (read : blockString i = (.ok text, left)) : lexeme i = (.ok (.string (String.ofList text)), left) := by
  rw [lexeme_eq_blockString here, read]
  rfl

theorem lexeme_number {c : Char} {rest : List Char} (here : i.rest = c :: rest) (digit : isAsciiDigit c = true) :
    lexeme i = number i := by
  unfold lexeme
  rw [here]
  split <;> rename_i same <;> cases same
  all_goals first
    | exact absurd digit (by decide)
    | exact if_pos digit

/-- Whether a name may start with a character. -/
def startsName (c : Char) : Bool := isAlphabetic c || c == '_' || c == '$' || c == '#'

theorem lexeme_name {c : Char} {rest : List Char} (here : i.rest = c :: rest) (starts : startsName c = true)
    (other : isAsciiDigit c = false) : lexeme i = name i := by
  unfold lexeme
  rw [here]
  split <;> rename_i same <;> cases same
  all_goals first
    | exact absurd starts (by decide)
    | rw [other, if_neg Bool.false_ne_true]
      exact if_pos starts

/-- No lexeme starts with a character that none of the readers takes. -/
theorem lexeme_unexpected {c : Char} {rest : List Char} (here : i.rest = c :: rest) (mark : c ∉ [':', '.', '"'])
    (alone : punctuation c = none) (digit : isAsciiDigit c = false) (starts : startsName c = false) :
    lexeme i = (.error ⟨.unexpectedCharacter c, .single i.offset⟩, i) := by
  unfold lexeme
  rw [here]
  split <;> rename_i same <;> cases same
  all_goals first
    | exact absurd alone (by decide)
    | exact absurd mark (by decide)
    | rw [digit, if_neg Bool.false_ne_true, ← startsName, starts, if_neg Bool.false_ne_true]

theorem not_prefix_append (more : MoreLines tail) {pre rest : List Char} (lineless : '\n' ∉ pre)
    (single : ¬pre <+: rest) : ¬pre <+: rest ++ tail := by
  induction pre generalizing rest with
  | nil => exact absurd List.nil_prefix single
  | cons p pre ih =>
    obtain ⟨ne, lineless⟩ := not_or.mp (List.mem_cons.not.mp lineless)
    cases rest with
    | nil =>
      rintro ⟨_, eq⟩
      rw [List.nil_append] at eq
      rw [← eq] at more
      exact ne (more p rfl).symm
    | cons r rest =>
      rw [List.cons_append, List.cons_prefix_cons]
      rintro ⟨rfl, longer⟩
      exact ih lineless (fun shorter => single (List.cons_prefix_cons.mpr ⟨rfl, shorter⟩)) longer

/-- A lexeme is read in the same way elsewhere, and when more lines stand behind the text. -/
theorem lexeme_append {kind : TokenKind} (more : MoreLines tail) (same : j.rest = i.rest ++ tail)
    (filled : i.rest ≠ []) (read : lexeme i = (.ok kind, left)) :
    ∃ left', lexeme j = (.ok kind, left') ∧ left'.rest = left.rest ++ tail := by
  have skipped {n : Nat} (inside : n ≤ i.rest.length) := skipMany_append same inside
  unfold lexeme at read
  simp only [] at read
  split at read
  case h_1 none => exact absurd none filled
  -- Two colons, and then one colon that stands alone also in the longer text.
  case h_14 here =>
    cases read
    exact ⟨j.skipMany 2, lexeme_doubleColon (by rw [same, here]; rfl), skipped (by simp [here])⟩
  case h_15 rest single here =>
    cases read
    refine ⟨j.skipMany 1, lexeme_colon (by rw [same, here]; rfl) (not_prefix_append more (by decide) ?_),
      skipped (by simp [here])⟩
    rintro ⟨others, rfl⟩
    exact single others rfl
  -- An ellipsis, and a single dot.
  case h_16 here =>
    cases read
    exact ⟨j.skipMany 3, lexeme_ellipsis (by rw [same, here]; rfl), skipped (by simp [here])⟩
  case h_17 rest single here =>
    cases read
    refine ⟨j.skipMany 1, lexeme_dot (by rw [same, here]; rfl) (not_prefix_append more (by decide) ?_),
      skipped (by simp [here])⟩
    rintro ⟨others, rfl⟩
    exact single others rfl
  -- Strings in three quotes and in one.
  case h_18 rest here =>
    rcases body : blockString i with ⟨found, last⟩
    rw [body] at read
    cases found with
    | error e => cases read
    | ok text =>
      cases read
      obtain ⟨left', closed, behind⟩ := blockString_append more same (by simp [here]) body
      exact ⟨left', lexeme_block (by rw [same, here]; rfl) closed, behind⟩
  case h_19 rest single here =>
    rcases body : stringBody i.offset i.skip with ⟨found, last⟩
    rw [body] at read
    cases found with
    | error e => cases read
    | ok text =>
      cases read
      obtain ⟨left', closed, behind⟩ : ∃ left', stringBody j.offset j.skip = (.ok text, left') ∧ _ :=
        stringBody_append (skip_append same filled) body
      refine ⟨left', lexeme_string (by rw [same, here]; rfl) (not_prefix_append more (by decide) ?_) closed, behind⟩
      rintro ⟨others, rfl⟩
      exact single others rfl
  -- Numbers and names.
  case h_20 =>
    rename_i first
    obtain ⟨c, rest, here⟩ := List.exists_cons_of_ne_nil filled
    obtain ⟨rfl, rfl⟩ := List.cons.inj (here.symm.trans first)
    have here' : j.rest = c :: (rest ++ tail) := by rw [same, here]; rfl
    by_cases digit : isAsciiDigit c = true
    · rw [if_pos digit] at read
      rw [lexeme_number here' digit]
      exact number_append more same read
    · rw [if_neg digit, ← startsName] at read
      by_cases starts : startsName c = true
      · rw [if_pos starts] at read
        rw [lexeme_name here' starts (Bool.eq_false_iff.mpr digit)]
        exact name_append more same filled read
      · rw [if_neg starts] at read
        cases read
  all_goals
    rename_i here
    cases read
    exact ⟨j.skipMany 1, lexeme_punctuation (by rw [same, here]; rfl) rfl, skipped (by simp [here])⟩

end Lexemes

end StackLattice.Syntax
