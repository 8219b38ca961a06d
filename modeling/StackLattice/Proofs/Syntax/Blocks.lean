import StackLattice.Proofs.Decimal.Digits
import StackLattice.Proofs.Syntax.Lexing

/-!
Literals over several lines are read line by line, each line as it is read between two quotes, and the values of the
lines are joined by line breaks.
-/

namespace StackLattice.Syntax

open Text (Input isBlank byteLength)

/-- Whether every quote follows a backslash that is not itself escaped. -/
def quotesEscaped : List Char → Bool
  | [] => true
  | '\\' :: _ :: cs => quotesEscaped cs
  | c :: cs => c != '"' && quotesEscaped cs

/-- What stands on a line of a literal behind the indentation. -/
structure Body (b : List Char) : Prop where
  lineless : '\n' ∉ b
  escaped : quotesEscaped b = true
  filled : b = [] ∨ ∃ c ∈ b, isBlank c = false

/-- The literal on one line with a text between its quotes. -/
def lineLiteral (b : List Char) : List Char := '"' :: (b ++ ['"'])

/-- The literal over several lines with an indentation in front of each line and of the closing quotes. -/
def blockLiteral (indent : List Char) (bs : List (List Char)) : List Char :=
  quotes ++ '\n' :: (bs.flatMap (fun b => indent ++ b ++ ['\n']) ++ (indent ++ quotes))

section Escapes

variable {b rest text : List Char} {c : Char} {taken : Nat} {r : Char × Nat}

theorem quotesEscaped_plain {cs : List Char} (h : quotesEscaped (c :: cs) = true) (plain : c ≠ '\\') :
    c ≠ '"' ∧ quotesEscaped cs = true := by
  rw [quotesEscaped] at h
  · simpa using h
  · rintro _ _ rfl
    exact absurd rfl plain

theorem quotesEscaped_drop {n : Nat} {cs : List Char} (plain : ∀ c ∈ cs.take n, c ≠ '\\')
    (h : quotesEscaped cs = true) : quotesEscaped (cs.drop n) = true := by
  induction n generalizing cs with
  | zero => exact h
  | succ n ih =>
    cases cs with
    | nil => rfl
    | cons c cs =>
      rw [List.take_succ_cons, List.forall_mem_cons] at plain
      exact ih plain.2 (quotesEscaped_plain h plain.1).2

theorem quotesEscaped_dropWhile {cs : List Char} (h : quotesEscaped cs = true) :
    quotesEscaped (cs.dropWhile isBlank) = true := by
  induction cs with
  | nil => rfl
  | cons c cs ih =>
    rw [List.dropWhile_cons]
    split
    · rename_i blank
      refine ih (quotesEscaped_plain h ?_).2
      rintro rfl
      cases blank
    · exact h

theorem plain_of_codeUnit {hex : List Char} (h : codeUnit hex = some c) : ∀ d ∈ hex, d ≠ '"' ∧ d ≠ '\\' := by
  obtain ⟨n, read, _⟩ := Option.bind_eq_some_iff.mp h
  intro d member
  rcases Decimal.sign_or_digit_of_naturalBelow read d member with rfl | digit
  · decide
  · constructor <;> rintro rfl <;> exact absurd digit (by decide)

/-- Behind an escape the quotes are escaped as they are before it. -/
theorem quotesEscaped_behind (h : quotesEscaped ('\\' :: rest) = true) (stands : escape rest = .ok (c, taken)) :
    quotesEscaped (rest.drop taken) = true := by
  rcases escape_eq_ok.mp stands with ⟨cs, rfl, rfl, _, unit⟩ | ⟨d, cs, rfl, rfl, _⟩ <;> rw [quotesEscaped] at h
  · exact quotesEscaped_drop (n := 4) (fun d member => (plain_of_codeUnit unit d member).2) h
  · exact h

/-- The closing quote is no part of an escape that begins before it. -/
theorem escape_before_quote (filled : rest ≠ []) (stands : escape (rest ++ ['"']) = .ok (c, taken)) :
    escape rest = .ok (c, taken) := by
  obtain ⟨d, rest, rfl⟩ := List.exists_cons_of_ne_nil filled
  rw [List.cons_append, escape_eq_ok] at stands
  rw [escape_eq_ok]
  rcases stands with ⟨cs, same, rfl, long, unit⟩ | ⟨d, cs, same, rfl, plain⟩ <;> cases same
  · have inside : '"' ∉ (rest ++ ['"']).take 4 := fun member => (plain_of_codeUnit unit _ member).1 rfl
    have enough : 4 ≤ rest.length := by
      by_contra short
      rw [List.length_append, List.length_singleton] at long
      rw [List.take_of_length_le (by rw [List.length_append, List.length_singleton]; omega)] at inside
      exact inside (List.mem_append_right rest (List.mem_singleton_self _))
    rw [List.take_append_of_le_length enough] at unit
    exact .inl ⟨rest, rfl, rfl, enough, unit⟩
  · exact .inr ⟨_, rest, rfl, rfl, plain⟩

end Escapes

section Lines

variable {i left : Input} {b text : List Char} {start offset : Nat}

theorem stringBody_of_unescape (start : Nat) (closed : i.rest = b ++ ['"']) (lineless : '\n' ∉ b)
    (escaped : quotesEscaped b = true) (read : unescape offset b = .ok text) :
    ∃ left, stringBody start i = (.ok text, left) ∧ left.rest = [] := by
  fun_induction unescape offset b generalizing i text with
  | case1 =>
    cases read
    exact ⟨i.skip, stringBody_quote closed, by rw [Input.skip_rest, closed]; rfl⟩
  | case2 => cases read
  | case3 offset rest c taken stands ih =>
    obtain ⟨tail, others, same⟩ := Value.bind_eq_ok read
    cases same
    obtain ⟨longer, inside⟩ := escape_append stands ['"']
    have behind : (i.skipMany (taken + 1)).rest = rest.drop taken ++ ['"'] := by
      rw [Input.skipMany_rest, closed, List.cons_append, List.drop_succ_cons, List.drop_append_of_le_length inside]
    have lineless' : '\n' ∉ rest.drop taken := fun member =>
      lineless (List.mem_cons_of_mem _ (List.mem_of_mem_drop member))
    obtain ⟨left, step, ends⟩ := ih behind lineless' (quotesEscaped_behind escaped stands) others
    refine ⟨left, ?_, ends⟩
    rw [stringBody_escape closed (lineEscape_of_escape longer), step]
    rfl
  | case4 offset c rest other ih =>
    obtain ⟨tail, others, same⟩ := Value.bind_eq_ok read
    cases same
    rw [List.mem_cons, not_or] at lineless
    have plain := quotesEscaped_plain escaped other
    have behind : i.skip.rest = rest ++ ['"'] := by
      rw [Input.skip_rest, closed]
      rfl
    obtain ⟨left, step, ends⟩ := ih behind lineless.2 plain.2 others
    refine ⟨left, ?_, ends⟩
    rw [stringBody_plain closed ⟨Ne.symm lineless.1, plain.1, other⟩, step]
    rfl

theorem not_stringBody_of_end (ends : i.rest = []) : stringBody start i ≠ (.ok text, left) := by
  intro read
  unfold stringBody at read
  split at read <;> simp_all

theorem unescape_of_stringBody (closed : i.rest = b ++ ['"']) (escaped : quotesEscaped b = true)
    (read : stringBody start i = (.ok text, left)) : unescape offset b = .ok text := by
  fun_induction stringBody start i generalizing b text left offset with
  | case1 | case2 | case4 => cases read
  | case3 i rest here =>
    cases read
    cases b with
    | nil => rw [unescape]
    | cons c b =>
      cases here.symm.trans closed
      exact absurd rfl (quotesEscaped_plain escaped (by decide)).1
  | case5 i rest here c taken stands others last next ih =>
    cases b with
    | nil => cases here.symm.trans closed
    | cons d b =>
      rw [here, List.cons_append] at closed
      obtain ⟨rfl, rfl⟩ := List.cons.inj closed
      have stands := escape_of_lineEscape stands
      by_cases filled : b = []
      · -- A backslash takes the closing quote, and no other follows.
        subst filled
        cases stands
        cases others with
        | error e => cases read
        | ok cs =>
          refine absurd next (not_stringBody_of_end ?_)
          rw [Input.skipMany_rest, here]
          rfl
      · have stands := escape_before_quote filled stands
        have inside := (escape_append stands []).2
        have behind : (i.skipMany (taken + 1)).rest = b.drop taken ++ ['"'] := by
          rw [Input.skipMany_rest, here, List.drop_succ_cons, List.drop_append_of_le_length inside]
        cases others with
        | error e => cases read
        | ok cs =>
          cases read
          rw [unescape_escape stands, ih behind (quotesEscaped_behind escaped stands) next]
          rfl
  | case6 i c rest newline quote backslash here others last next ih =>
    cases b with
    | nil =>
      cases here.symm.trans closed
      exact absurd rfl quote
    | cons d b =>
      rw [here, List.cons_append] at closed
      obtain ⟨rfl, rfl⟩ := List.cons.inj closed
      have behind : i.skip.rest = b ++ ['"'] := by
        rw [Input.skip_rest, here]
        rfl
      cases others with
      | error e => cases read
      | ok cs =>
        cases read
        rw [unescape_plain backslash, ih behind (quotesEscaped_plain escaped backslash).2 next]
        rfl

end Lines

section Literals

variable {i left : Input} {b text indent : List Char} {bs values : List (List Char)} {lines : List Line}
  {kind : TokenKind}

theorem not_prefix_of_quotesEscaped (escaped : quotesEscaped b = true) : ¬['"', '"'] <+: b ++ ['"'] := by
  cases b with
  | nil => decide
  | cons c b =>
    rw [List.cons_append, List.cons_prefix_cons]
    rintro ⟨rfl, _⟩
    exact (quotesEscaped_plain escaped (by decide)).1 rfl

theorem takes_lineLiteral (body : Body b) (read : unescape 0 b = .ok text) :
    Takes (lineLiteral b) (.string (String.ofList text)) [] := by
  intro i here
  have behind : i.skip.rest = b ++ ['"'] := by
    rw [Input.skip_rest, here]
    rfl
  obtain ⟨left, closed, ends⟩ := stringBody_of_unescape i.offset behind body.lineless body.escaped read
  exact ⟨left, lexeme_string here (not_prefix_of_quotesEscaped body.escaped) closed, ends⟩

theorem unescape_of_lexeme (here : i.rest = lineLiteral b) (body : Body b) (read : lexeme i = (.ok kind, left)) :
    ∃ text, unescape 0 b = .ok text := by
  have behind : i.skip.rest = b ++ ['"'] := by
    rw [Input.skip_rest, here]
    rfl
  rw [lexeme_eq_stringBody here (not_prefix_of_quotesEscaped body.escaped)] at read
  rcases closed : stringBody i.offset i.skip with ⟨found, left⟩
  rw [closed] at read
  cases found with
  | error e => cases read
  | ok text => exact ⟨text, unescape_of_stringBody behind body.escaped closed⟩

theorem dedent_eq_ok {l : Line} (blank : ∀ c ∈ indent, isBlank c = true ∧ c ≠ '\n') (body : Body b)
    (same : l.text = indent ++ b) : l.dedent indent = .ok text ↔ unescape 0 b = .ok text := by
  have prefixed : indent.isPrefixOf l.text = true := by
    rw [same]
    exact List.isPrefixOf_iff_prefix.mpr (List.prefix_append _ _)
  unfold Line.dedent
  rcases body.filled with rfl | ⟨c, inside, solid⟩
  · have all : l.text.all isBlank = true := by
      rw [same, List.append_nil, List.all_eq_true]
      exact fun c member => (blank c member).1
    rw [if_pos all, unescape]
  · have some : ¬l.text.all isBlank = true := by
      rw [List.all_eq_true, same]
      exact fun all => Bool.false_ne_true (solid.symm.trans (all c (List.mem_append_right _ inside)))
    rw [if_neg some, if_pos prefixed, same, List.drop_left]
    exact ⟨unescape_elsewhere _, unescape_elsewhere _⟩

theorem dedentAll_eq_ok (blank : ∀ c ∈ indent, isBlank c = true ∧ c ≠ '\n') (bodies : ∀ b ∈ bs, Body b)
    (same : lines.map (·.text) = bs.map (indent ++ ·)) :
    lines.mapM (Line.dedent indent) = .ok values ↔
      List.Forall₂ (fun b text => unescape 0 b = .ok text) bs values := by
  rw [Value.mapM_eq_ok]
  induction bs generalizing lines values with
  | nil =>
    rw [List.map_nil, List.map_eq_nil_iff] at same
    rw [same, List.forall₂_nil_left_iff, List.forall₂_nil_left_iff]
  | cons b bs ih =>
    rw [List.forall_mem_cons] at bodies
    rw [List.map_cons] at same
    obtain ⟨l, lines, rfl, here, others⟩ := List.map_eq_cons_iff.mp same
    simp only [List.forall₂_cons_left_iff, dedent_eq_ok blank bodies.1 here, ih bodies.2 others]

theorem takeWhile_line {line tail : List Char} (lineless : '\n' ∉ line) (more : MoreLines tail) :
    (line ++ tail).takeWhile (· ≠ '\n') = line := by
  have plain : ∀ c ∈ line, decide (c ≠ '\n') = true := by
    rintro c member
    simpa using ne_of_mem_of_not_mem member lineless
  rw [List.takeWhile_append_of_pos plain, more.takeWhile (by simp), List.append_nil]

theorem blockLines_bodies (start : Nat) (lines : List Line) (blank : ∀ c ∈ indent, isBlank c = true ∧ c ≠ '\n')
    (bodies : ∀ b ∈ bs, Body b)
    (here : i.rest = bs.flatMap (fun b => indent ++ b ++ ['\n']) ++ (indent ++ quotes)) :
    ∃ ls left, blockLines start i lines = (.ok (ls, indent), left) ∧ left.rest = [] ∧
      ls.map (·.text) = (bs.map (indent ++ ·)).reverse ++ lines.map (·.text) := by
  have lineless : '\n' ∉ indent := fun member => (blank _ member).2 rfl
  have dropped (cs : List Char) : (indent ++ cs).dropWhile isBlank = cs.dropWhile isBlank :=
    List.dropWhile_append_of_pos fun c member => (blank c member).1
  induction bs generalizing i lines with
  | nil =>
    rw [List.flatMap_nil, List.nil_append] at here
    have line : i.rest.takeWhile (· ≠ '\n') = indent ++ quotes := by
      have whole := takeWhile_line (List.not_mem_append lineless (by decide : '\n' ∉ quotes)) moreLines_nil
      rw [here]
      rwa [List.append_nil] at whole
    have taken : (indent ++ quotes).takeWhile isBlank = indent := by
      rw [List.takeWhile_append_of_pos fun c member => (blank c member).1]
      exact List.append_nil indent
    refine ⟨lines, i.skipMany (indent.length + 3), ?_, ?_, rfl⟩
    · rw [blockLines_eq (by simp [here, quotes]) line, dropped, if_pos (by decide), taken]
    · rw [Input.skipMany_rest, here]
      simp [quotes]
  | cons b bs ih =>
    rw [List.forall_mem_cons] at bodies
    have body := bodies.1
    rw [List.flatMap_cons, List.append_assoc, List.append_assoc] at here
    have line : i.rest.takeWhile (· ≠ '\n') = indent ++ b := by
      rw [here]
      exact takeWhile_line (List.not_mem_append lineless body.lineless) (moreLines_cons _)
    have unclosed : ¬quotes.isPrefixOf ((indent ++ b).dropWhile isBlank) = true := by
      rw [dropped, List.isPrefixOf_iff_prefix]
      have escaped := quotesEscaped_dropWhile body.escaped
      cases rest : b.dropWhile isBlank with
      | nil => decide
      | cons c cs =>
        rw [rest] at escaped
        rintro ⟨others, same⟩
        cases same
        exact (quotesEscaped_plain escaped (by decide)).1 rfl
    have behind : (i.skipMany ((indent ++ b).length + 1)).rest =
        bs.flatMap (fun b => indent ++ b ++ ['\n']) ++ (indent ++ quotes) := by
      rw [Input.skipMany_rest, here, ← List.drop_drop, List.drop_left]
      rfl
    obtain ⟨ls, left, read, ends, texts⟩ := ih (⟨i.offset, indent ++ b⟩ :: lines) bodies.2 behind
    refine ⟨ls, left, ?_, ends, ?_⟩
    · rw [blockLines_eq (by simp [here]) line, if_neg unclosed]
      exact read
    · simp [texts]

theorem blockString_eq (blank : ∀ c ∈ indent, isBlank c = true ∧ c ≠ '\n') (bodies : ∀ b ∈ bs, Body b)
    (here : i.rest = blockLiteral indent bs) :
    ∃ (lines : List Line) (left : Input), lines.map (·.text) = bs.map (indent ++ ·) ∧ left.rest = [] ∧
      blockString i = ((lines.mapM (Line.dedent indent)).map fun texts => ['\n'].intercalate texts, left) := by
  have opened : ((i.skipMany 3).skipWhile fun c => isBlank c && c != '\n').rest =
      '\n' :: (bs.flatMap (fun b => indent ++ b ++ ['\n']) ++ (indent ++ quotes)) := by
    rw [Input.skipWhile, Input.skipMany_rest, here]
    rfl
  generalize before : (i.skipMany 3).skipWhile (fun c => isBlank c && c != '\n') = opening at opened
  have behind : opening.skip.rest = bs.flatMap (fun b => indent ++ b ++ ['\n']) ++ (indent ++ quotes) := by
    rw [Input.skip_rest, opened]
    rfl
  obtain ⟨ls, left, read, ends, texts⟩ := blockLines_bodies i.offset [] blank bodies behind
  refine ⟨ls.reverse, left, ?_, ends, ?_⟩
  · rw [List.map_reverse, texts, List.map_nil, List.append_nil, List.reverse_reverse]
  · unfold blockString
    dsimp only
    rw [before, opened, List.head?_cons, if_pos rfl, read]

theorem takes_blockLiteral (blank : ∀ c ∈ indent, isBlank c = true ∧ c ≠ '\n') (bodies : ∀ b ∈ bs, Body b)
    (read : List.Forall₂ (fun b text => unescape 0 b = .ok text) bs values) :
    Takes (blockLiteral indent bs) (.string (String.ofList (['\n'].intercalate values))) [] := by
  intro i here
  obtain ⟨lines, left, same, ends, block⟩ := blockString_eq blank bodies here
  rw [(dedentAll_eq_ok blank bodies same).mpr read] at block
  exact ⟨left, lexeme_block here block, ends⟩

theorem unescapeAll_of_lexeme (blank : ∀ c ∈ indent, isBlank c = true ∧ c ≠ '\n') (bodies : ∀ b ∈ bs, Body b)
    (here : i.rest = blockLiteral indent bs) (read : lexeme i = (.ok kind, left)) :
    ∃ values, List.Forall₂ (fun b text => unescape 0 b = .ok text) bs values := by
  obtain ⟨lines, behind, same, _, block⟩ := blockString_eq blank bodies here
  rw [lexeme_eq_blockString here, block] at read
  cases dedented : lines.mapM (Line.dedent indent) with
  | error e =>
    rw [dedented] at read
    cases read
  | ok values => exact ⟨values, (dedentAll_eq_ok blank bodies same).mp dedented⟩

end Literals

namespace Scanner

variable {keepComments : Bool} {ks ks' : List TokenKind} {b cs indent : List Char} {bs : List (List Char)}

theorem Reads.unique {s : Scanner} (h : s.Reads ks) (h' : s.Reads ks') : ks = ks' := by
  obtain ⟨tokens, t, read, rfl⟩ := h
  obtain ⟨tokens', t', read', rfl⟩ := h'
  cases read.symm.trans read'
  rfl

theorem exists_lexeme_of_reads {s : Scanner} {c : Char} (here : s.input.rest = c :: cs) (solid : isBlank c = false)
    (plain : c ≠ '/') (h : s.Reads ks) : ∃ kind left, lexeme s.input = (.ok kind, left) := by
  rcases read : lexeme s.input with ⟨_ | kind, left⟩
  · obtain ⟨tokens, t, all, _⟩ := h
    have fault : s.next = s.readToken := by
      rw [next_other here, solid, if_neg Bool.false_ne_true]
      · rintro rfl
        cases solid
      · exact fun comment => plain (List.cons_prefix_cons.mp comment).1.symm
    rw [readToken, read] at fault
    cases (tokens_of_fault fault).symm.trans all
  · exact ⟨kind, left, rfl⟩

/-- A text that is one literal reads as its value. -/
theorem reads_literal_iff {α : Type} {value : α → Prop} (text : α → List Char)
    (takes : ∀ a, value a → Takes ('"' :: cs) (.string (String.ofList (text a))) [])
    (only : ∀ i kind left, i.rest = '"' :: cs → lexeme i = (.ok kind, left) → ∃ a, value a) :
    (ofString (String.ofList ('"' :: cs)) keepComments).Reads ks ↔
      ∃ a, value a ∧ ks = [.string (String.ofList (text a)), .comma true, .eof] := by
  have here : (ofString (String.ofList ('"' :: cs)) keepComments).input.rest = '"' :: cs := String.toList_ofList
  have reads {a : α} (is : value a) : (ofString (String.ofList ('"' :: cs)) keepComments).Reads
      [.string (String.ofList (text a)), .comma true, .eof] :=
    (Lexes.token (p := false) (by decide) (takes a is) .done).reads _ here rfl
  constructor
  · intro h
    obtain ⟨kind, left, read⟩ := exists_lexeme_of_reads here (by decide) (by decide) h
    obtain ⟨a, is⟩ := only _ kind left here read
    exact ⟨a, is, h.unique (reads is)⟩
  · rintro ⟨a, is, rfl⟩
    exact reads is

theorem reads_lineLiteral_iff (body : Body b) :
    (ofString (String.ofList (lineLiteral b)) keepComments).Reads ks ↔
      ∃ text, unescape 0 b = .ok text ∧ ks = [.string (String.ofList text), .comma true, .eof] :=
  reads_literal_iff id (fun _ => takes_lineLiteral body) fun _ _ _ here => unescape_of_lexeme here body

theorem reads_blockLiteral_iff (blank : ∀ c ∈ indent, isBlank c = true ∧ c ≠ '\n') (bodies : ∀ b ∈ bs, Body b) :
    (ofString (String.ofList (blockLiteral indent bs)) keepComments).Reads ks ↔
      ∃ texts, List.Forall₂ (fun b text => unescape 0 b = .ok text) bs texts ∧
        ks = [.string (String.ofList (['\n'].intercalate texts)), .comma true, .eof] :=
  reads_literal_iff (['\n'].intercalate ·) (fun _ => takes_blockLiteral blank bodies)
    fun _ _ _ here => unescapeAll_of_lexeme blank bodies here

theorem reads_lineLiteral_value (body : Body b) {value : String} :
    (ofString (String.ofList (lineLiteral b)) keepComments).Reads [.string value, .comma true, .eof] ↔
      unescape 0 b = .ok value.toList := by
  rw [reads_lineLiteral_iff body]
  constructor
  · rintro ⟨text, read, same⟩
    cases same
    rw [read, String.toList_ofList]
  · exact fun read => ⟨value.toList, read, by rw [String.ofList_toList]⟩

theorem reads_lineLiterals_values (bodies : ∀ b ∈ bs, Body b) {values : List String} :
    List.Forall₂ (fun b value => (ofString (String.ofList (lineLiteral b)) keepComments).Reads
        [.string value, .comma true, .eof]) bs values ↔
      List.Forall₂ (fun b text => unescape 0 b = .ok text) bs (values.map String.toList) := by
  induction bs generalizing values with
  | nil => simp
  | cons b bs ih =>
    rw [List.forall_mem_cons] at bodies
    cases values with
    | nil => simp
    | cons value values =>
      simp only [List.map_cons, List.forall₂_cons, reads_lineLiteral_value bodies.1, ih bodies.2]

theorem ofList_intercalate (values : List String) :
    String.ofList (['\n'].intercalate (values.map String.toList)) = "\n".intercalate values := by
  rw [show ['\n'] = "\n".toList from rfl, ← String.toList_intercalate, String.ofList_toList]

/-- A literal over several lines stands if each of its lines does between two quotes, and then its value is the values
    of the lines, joined by line breaks. -/
theorem blockLiteral_linewise {indent : List Char} {bs : List (List Char)} {keepComments : Bool}
    (blank : ∀ c ∈ indent, isBlank c = true ∧ c ≠ '\n') (bodies : ∀ b ∈ bs, Body b) :
    ((∃ ks, (ofString (String.ofList (blockLiteral indent bs)) keepComments).Reads ks) ↔
      ∀ b ∈ bs, ∃ ks, (ofString (String.ofList (lineLiteral b)) keepComments).Reads ks) ∧
    ∀ ks, (ofString (String.ofList (blockLiteral indent bs)) keepComments).Reads ks ↔
      ∃ values, List.Forall₂ (fun b value => (ofString (String.ofList (lineLiteral b)) keepComments).Reads
          [.string value, .comma true, .eof]) bs values ∧
        ks = [.string ("\n".intercalate values), .comma true, .eof] := by
  constructor
  · have stands : (∃ texts, List.Forall₂ (fun b text => unescape 0 b = .ok text) bs texts) ↔
        ∀ b ∈ bs, ∃ text, unescape 0 b = .ok text := by
      simpa only [Value.mapM_eq_ok, implies_true, and_true] using Value.exists_mapM_iff (unescape 0) (fun _ => True) bs
    constructor
    · rintro ⟨ks, read⟩ b member
      obtain ⟨texts, read, _⟩ := (reads_blockLiteral_iff blank bodies).mp read
      obtain ⟨text, read⟩ := stands.mp ⟨texts, read⟩ b member
      exact ⟨_, (reads_lineLiteral_iff (bodies b member)).mpr ⟨text, read, rfl⟩⟩
    · intro each
      obtain ⟨texts, read⟩ := stands.mpr fun b member => by
        obtain ⟨ks, read⟩ := each b member
        obtain ⟨text, read, _⟩ := (reads_lineLiteral_iff (bodies b member)).mp read
        exact ⟨text, read⟩
      exact ⟨_, (reads_blockLiteral_iff blank bodies).mpr ⟨texts, read, rfl⟩⟩
  · intro ks
    rw [reads_blockLiteral_iff blank bodies]
    constructor
    · rintro ⟨texts, read, rfl⟩
      obtain ⟨values, rfl⟩ : ∃ values : List String, values.map String.toList = texts :=
        ⟨texts.map String.ofList, by simp [Function.comp_def]⟩
      exact ⟨values, (reads_lineLiterals_values bodies).mpr read, by rw [ofList_intercalate]⟩
    · rintro ⟨values, read, rfl⟩
      exact ⟨_, (reads_lineLiterals_values bodies).mp read, by rw [ofList_intercalate]⟩

/-- A code unit, an escaped quote and an escaped backslash, a blank line between them, and two blanks before each. -/
theorem blockLiteral_linewise_accented :
    let bs := [['\\', 'u', '0', '0', 'e', '9', ' ', '\\', '"'], [], ['ü', '\\', '\\']]
    (∀ b ∈ bs, ∃ ks, (ofString (String.ofList (lineLiteral b)) false).Reads ks) ∧
      (ofString (String.ofList (blockLiteral [' ', ' '] bs)) false).Reads
        [.string "é \"\n\nü\\", .comma true, .eof] := by
  intro bs
  have bodies : ∀ b ∈ bs, Body b :=
    List.forall_mem_cons.mpr ⟨⟨by decide, by decide, .inr ⟨_, List.mem_cons_self, by decide⟩⟩,
      List.forall_mem_cons.mpr ⟨⟨by decide, by decide, .inl rfl⟩,
        List.forall_mem_singleton.mpr ⟨by decide, by decide, .inr ⟨_, List.mem_cons_self, by decide⟩⟩⟩⟩
  have values : List.Forall₂ (fun b text => unescape 0 b = .ok text) bs (["é \"", "", "ü\\"].map String.toList) :=
    .cons (by decide +kernel) (.cons (by decide +kernel) (.cons (by decide +kernel) .nil))
  have blank : ∀ c ∈ [' ', ' '], isBlank c = true ∧ c ≠ '\n' :=
    List.forall_mem_cons.mpr ⟨by decide, List.forall_mem_singleton.mpr (by decide)⟩
  have linewise := @blockLiteral_linewise [' ', ' '] bs false blank bodies
  have read := (linewise.2 _).mpr ⟨_, (reads_lineLiterals_values bodies).mpr values, rfl⟩
  exact ⟨linewise.1.mp ⟨_, read⟩, read⟩

end Scanner

end StackLattice.Syntax
