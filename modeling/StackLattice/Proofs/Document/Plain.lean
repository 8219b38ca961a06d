import Mathlib.Algebra.Group.Nat.Defs
import StackLattice.Document.Basic
import StackLattice.Proofs.Decimal.Digits
import StackLattice.Proofs.Syntax.Lexing

/-!
Documents that the language can write, and the tokens of their text. The text is read as these tokens wherever it
stands in front of what may follow an element of a list.
-/

namespace StackLattice

open Syntax (TokenKind Lexes Takes)
open Text (Input isBlank isAsciiDigit escapeLiteral)

namespace Document

/-- Strings whose text needs none of the two escapes that the language does not have. -/
def Writable (s : String) : Prop := '\x08' ∉ s.toList ∧ '\x0c' ∉ s.toList

instance (s : String) : Decidable (Writable s) := inferInstanceAs (Decidable (_ ∧ _))

/-- Documents without floats that nest lists and objects at most `n` levels deep. -/
inductive Plain : Nat → Document → Prop
  | null {n : Nat} : Plain n null
  | bool {n : Nat} (b : Bool) : Plain n (bool b)
  | int {n : Nat} {i : Int} (range : i.natAbs < 2 ^ 63) : Plain n (int i)
  | string {n : Nat} {s : String} (writable : Writable s) : Plain n (string s)
  | list {n : Nat} {items : List Document} (each : ∀ d ∈ items, Plain n d) : Plain (n + 1) (list items)
  | object {n : Nat} {entries : List (String × Document)} (distinct : (entries.map (·.1)).Nodup)
    (keys : ∀ e ∈ entries, Writable e.1) (each : ∀ e ∈ entries, Plain n e.2) : Plain (n + 1) (object entries)

mutual

/-- The kinds of the tokens of a document. -/
def kinds : Document → List TokenKind
  | null => [.null]
  | bool b => [if b then .true else .false]
  | int i => if i < 0 then [.minus, .int i.natAbs] else [.int i.natAbs]
  | float x => [.float x]
  | string s => [.string s]
  | list items => .leftBracket :: [.comma false].intercalate (kindsOfItems items) ++ [.rightBracket]
  | object entries => .leftBrace :: [.comma false].intercalate (kindsOfEntries entries) ++ [.rightBrace]

def kindsOfItems : List Document → List (List TokenKind)
  | [] => []
  | d :: ds => d.kinds :: kindsOfItems ds

def kindsOfEntries : List (String × Document) → List (List TokenKind)
  | [] => []
  | (key, d) :: ds => (.string key :: .colon :: d.kinds) :: kindsOfEntries ds

end

theorem kindsOfItems_eq_map (items : List Document) : kindsOfItems items = items.map kinds := by
  induction items with
  | nil => rfl
  | cons d ds ih => rw [kindsOfItems, ih, List.map_cons]

theorem kindsOfEntries_eq_map (entries : List (String × Document)) :
    kindsOfEntries entries = entries.map fun e => .string e.1 :: .colon :: e.2.kinds := by
  induction entries with
  | nil => rfl
  | cons e entries ih => rw [kindsOfEntries, ih, List.map_cons]

theorem compactItems_eq_map (items : List Document) : compactItems items = items.map compact := by
  induction items with
  | nil => rfl
  | cons d ds ih => rw [compactItems, ih, List.map_cons]

theorem compactEntries_eq_map (entries : List (String × Document)) :
    compactEntries entries = entries.map fun e => Text.literal e.1 ++ ":" ++ e.2.compact := by
  induction entries with
  | nil => rfl
  | cons e entries ih => rw [compactEntries, ih, List.map_cons]

def chars (d : Document) : List Char := d.compact.toList

theorem chars_list (items : List Document) :
    (list items).chars = '[' :: ([','].intercalate (items.map chars) ++ [']']) := by
  rw [chars, compact, compactItems_eq_map]
  simp only [String.toList_append, String.toList_intercalate, List.map_map]
  rfl

theorem chars_of_nonneg {i : Int} (positive : 0 ≤ i) : (int i).chars = Nat.toDigits 10 i.natAbs := by
  obtain ⟨n, rfl⟩ := Int.eq_ofNat_of_zero_le positive
  show (Nat.repr n).toList = _
  rw [Nat.repr, String.toList_ofList]
  rfl

theorem chars_of_neg {i : Int} (negative : i < 0) : (int i).chars = '-' :: Nat.toDigits 10 i.natAbs := by
  obtain ⟨n, rfl⟩ := Int.eq_negSucc_of_lt_zero negative
  show ("-" ++ Nat.repr (n + 1)).toList = _
  simp only [String.toList_append, Nat.repr, String.toList_ofList]
  rfl

theorem chars_object (entries : List (String × Document)) :
    (object entries).chars =
      '{' :: ([','].intercalate (entries.map fun e => (Text.literal e.1).toList ++ ':' :: e.2.chars) ++ ['}']) := by
  have entry : String.toList ∘ (fun e : String × Document => Text.literal e.1 ++ ":" ++ e.2.compact) =
      fun e => (Text.literal e.1).toList ++ ':' :: e.2.chars := by
    funext e
    simp [chars]
  rw [chars, compact, compactEntries_eq_map]
  simp only [String.toList_append, String.toList_intercalate, List.map_map, entry]
  rfl

/-- What may stand behind an element of a list, or behind the text. -/
def Stops (tail : List Char) : Prop := ∀ c ∈ tail.head?, c = ',' ∨ c = ']' ∨ c = '}'

theorem stops_nil : Stops [] := fun _ none => by cases none

theorem stops_cons {c : Char} (stop : c = ',' ∨ c = ']' ∨ c = '}') (tail : List Char) : Stops (c :: tail) := by
  rintro _ ⟨⟩
  exact stop

section Tokens

variable {tail : List Char}

/-- A run of characters ends before whatever stops it. -/
theorem Stops.takeWhile_append (stops : Stops tail) {p : Char → Bool} (comma : p ',' = false) (bracket : p ']' = false)
    (brace : p '}' = false) {cs : List Char} (all : ∀ c ∈ cs, p c = true) :
    (cs ++ tail).takeWhile p = cs ∧ (cs ++ tail).dropWhile p = tail := by
  rw [List.takeWhile_append_of_pos all, List.dropWhile_append_of_pos all]
  cases tail with
  | nil => simp
  | cons c tail =>
    have last : p c = false := by rcases stops c rfl with rfl | rfl | rfl <;> assumption
    simp [last]

theorem takes_punctuation {c : Char} {kind : TokenKind} (is : Syntax.punctuation c = some kind) (cs : List Char) :
    Takes (c :: cs) kind cs := by
  intro i here
  exact ⟨_, Syntax.lexeme_punctuation here is, by rw [Input.skipMany_rest, here]; rfl⟩

theorem takes_colon {cs : List Char} (single : ¬[':'] <+: cs) : Takes (':' :: cs) .colon cs := by
  intro i here
  exact ⟨_, Syntax.lexeme_colon here single, by rw [Input.skipMany_rest, here]; rfl⟩

theorem takes_word {c : Char} {cs : List Char} (starts : Syntax.startsName c = true) (letter : isAsciiDigit c = false)
    (noHash : c ≠ '#') (all : ∀ x ∈ c :: cs, Syntax.isNameChar x = true) (stops : Stops tail) :
    Takes (c :: cs ++ tail) (Syntax.nameToken (String.ofList (c :: cs))) tail := by
  intro i here
  have body := (stops.takeWhile_append (p := Syntax.isNameChar) (by decide +kernel) (by decide +kernel)
    (by decide +kernel) all).1
  rw [← here] at body
  refine ⟨i.skipMany (c :: cs).length, ?_, ?_⟩
  · rw [Syntax.lexeme_name here starts letter, Syntax.name_plain (by rw [here]; simpa using noHash), body]
  · rw [Input.skipMany_rest, here, List.drop_left]

theorem isAsciiDigit_of_mem {n : Nat} {c : Char} (member : c ∈ Nat.toDigits 10 n) : isAsciiDigit c = true := by
  have digit := Nat.isDigit_of_mem_toDigits (by decide) (by decide) member
  simpa [Char.isDigit, isAsciiDigit, Char.le_def] using digit

theorem isBlank_of_isAsciiDigit {c : Char} (digit : isAsciiDigit c = true) : isBlank c = false := by
  have range : 48 ≤ c.toNat ∧ c.toNat ≤ 57 := by simpa [isAsciiDigit, Char.le_def, UInt32.le_iff_toNat_le] using digit
  simp [isBlank]
  omega

theorem naturalBelow_toDigits {n : Nat} (range : n < 2 ^ 63) :
    Decimal.naturalBelow 10 (1 <<< 63) (Nat.toDigits 10 n) = some n := by
  have range : n < 1 <<< 63 := range
  have bounded : (some n).filter (fun n => decide (n < 1 <<< 63)) = some n := by
    rw [Option.filter_some, if_pos (decide_eq_true range)]
  unfold Decimal.naturalBelow
  split
  · rename_i rest plus
    have sign := isAsciiDigit_of_mem (c := '+') (by rw [plus]; exact List.mem_cons_self)
    cases sign
  · dsimp only
    rw [Decimal.natural_toDigits (by decide) (by decide), bounded]

theorem Stops.pointPart (stops : Stops tail) : Syntax.pointPart tail = [] := by
  cases tail with
  | nil => rfl
  | cons c tail => exact Syntax.pointPart_of_ne (by rcases stops c rfl with rfl | rfl | rfl <;> decide) tail

theorem Stops.exponentPart (stops : Stops tail) : Syntax.exponentPart tail = [] := by
  cases tail with
  | nil => rfl
  | cons c tail => exact Syntax.exponentPart_of_ne (by rcases stops c rfl with rfl | rfl | rfl <;> decide) tail

theorem takes_number {n : Nat} (range : n < 2 ^ 63) (stops : Stops tail) :
    Takes (Nat.toDigits 10 n ++ tail) (.int n) tail := by
  intro i here
  have digits : ∀ c ∈ Nat.toDigits 10 n, Syntax.isNumberChar c = true := fun c member => by
    rw [Syntax.isNumberChar, isAsciiDigit_of_mem member, Bool.true_or]
  have separated : (Nat.toDigits 10 n).filter (fun c => decide (c ≠ '_')) = Nat.toDigits 10 n := by
    refine List.filter_eq_self.mpr fun c member => decide_eq_true ?_
    rintro rfl
    cases isAsciiDigit_of_mem member
  obtain ⟨whole, rest⟩ := stops.takeWhile_append (by decide) (by decide) (by decide) digits
  rw [← here] at whole rest
  obtain ⟨c, cs, first⟩ := List.exists_cons_of_ne_nil (Nat.toDigits_ne_nil (n := n) (b := 10))
  have leading : i.rest = c :: (cs ++ tail) := by rw [here, first, List.cons_append]
  refine ⟨i.skipMany (Nat.toDigits 10 n).length, ?_, by rw [Input.skipMany_rest, here, List.drop_left]⟩
  rw [Syntax.lexeme_number leading (isAsciiDigit_of_mem (by rw [first]; exact List.mem_cons_self))]
  unfold Syntax.number
  simp only [whole, rest, stops.pointPart, List.length_nil, List.drop_zero, stops.exponentPart, List.append_nil,
    List.isEmpty_nil, Bool.and_true, if_true, separated, naturalBelow_toDigits range]

/-- A character stands for itself, or behind a backslash for an escape that is read as it. -/
theorem escapeLiteral_cases {c : Char} (backspace : c ≠ '\x08') (feed : c ≠ '\x0c') :
    (escapeLiteral c = [c] ∧ c ≠ '\n' ∧ c ≠ '"' ∧ c ≠ '\\') ∨
      ∃ escaped, escapeLiteral c = '\\' :: escaped ∧
        ∀ rest, Syntax.escape (escaped ++ rest) = .ok (c, escaped.length) := by
  have control : ∀ n < 0x20, Syntax.codeUnit ['0', '0', Nat.digitChar (n / 16), Nat.digitChar (n % 16)] =
      some (Char.ofNat n) := by decide
  unfold escapeLiteral
  split
  · exact .inr ⟨['"'], rfl, fun rest => by subst c; rfl⟩
  split
  · exact .inr ⟨['\\'], rfl, fun rest => by subst c; rfl⟩
  split
  · exact .inr ⟨['n'], rfl, fun rest => by subst c; rfl⟩
  split
  · exact .inr ⟨['r'], rfl, fun rest => by subst c; rfl⟩
  split
  · exact .inr ⟨['t'], rfl, fun rest => by subst c; rfl⟩
  split
  · rename_i low
    refine .inr ⟨_, rfl, fun rest => ?_⟩
    have unit := control c.toNat low
    rw [Char.ofNat_toNat] at unit
    simp [Syntax.escape, unit]
  · rename_i quote backslash newline _ _ _
    exact .inl ⟨rfl, newline, quote, backslash⟩

theorem stringBody_literal (start : Nat) {cs : List Char} (writable : '\x08' ∉ cs ∧ '\x0c' ∉ cs) {i : Input}
    (here : i.rest = cs.flatMap escapeLiteral ++ '"' :: tail) :
    ∃ left, Syntax.stringBody start i = (.ok cs, left) ∧ left.rest = tail := by
  induction cs generalizing i with
  | nil => exact ⟨i.skip, Syntax.stringBody_quote here, by rw [Input.skip_rest, here]; rfl⟩
  | cons c cs ih =>
    rw [List.mem_cons, not_or, List.mem_cons, not_or] at writable
    rw [List.flatMap_cons, List.append_assoc] at here
    rcases escapeLiteral_cases (Ne.symm writable.1.1) (Ne.symm writable.2.1) with ⟨plain, other⟩ | ⟨escaped, written, stands⟩
    · rw [plain, List.singleton_append] at here
      obtain ⟨left, read, rest⟩ := ih ⟨writable.1.2, writable.2.2⟩ (i := i.skip) (by rw [Input.skip_rest, here]; rfl)
      refine ⟨left, ?_, rest⟩
      rw [Syntax.stringBody_plain here other, read]
      rfl
    · rw [written, List.cons_append] at here
      obtain ⟨left, read, rest⟩ := ih ⟨writable.1.2, writable.2.2⟩ (i := i.skipMany (escaped.length + 1)) (by
        rw [Input.skipMany_rest, here, List.drop_succ_cons, List.drop_left])
      refine ⟨left, ?_, rest⟩
      rw [Syntax.stringBody_escape here (Syntax.lineEscape_of_escape (stands _)), read]
      rfl

theorem takes_string {s : String} (writable : Writable s) (single : tail.head? ≠ some '"') :
    Takes ((Text.literal s).toList ++ tail) (.string s) tail := by
  have text : (Text.literal s).toList ++ tail = '"' :: (s.toList.flatMap escapeLiteral ++ '"' :: tail) := by
    simp [Text.literal]
  rw [text]
  intro i here
  obtain ⟨left, read, rest⟩ := stringBody_literal i.offset writable (i := i.skip) (by rw [Input.skip_rest, here]; rfl)
  refine ⟨left, ?_, rest⟩
  rw [Syntax.lexeme_string here ?_ read, String.ofList_toList]
  -- The text is no literal over several lines.
  intro two
  cases cs : s.toList with
  | nil =>
    rw [cs] at two
    obtain ⟨more, eq⟩ := (List.cons_prefix_cons.mp two).2
    rw [← eq] at single
    exact single rfl
  | cons c rest =>
    unfold Writable at writable
    rw [cs, List.mem_cons, not_or, List.mem_cons, not_or] at writable
    rw [cs, List.flatMap_cons, List.append_assoc] at two
    rcases escapeLiteral_cases (Ne.symm writable.1.1) (Ne.symm writable.2.1) with ⟨plain, other⟩ | ⟨_, written, _⟩
    · rw [plain] at two
      exact other.2.1 (List.cons_prefix_cons.mp two).1.symm
    · rw [written] at two
      cases (List.cons_prefix_cons.mp two).1

theorem Stops.noQuote (stops : Stops tail) : tail.head? ≠ some '"' := by
  intro quote
  rcases stops _ quote with impossible | impossible | impossible <;> cases impossible

end Tokens

section Texts

variable {p : Bool} {tail : List Char}

theorem lexes_of_takes {c : Char} {cs left : List Char} {kind : TokenKind} (solid : isBlank c = false)
    (takes : Takes (c :: cs) kind left) : Lexes p (c :: cs) [kind] kind.endsLine left := .token solid takes .done

/-- Wherever the text stands in front of what stops it, it is read as the kinds. -/
def ReadAs (cs : List Char) (ks : List TokenKind) : Prop :=
  ∀ (p : Bool) (tail : List Char), Stops tail → Lexes p (cs ++ tail) ks true tail

theorem lexes_intercalate {texts : List (List Char)} {kinds : List (List TokenKind)}
    (each : List.Forall₂ ReadAs texts kinds) (p : Bool) {tail : List Char} (stops : Stops tail) :
    ∃ q, Lexes p ([','].intercalate texts ++ tail) ([.comma false].intercalate kinds) q tail := by
  induction each generalizing p with
  | nil => exact ⟨p, .done⟩
  | @cons cs ks texts kinds first others ih =>
    cases others with
    | nil => exact ⟨true, by simpa using first p tail stops⟩
    | @cons cs' ks' texts kinds next others =>
      obtain ⟨q, rest⟩ := ih false
      refine ⟨q, ?_⟩
      have here := first p _ (stops_cons (.inl rfl) ([','].intercalate (cs' :: texts) ++ tail))
      have comma : Lexes true (',' :: ([','].intercalate (cs' :: texts) ++ tail)) [.comma false] false
          ([','].intercalate (cs' :: texts) ++ tail) := lexes_of_takes (by decide +kernel) (takes_punctuation rfl _)
      have whole := (here.append comma).append rest
      simpa [List.intercalate] using whole

theorem lexes_brackets {opening closing : Char} {first last : TokenKind} {texts : List (List Char)}
    {kinds : List (List TokenKind)} (opens : Syntax.punctuation opening = some first)
    (closes : Syntax.punctuation closing = some last) (solid : isBlank opening = false ∧ isBlank closing = false)
    (stop : closing = ',' ∨ closing = ']' ∨ closing = '}') (ends : last.endsLine = true)
    (each : List.Forall₂ ReadAs texts kinds) :
    ReadAs (opening :: ([','].intercalate texts ++ [closing])) (first :: [.comma false].intercalate kinds ++ [last]) := by
  intro p tail _
  obtain ⟨q, inside⟩ := lexes_intercalate each first.endsLine (stops_cons stop tail)
  have opened : Lexes p (opening :: ([','].intercalate texts ++ closing :: tail)) [first] first.endsLine _ :=
    lexes_of_takes solid.1 (takes_punctuation opens _)
  have closed : Lexes q (closing :: tail) [last] last.endsLine tail :=
    lexes_of_takes solid.2 (takes_punctuation closes tail)
  have whole := (opened.append inside).append closed
  rw [ends] at whole
  simpa using whole

theorem chars_null : null.chars = ['n', 'u', 'l', 'l'] := by simp [chars, compact]

theorem chars_false : (bool false).chars = ['f', 'a', 'l', 's', 'e'] := by simp [chars, compact]

theorem chars_true : (bool true).chars = ['t', 'r', 'u', 'e'] := by simp [chars, compact]

theorem readAs_word {c : Char} {cs : List Char} {kind : TokenKind} (starts : Syntax.startsName c = true)
    (letter : isAsciiDigit c = false) (noHash : c ≠ '#') (solid : isBlank c = false)
    (all : (c :: cs).all Syntax.isNameChar = true) (is : Syntax.nameToken (String.ofList (c :: cs)) = kind)
    (ends : kind.endsLine = true) : ReadAs (c :: cs) [kind] := by
  intro p tail stops
  have word := lexes_of_takes (p := p) solid (takes_word starts letter noHash (List.all_eq_true.mp all) stops)
  rwa [is, ends] at word

theorem readAs_number {n : Nat} (range : n < 2 ^ 63) : ReadAs (Nat.toDigits 10 n) [.int n] := by
  intro p tail stops
  obtain ⟨c, cs, first⟩ := List.exists_cons_of_ne_nil (Nat.toDigits_ne_nil (n := n) (b := 10))
  have takes := takes_number range stops
  have digit := isAsciiDigit_of_mem (n := n) (c := c) (by rw [first]; exact List.mem_cons_self)
  rw [first] at takes ⊢
  exact lexes_of_takes (isBlank_of_isAsciiDigit digit) takes

theorem lexes_string {s : String} (writable : Writable s) (single : tail.head? ≠ some '"') :
    Lexes p ((Text.literal s).toList ++ tail) [.string s] true tail := by
  have takes := takes_string writable single
  have text : (Text.literal s).toList = '"' :: (s.toList.flatMap escapeLiteral ++ ['"']) := by simp [Text.literal]
  rw [text] at takes ⊢
  exact lexes_of_takes (by decide +kernel) takes

theorem Plain.no_colon {n : Nat} {d : Document} (h : Plain n d) (tail : List Char) : ¬[':'] <+: d.chars ++ tail := by
  have first {c : Char} {cs : List Char} (text : d.chars = c :: cs) (other : ':' ≠ c) : ¬[':'] <+: d.chars ++ tail := by
    rw [text, List.cons_append, List.cons_prefix_cons]
    exact fun same => other same.1
  cases h with
  | null => exact first chars_null (by decide)
  | bool b =>
    cases b
    · exact first chars_false (by decide)
    · exact first chars_true (by decide)
  | @int n i _ =>
    by_cases negative : i < 0
    · exact first (chars_of_neg negative) (by decide)
    · obtain ⟨c, cs, digits⟩ := List.exists_cons_of_ne_nil (Nat.toDigits_ne_nil (n := i.natAbs) (b := 10))
      refine first ((chars_of_nonneg (Int.not_lt.mp negative)).trans digits) ?_
      rintro rfl
      have digit := isAsciiDigit_of_mem (n := i.natAbs) (c := ':') (by rw [digits]; exact List.mem_cons_self)
      cases digit
  | string writable => exact first (by rw [chars, compact, Text.literal, String.toList_ofList]; rfl) (by decide)
  | list each => exact first (chars_list _) (by decide)
  | object distinct keys each => exact first (chars_object _) (by decide)

/-- The text of a document is read as its tokens. -/
theorem Plain.readAs {n : Nat} {d : Document} (h : Plain n d) : ReadAs d.chars d.kinds := by
  induction h with
  | null =>
    rw [chars_null]
    exact readAs_word (by decide +kernel) (by decide) (by decide) (by decide +kernel) (by decide +kernel) rfl rfl
  | bool b =>
    cases b
    · rw [chars_false]
      exact readAs_word (by decide +kernel) (by decide) (by decide) (by decide +kernel) (by decide +kernel) rfl rfl
    · rw [chars_true]
      exact readAs_word (by decide +kernel) (by decide) (by decide) (by decide +kernel) (by decide +kernel) rfl rfl
  | @int n i range =>
    rw [kinds]
    split
    · rename_i negative
      rw [chars_of_neg negative]
      intro p tail stops
      have minus : Lexes p ('-' :: (Nat.toDigits 10 i.natAbs ++ tail)) [.minus] false _ :=
        lexes_of_takes (by decide +kernel) (takes_punctuation rfl _)
      exact minus.append (readAs_number range false tail stops)
    · rename_i positive
      rw [chars_of_nonneg (Int.not_lt.mp positive)]
      exact readAs_number range
  | string writable => exact fun p tail stops => lexes_string writable stops.noQuote
  | @list n items _ each =>
    rw [chars_list, kinds, kindsOfItems_eq_map]
    refine lexes_brackets rfl rfl (by decide +kernel) (by decide) rfl ?_
    rw [List.forall₂_map_left_iff, List.forall₂_map_right_iff]
    exact List.forall₂_same.mpr each
  | @object n entries _ keys plain each =>
    rw [chars_object, kinds, kindsOfEntries_eq_map]
    refine lexes_brackets rfl rfl (by decide +kernel) (by decide) rfl ?_
    rw [List.forall₂_map_left_iff, List.forall₂_map_right_iff]
    refine List.forall₂_same.mpr fun e member p tail stops => ?_
    have colon : Lexes true (':' :: (e.2.chars ++ tail)) [.colon] false (e.2.chars ++ tail) :=
      lexes_of_takes (by decide +kernel) (takes_colon ((plain e member).no_colon tail))
    have key : Lexes p ((Text.literal e.1).toList ++ ':' :: (e.2.chars ++ tail)) [.string e.1] true _ :=
      lexes_string (keys e member) (by simp)
    have whole := (key.append colon).append (each e member false tail stops)
    simpa using whole

end Texts

end Document

end StackLattice
