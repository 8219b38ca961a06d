import StackLattice.Proofs.Decimal.Digits
import StackLattice.Proofs.Syntax.Lexing
import StackLattice.Proofs.Text.Passing

/-!
What stands between the quotes of a literal on one line: characters for themselves, and escapes. A code unit is four
digits in base sixteen, or a plus sign in the place of the first of them.
-/

namespace StackLattice.Syntax

open Decimal (Numeral)
open Text (Input)

/-- What stands behind a backslash, and the character that is meant. -/
inductive Escape : List Char → Char → Prop
  | newline : Escape ['n'] '\n'
  | tab : Escape ['t'] '\t'
  | carriageReturn : Escape ['r'] '\r'
  | backslash : Escape ['\\'] '\\'
  | quote : Escape ['"'] '"'
  | slash : Escape ['/'] '/'
  | unit {hex : List Char} {c : Char} : hex.length = 4 → Numeral 16 hex c.toNat → Escape ('u' :: hex) c
  | signed {hex : List Char} {c : Char} : hex.length = 3 → Numeral 16 hex c.toNat → Escape ('u' :: '+' :: hex) c

/-- What stands between two quotes, and the text that is meant. -/
inductive Denotes : List Char → List Char → Prop
  | nil : Denotes [] []
  | plain {c : Char} {body text : List Char} : c ≠ '"' → c ≠ '\\' → c ≠ '\n' → Denotes body text →
    Denotes (c :: body) (c :: text)
  | escape {e body text : List Char} {c : Char} : Escape e c → Denotes body text →
    Denotes ('\\' :: e ++ body) (c :: text)

theorem codeUnit_eq_some_iff {hex : List Char} {c : Char} : codeUnit hex = some c ↔
    Numeral 16 hex c.toNat ∨ ∃ rest, hex = '+' :: rest ∧ Numeral 16 rest c.toNat := by
  have read {n : Nat} : Decimal.naturalBelow 16 0x110000 hex = some n ↔ _ :=
    Decimal.naturalBelow_eq_some_iff (Nat.le_refl 16)
  unfold codeUnit
  simp only [Option.bind_eq_bind, Option.bind_eq_some_iff, read]
  constructor
  · rintro ⟨n, ⟨_, numeral⟩, named⟩
    split at named
    · rename_i valid
      cases named
      have same : (Char.ofNat n).toNat = n := by
        rw [Char.ofNat, dif_pos valid]
        rfl
      rwa [same]
    · cases named
  · intro numeral
    have below : c.toNat < 0x110000 := by
      rcases c.valid with low | ⟨_, high⟩
      · exact Nat.lt_trans low (by decide)
      · exact high
    refine ⟨c.toNat, ⟨below, numeral⟩, ?_⟩
    rw [if_pos (show c.toNat.isValidChar from c.valid), Char.ofNat_toNat]
    rfl

theorem plainEscape_eq_some_iff {d c : Char} : plainEscape d = some c ↔ Escape [d] c := by
  constructor
  · intro plain
    unfold plainEscape at plain
    split at plain <;> cases plain <;> constructor
  · intro stands
    cases stands with
    | newline | tab | carriageReturn | backslash | quote | slash => rfl
    | unit long _ => cases long

/-- The escape at the start of a text is read, and nothing behind it. -/
theorem escape_eq_ok_iff {cs : List Char} {c : Char} {taken : Nat} :
    escape cs = .ok (c, taken) ↔ ∃ e after, cs = e ++ after ∧ e.length = taken ∧ Escape e c := by
  rw [escape_eq_ok]
  constructor
  · rintro (⟨cs, rfl, rfl, long, unit⟩ | ⟨d, cs, rfl, rfl, plain⟩)
    · have four : (cs.take 4).length = 4 := by rw [List.length_take, Nat.min_eq_left long]
      refine ⟨'u' :: cs.take 4, cs.drop 4, by simp, by rw [List.length_cons, four], ?_⟩
      rcases codeUnit_eq_some_iff.mp unit with numeral | ⟨rest, same, numeral⟩
      · exact .unit four numeral
      · rw [same] at four ⊢
        exact .signed (Nat.succ.inj four) numeral
    · exact ⟨[d], cs, rfl, rfl, plainEscape_eq_some_iff.mp plain⟩
  · rintro ⟨e, after, rfl, rfl, stands⟩
    cases e with
    | nil => cases stands
    | cons d e =>
      cases stands with
      | newline | tab | carriageReturn | backslash | quote | slash => exact .inr ⟨_, after, rfl, rfl, rfl⟩
      | unit four numeral =>
        refine .inl ⟨e ++ after, rfl, by rw [List.length_cons, four], ?_, ?_⟩
        · rw [List.length_append]
          omega
        · rw [← four, List.take_left]
          exact codeUnit_eq_some_iff.mpr (.inl numeral)
      | @signed hex _ three numeral =>
        have four : ('+' :: hex).length = 4 := by rw [List.length_cons, three]
        refine .inl ⟨'+' :: hex ++ after, rfl, by rw [List.length_cons, four], ?_, ?_⟩
        · rw [List.length_append]
          omega
        · rw [← four, List.take_left]
          exact codeUnit_eq_some_iff.mpr (.inr ⟨hex, rfl, numeral⟩)

theorem denotes_of_stringBody {start : Nat} {i left : Input} {text : List Char}
    (read : stringBody start i = (.ok text, left)) :
    ∃ body, Denotes body text ∧ Input.Passes (body ++ ['"']) i left := by
  fun_induction stringBody start i generalizing text left with
  | case1 | case2 | case4 => cases read
  | case3 i rest here =>
    cases read
    exact ⟨[], .nil, Input.passes_skip here⟩
  | case5 i rest here c taken stands others last next ih =>
    cases others with
    | error e => cases read
    | ok tail =>
      cases read
      obtain ⟨body, denotes, passes⟩ := ih next
      obtain ⟨e, after, rfl, rfl, named⟩ := escape_eq_ok_iff.mp (escape_of_lineEscape stands)
      have first := Input.passes_skipMany (e.length + 1) i
      rw [here, List.take_succ_cons, List.take_left] at first
      exact ⟨_, .escape named denotes, by simpa using first.trans passes⟩
  | case6 i c rest newline quote backslash here others last next ih =>
    cases others with
    | error e => cases read
    | ok tail =>
      cases read
      obtain ⟨body, denotes, passes⟩ := ih next
      exact ⟨c :: body, .plain quote backslash newline denotes, (Input.passes_skip here).trans passes⟩

theorem stringBody_of_denotes {body text : List Char} (start : Nat) (denotes : Denotes body text) {i left : Input}
    (passes : Input.Passes (body ++ ['"']) i left) : stringBody start i = (.ok text, left) := by
  induction denotes generalizing i with
  | nil =>
    have here : i.rest = '"' :: left.rest := passes.rest
    rw [stringBody_quote here, passes.right_unique (Input.passes_skip here)]
  | @plain c body text quote backslash newline _ ih =>
    have here : i.rest = c :: (body ++ ['"'] ++ left.rest) := passes.rest
    have whole : Input.Passes ([c] ++ (body ++ ['"'])) i left := passes
    have behind := whole.behind (Input.passes_skip here)
    rw [stringBody_plain here ⟨newline, quote, backslash⟩, ih behind]
    rfl
  | @escape e body text c named _ ih =>
    have here : i.rest = '\\' :: (e ++ (body ++ ['"'] ++ left.rest)) := by
      rw [passes.rest]
      simp
    have stands := escape_eq_ok_iff.mpr ⟨e, body ++ ['"'] ++ left.rest, rfl, rfl, named⟩
    have first := Input.passes_skipMany (e.length + 1) i
    rw [here, List.take_succ_cons, List.take_left] at first
    rw [List.append_assoc] at passes
    have behind := passes.behind first
    rw [stringBody_escape here (lineEscape_of_escape stands), ih behind]
    rfl

/-- The literals on one line. Behind the opening quote, a text is read up to the closing quote if what stands between
    the quotes denotes it, and only then. -/
theorem stringBody_eq_ok_iff (start : Nat) (i left : Input) (text : List Char) :
    stringBody start i = (.ok text, left) ↔ ∃ body, Denotes body text ∧ Input.Passes (body ++ ['"']) i left :=
  ⟨denotes_of_stringBody, fun ⟨_, denotes, passes⟩ => stringBody_of_denotes start denotes passes⟩

/-- A plus sign in front of three digits is read as a code unit of four, although it is no digit. -/
theorem plus_sign_in_code_unit :
    (stringBody 0 ⟨['\\', 'u', '+', '0', '4', '1', '"'], 1⟩).1.toOption = some ['A'] ∧
      ∀ d, ¬Decimal.Digit 16 '+' d := by
  refine ⟨by decide +kernel, fun d digit => ?_⟩
  cases Decimal.digitValue_eq_some_iff.mpr digit

end StackLattice.Syntax
