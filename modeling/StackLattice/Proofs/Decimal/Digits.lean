import Mathlib.Data.List.Forall2
import Mathlib.Data.Nat.Digits.Defs
import StackLattice.Decimal.Read

/-!
Digits of natural numbers. Digit strings are read as the numerals of positional notation, in every base up to sixteen.
What is written is read back, so no two numbers are written alike.
-/

namespace StackLattice.Decimal

theorem natural_toDigits {base : Nat} (low : 1 < base) (high : base ≤ 16) (n : Nat) :
    natural base (Nat.toDigits base n) = some n := by
  have digit : ∀ d < 16, digitValue (Nat.digitChar d) = some d := by decide
  have fold (n : Nat) : (Nat.toDigits base n).foldlM
      (fun n c => (digitValue c).bind fun d => if d < base then some (base * n + d) else none) 0 = some n := by
    induction n using Nat.strongRecOn with
    | ind n ih =>
      rw [Nat.toDigits_eq_if low]
      split
      · rename_i small
        simp [digit n (Nat.lt_of_lt_of_le small high), small]
      · rename_i large
        have last : n % base < base := Nat.mod_lt n (Nat.zero_lt_of_lt low)
        have smaller : n / base < n := Nat.div_lt_self (by omega) low
        rw [List.foldlM_append, ih (n / base) smaller]
        simp only [List.foldlM_cons, List.foldlM_nil, digit _ (Nat.lt_of_lt_of_le last high), Option.bind_eq_bind,
          Option.bind_some, last, if_true]
        exact congrArg some (Nat.div_add_mod n base)
  rw [natural, if_neg (by simp [Nat.toDigits_ne_nil]), fold]

theorem eq_of_toString_eq {m n : Nat} (same : toString m = toString n) : m = n := by
  have digits : Nat.toDigits 10 m = Nat.toDigits 10 n := String.ofList_injective same
  have read : natural 10 (Nat.toDigits 10 m) = some m := natural_toDigits (by decide) (by decide) m
  rw [digits, natural_toDigits (by decide) (by decide)] at read
  exact (Option.some.inj read).symm

theorem isSome_digitValue_of_natural {base n : Nat} {cs : List Char} (read : natural base cs = some n) :
    ∀ c ∈ cs, (digitValue c).isSome = true := by
  have fold {cs : List Char} {start : Nat} (read : cs.foldlM
      (fun n c => (digitValue c).bind fun d => if d < base then some (base * n + d) else none) start = some n) :
      ∀ c ∈ cs, (digitValue c).isSome = true := by
    induction cs generalizing start with
    | nil => exact fun c member => by cases member
    | cons c cs ih =>
      rw [List.foldlM_cons, Option.bind_eq_bind, Option.bind_eq_some_iff] at read
      obtain ⟨next, first, rest⟩ := read
      obtain ⟨d, digit, _⟩ := Option.bind_eq_some_iff.mp first
      exact List.forall_mem_cons.mpr ⟨by rw [digit]; rfl, ih rest⟩
  unfold natural at read
  split at read
  · cases read
  · exact fold read

/-- Nothing but a sign and digits is read as a number. -/
theorem sign_or_digit_of_naturalBelow {base bound n : Nat} {cs : List Char}
    (read : naturalBelow base bound cs = some n) : ∀ c ∈ cs, c = '+' ∨ (digitValue c).isSome = true := by
  unfold naturalBelow at read
  dsimp only at read
  have digits := isSome_digitValue_of_natural (Option.filter_eq_some_iff.mp read).1
  split at digits
  · exact List.forall_mem_cons.mpr ⟨.inl rfl, fun c member => .inr (digits c member)⟩
  · exact fun c member => .inr (digits c member)

section Positional

/-- A digit and its value. A letter may stand in either case. -/
def Digit (base : Nat) (c : Char) (d : Nat) : Prop := d < base ∧ (c = d.digitChar ∨ c = d.digitChar.toUpper)

/-- A numeral and its value, the digit of the highest power first. -/
def Numeral (base : Nat) (cs : List Char) (n : Nat) : Prop :=
  cs ≠ [] ∧ ∃ digits, List.Forall₂ (Digit base) cs digits ∧ n = Nat.ofDigits base digits.reverse

variable {base bound n d : Nat} {c : Char} {cs : List Char}

theorem ascii_of_digitValue (value : digitValue c = some d) : c.toNat < 128 := by
  have below {a : Char} (small : a.toNat < 128) (le : c ≤ a) : c.toNat < 128 := Nat.lt_of_le_of_lt le small
  unfold digitValue at value
  split at value
  · rename_i digit
    rw [Text.isAsciiDigit, Bool.and_eq_true, decide_eq_true_eq, decide_eq_true_eq] at digit
    exact below (by decide) digit.2
  split at value
  · rename_i letter
    exact below (by decide) letter.2
  split at value
  · rename_i letter
    exact below (by decide) letter.2
  · cases value

theorem digitValue_eq_some_iff : digitValue c = some d ↔ Digit 16 c d := by
  have read : ∀ n < 128, ∀ d ∈ digitValue (Char.ofNat n), Digit 16 (Char.ofNat n) d := by
    simp only [Digit]
    decide
  have written : ∀ d < 16, digitValue d.digitChar = some d ∧ digitValue d.digitChar.toUpper = some d := by decide
  constructor
  · intro value
    have digit := read c.toNat (ascii_of_digitValue value) d
    rw [Char.ofNat_toNat] at digit
    exact digit value
  · rintro ⟨small, rfl | rfl⟩
    · exact (written d small).1
    · exact (written d small).2

theorem foldl_eq_ofDigits (digits : List Nat) (start : Nat) :
    digits.foldl (fun n d => base * n + d) start = Nat.ofDigits base (digits.reverse ++ [start]) := by
  induction digits generalizing start with
  | nil => exact Nat.ofDigits_singleton.symm
  | cons d digits ih =>
    rw [List.foldl_cons, ih, List.reverse_cons, List.append_assoc, Nat.ofDigits_append, Nat.ofDigits_append]
    simp [Nat.ofDigits_cons, Nat.add_comm]

theorem foldlM_eq_some_iff (small : base ≤ 16) {start : Nat} :
    cs.foldlM (fun n c => (digitValue c).bind fun d => if d < base then some (base * n + d) else none) start = some n ↔
      ∃ digits, List.Forall₂ (Digit base) cs digits ∧ n = digits.foldl (fun n d => base * n + d) start := by
  induction cs generalizing start with
  | nil => simp [eq_comm]
  | cons c cs ih =>
    have step {next : Nat} : ((digitValue c).bind fun d => if d < base then some (base * start + d) else none) =
        some next ↔ ∃ d, Digit base c d ∧ next = base * start + d := by
      simp only [Option.bind_eq_some_iff, digitValue_eq_some_iff, Digit]
      constructor
      · rintro ⟨d, ⟨-, either⟩, value⟩
        split at value
        · cases value
          exact ⟨d, ⟨‹_›, either⟩, rfl⟩
        · cases value
      · rintro ⟨d, ⟨below, either⟩, rfl⟩
        exact ⟨d, ⟨by omega, either⟩, if_pos below⟩
    simp only [List.foldlM_cons, Option.bind_eq_bind, Option.bind_eq_some_iff, step, ih]
    constructor
    · rintro ⟨next, ⟨d, digit, rfl⟩, digits, others, rfl⟩
      exact ⟨d :: digits, .cons digit others, rfl⟩
    · rintro ⟨digits, all, rfl⟩
      cases all with
      | cons digit others => exact ⟨_, ⟨_, digit, rfl⟩, _, others, rfl⟩

theorem natural_eq_some_iff (small : base ≤ 16) : natural base cs = some n ↔ Numeral base cs n := by
  have value (digits : List Nat) : digits.foldl (fun n d => base * n + d) 0 = Nat.ofDigits base digits.reverse := by
    rw [foldl_eq_ofDigits, Nat.ofDigits_append_zero]
  unfold natural Numeral
  cases cs with
  | nil => simp
  | cons c cs =>
    rw [if_neg (by simp), foldlM_eq_some_iff small]
    simp only [value, ne_eq, List.cons_ne_nil, not_false_eq_true, true_and]

/-- A natural number below a bound may have a plus sign. -/
theorem naturalBelow_eq_some_iff (small : base ≤ 16) : naturalBelow base bound cs = some n ↔
    n < bound ∧ (Numeral base cs n ∨ ∃ rest, cs = '+' :: rest ∧ Numeral base rest n) := by
  have unsigned {rest : List Char} : ¬Numeral base ('+' :: rest) n := by
    rintro ⟨-, digits, all, -⟩
    cases all with
    | cons sign _ => cases (digitValue_eq_some_iff.mpr ⟨Nat.lt_of_lt_of_le sign.1 small, sign.2⟩)
  unfold naturalBelow
  dsimp only
  rw [Option.filter_eq_some_iff, decide_eq_true_eq, natural_eq_some_iff small, and_comm]
  split
  · simp [unsigned]
  · rename_i other
    have none : ¬∃ rest, cs = '+' :: rest ∧ Numeral base rest n := fun ⟨rest, same, _⟩ => other rest same
    rw [or_iff_left none]

end Positional

end StackLattice.Decimal
