import Mathlib.Data.List.Basic
import StackLattice.Decimal.Layout
import StackLattice.Text.Quoted

/-!
Characters that messages do not show as they are, among them all that end a line. Quoting escapes them, and
numbers are written without them.
-/

namespace StackLattice

namespace Text

/-- Characters at which a reader may take a line to end. -/
def lineBreaks : List Char := ['\n', '\x0b', '\x0c', '\r', '\u0085', '\u2028', '\u2029']

/-- A character that is neither printable nor part of a name. -/
structure Unseen (c : Char) : Prop where
  printable : isPrintable c = false
  alphanumeric : isAlphanumeric c = false

theorem unseen_of_mem_lineBreaks {c : Char} (h : c ∈ lineBreaks) : Unseen c := by
  have all : (lineBreaks.all fun c => !isPrintable c && !isAlphanumeric c) = true := by decide +kernel
  obtain ⟨printable, alphanumeric⟩ : isPrintable c = false ∧ isAlphanumeric c = false := by
    simpa using List.all_eq_true.mp all c h
  exact ⟨printable, alphanumeric⟩

def Lacks (c : Char) (s : String) : Prop := c ∉ s.toList

variable {c : Char}

@[simp] theorem lacks_append {s t : String} : Lacks c (s ++ t) ↔ Lacks c s ∧ Lacks c t := by
  simp [Lacks]

@[simp] theorem lacks_ofList {cs : List Char} : Lacks c (String.ofList cs) ↔ c ∉ cs := by
  simp [Lacks]

theorem lacks_singleton {d : Char} : Lacks c (String.singleton d) ↔ c ≠ d := by
  simp [Lacks]

namespace Unseen

variable (h : Unseen c)

include h

theorem not_mem {cs : List Char} (plain : cs.all isPrintable = true) : c ∉ cs := by
  intro member
  have := List.all_eq_true.mp plain c member
  rw [h.printable] at this
  cases this

theorem literal (s : String) (plain : s.toList.all isPrintable = true) : Lacks c s := h.not_mem plain

theorem ne {d : Char} (plain : isPrintable d = true) : c ≠ d := by
  rintro rfl
  rw [h.printable] at plain
  cases plain

theorem toDigits {base : Nat} (low : 1 < base) (high : base ≤ 16) (n : Nat) : c ∉ Nat.toDigits base n := by
  have digit : ∀ k < 16, isPrintable (Nat.digitChar k) = true := by decide
  induction n using Nat.strongRecOn with
  | ind n ih =>
    rw [Nat.toDigits_eq_if low]
    split
    · exact h.not_mem (by simpa using digit n (by omega))
    · have smaller : n / base < n := Nat.div_lt_self (by omega) low
      rw [List.mem_append, not_or]
      refine ⟨ih _ smaller, h.not_mem ?_⟩
      simpa using digit _ (Nat.lt_of_lt_of_le (Nat.mod_lt n (by omega)) high)

theorem natural (n : Nat) : Lacks c (toString n) := by
  simpa [Lacks] using h.toDigits (by decide) (by decide) n

theorem integer (n : Int) : Lacks c (toString n) := by
  cases n with
  | ofNat n => exact h.natural n
  | negSucc n => exact lacks_append.mpr ⟨h.literal "-" (by decide +kernel), h.natural _⟩

theorem escapeShown {quote : Char} (plain : isPrintable quote = true) (d : Char) : c ∉ escapeShown quote d := by
  unfold Text.escapeShown
  split_ifs with _ _ _ _ quoted hidden
  · exact h.not_mem (by decide)
  · exact h.not_mem (by decide)
  · exact h.not_mem (by decide)
  · exact h.not_mem (by decide)
  · have : isPrintable d = true := by
      rw [Bool.or_eq_true, decide_eq_true_eq, decide_eq_true_eq] at quoted
      rcases quoted with rfl | rfl
      · decide
      · exact plain
    exact h.not_mem (by simpa using ⟨by decide, this⟩)
  · have hex : c ∉ hexDigits d.toNat := h.toDigits (by decide) (by decide) _
    rw [List.mem_append, List.mem_append, not_or, not_or]
    exact ⟨⟨h.not_mem (by decide), hex⟩, h.not_mem (by decide)⟩
  · have : isPrintable d = true := (by simpa using hidden : _ ∧ _).2
    exact h.not_mem (by simpa using this)

theorem shown (s : String) : Lacks c (shown s) := by
  rw [Text.shown, lacks_ofList, List.cons_append, List.mem_cons, List.mem_append, List.mem_flatMap]
  rintro (quote | ⟨d, _, inside⟩ | quote)
  · exact h.ne (by decide) quote
  · exact h.escapeShown (by decide) d inside
  · exact h.not_mem (by decide) quote

theorem shownChar (d : Char) : Lacks c (shownChar d) := by
  rw [Text.shownChar, lacks_ofList, List.cons_append, List.mem_cons, List.mem_append]
  rintro (quote | inside | quote)
  · exact h.ne (by decide) quote
  · exact h.escapeShown (by decide) d inside
  · exact h.not_mem (by decide) quote

end Unseen

end Text

namespace Decimal.Layout

variable {c : Char} (h : Text.Unseen c) (l : Layout)

include h

theorem zeros_lacks (n : Nat) : c ∉ zeros n := fun member => h.ne (by decide) (List.eq_of_mem_replicate member)

theorem positionalText_lacks {digits : List Char} (plain : c ∉ digits) (place : Int) :
    c ∉ l.positionalText digits place := by
  have point : c ≠ '.' := h.ne (by decide)
  have zero : c ≠ '0' := h.ne (by decide)
  unfold positionalText
  split_ifs
  · simp [point, zero, zeros_lacks h, plain]
  · simp [point, zero, zeros_lacks h, plain]
  · simp [zeros_lacks h, plain]
  · have ahead : c ∉ digits.take place.toNat := fun member => plain (List.mem_of_mem_take member)
    have behind : c ∉ digits.drop place.toNat := fun member => plain (List.mem_of_mem_drop member)
    simp [point, ahead, behind]

theorem exponentText_lacks {digits : List Char} (plain : c ∉ digits) (place : Int) :
    c ∉ l.exponentText digits place := by
  have exponent : c ∉ Nat.toDigits 10 (place - 1).natAbs := h.toDigits (by decide) (by decide) _
  have sign : c ∉ if place - 1 < 0 then ['-'] else if l.plus then ['+'] else [] := by
    split_ifs
    · exact h.not_mem (by decide)
    · exact h.not_mem (by decide)
    · exact List.not_mem_nil
  have first : c ∉ digits.take 1 := fun member => plain (List.mem_of_mem_take member)
  have others : c ∉ if digits.length = 1 then [] else '.' :: digits.drop 1 := by
    split_ifs
    · exact List.not_mem_nil
    · rw [List.mem_cons, not_or]
      exact ⟨h.ne (by decide), fun member => plain (List.mem_of_mem_drop member)⟩
  have mark : c ≠ 'e' := h.ne (by decide)
  unfold exponentText
  simp only [List.mem_append, List.mem_cons, not_or]
  exact ⟨⟨⟨first, others⟩, mark, sign⟩, exponent⟩

theorem render_lacks (x : Binary64) : Text.Lacks c (l.render x) := by
  have digits (n : Nat) : c ∉ Nat.toDigits 10 n := h.toDigits (by decide) (by decide) n
  have unsigned : c ∉ l.unsigned x := by
    unfold Layout.unsigned
    dsimp only
    split_ifs
    · exact h.not_mem (by decide)
    · exact h.not_mem (by decide)
    · exact positionalText_lacks h l (digits _) _
    · exact exponentText_lacks h l (digits _) _
  have body : c ∉ if x.isFinite then l.unsigned x else ['i', 'n', 'f'] := by
    split_ifs
    · exact unsigned
    · exact h.not_mem (by decide)
  rw [Layout.render]
  split
  · exact h.literal _ (by decide +kernel)
  · rw [Text.lacks_ofList]
    split
    · rw [List.mem_cons, not_or]
      exact ⟨h.ne (by decide), body⟩
    · exact body

end Decimal.Layout

end StackLattice
