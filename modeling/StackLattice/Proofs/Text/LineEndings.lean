import Mathlib.Data.List.Infix
import StackLattice.Text.Input
import StackLattice.Text.Split

/-!
Text whose lines end in a carriage return and a line feed, next to the same text with line feeds alone. What stands
on one line is the same in both.
-/

namespace StackLattice.Text

/-- The characters with a carriage return in front of every line feed. -/
def crlf (cs : List Char) : List Char := cs.flatMap fun c => if c = '\n' then ['\r', '\n'] else [c]

/-- The text with a carriage return in front of every line feed. -/
def rebroken (text : String) : String := String.ofList (crlf text.toList)

variable {cs ds rest : List Char} {p : Char → Bool}

@[simp] theorem crlf_nil : crlf [] = [] := rfl

@[simp] theorem crlf_newline (cs : List Char) : crlf ('\n' :: cs) = '\r' :: '\n' :: crlf cs := rfl

theorem crlf_cons {c : Char} (other : c ≠ '\n') (cs : List Char) : crlf (c :: cs) = c :: crlf cs := by
  rw [crlf, List.flatMap_cons, if_neg other]
  rfl

theorem crlf_append (cs ds : List Char) : crlf (cs ++ ds) = crlf cs ++ crlf ds := List.flatMap_append ..

theorem crlf_lineless (lineless : '\n' ∉ cs) : crlf cs = cs := by
  induction cs with
  | nil => rfl
  | cons c cs ih =>
    rw [List.mem_cons, not_or] at lineless
    rw [crlf_cons (Ne.symm lineless.1), ih lineless.2]

theorem crlf_line (lineless : '\n' ∉ ds) (rest : List Char) : crlf (ds ++ rest) = ds ++ crlf rest := by
  rw [crlf_append, crlf_lineless lineless]

theorem crlf_eq_nil_iff : crlf cs = [] ↔ cs = [] := by
  cases cs with
  | nil => simp
  | cons c cs =>
    by_cases line : c = '\n'
    · simp [line]
    · simp [crlf_cons line]

theorem crlf_drop {n : Nat} (lineless : '\n' ∉ cs.take n) : (crlf cs).drop n = crlf (cs.drop n) := by
  have line : crlf cs = cs.take n ++ crlf (cs.drop n) := by rw [← crlf_line lineless, List.take_append_drop]
  rw [line, List.drop_append, List.drop_of_length_le (List.length_take_le n cs), List.nil_append, List.length_take]
  rcases Nat.le_total n cs.length with inside | beyond
  · rw [Nat.min_eq_left inside, Nat.sub_self, List.drop_zero]
  · rw [List.drop_of_length_le beyond, crlf_nil, List.drop_nil]

section Runs

variable (stopsAtReturn : p '\r' = false) (stopsAtLine : p '\n' = false)

include stopsAtReturn stopsAtLine

theorem takeWhile_crlf (cs : List Char) : (crlf cs).takeWhile p = cs.takeWhile p := by
  induction cs with
  | nil => rfl
  | cons c cs ih =>
    by_cases line : c = '\n'
    · subst line
      simp [stopsAtReturn, stopsAtLine]
    · rw [crlf_cons line, List.takeWhile_cons, List.takeWhile_cons, ih]

theorem dropWhile_crlf (cs : List Char) : (crlf cs).dropWhile p = crlf (cs.dropWhile p) := by
  induction cs with
  | nil => rfl
  | cons c cs ih =>
    by_cases line : c = '\n'
    · subst line
      simp [stopsAtReturn, stopsAtLine]
    · rw [crlf_cons line, List.dropWhile_cons, List.dropWhile_cons, ih]
      split
      · rfl
      · rw [crlf_cons line]

end Runs

/-- The two kinds of text from one place on. The place may be between the two characters of a line ending. -/
def Facing (cs cs' : List Char) : Prop := cs' = crlf cs ∨ ∃ rest, cs = '\n' :: rest ∧ cs' = '\n' :: crlf rest

theorem first_crlf {c : Char} (first : c ∈ (crlf cs).head?) : c = '\r' ∨ c ≠ '\n' ∧ c ∈ cs.head? := by
  cases cs with
  | nil => cases first
  | cons d cs =>
    by_cases line : d = '\n'
    · subst line
      exact .inl (Option.some.inj first).symm
    · rw [crlf_cons line] at first
      cases first
      exact .inr ⟨line, rfl⟩

theorem head?_crlf_ne (cs : List Char) : (crlf cs).head? ≠ some '\n' := by
  intro first
  rcases first_crlf (Option.mem_def.mpr first) with impossible | ⟨impossible, _⟩
  · exact absurd impossible (by decide)
  · exact impossible rfl

/-- Characters up to the end of a line take the carriage return with them. -/
theorem dropWhile_crlf_cases (passesReturn : p '\r' = true) (stopsAtLine : p '\n' = false) (cs : List Char) :
    (∃ rest, cs.dropWhile p = '\n' :: rest ∧ (crlf cs).dropWhile p = '\n' :: crlf rest) ∨
      (cs.dropWhile p).head? ≠ some '\n' ∧ (crlf cs).dropWhile p = crlf (cs.dropWhile p) := by
  induction cs with
  | nil => exact .inr ⟨by simp, rfl⟩
  | cons c cs ih =>
    by_cases line : c = '\n'
    · subst line
      rw [crlf_newline, List.dropWhile_cons_of_pos passesReturn, List.dropWhile_cons_of_neg (by simp [stopsAtLine]),
        List.dropWhile_cons_of_neg (by simp [stopsAtLine])]
      exact .inl ⟨cs, rfl, rfl⟩
    · rw [crlf_cons line, List.dropWhile_cons, List.dropWhile_cons]
      split
      · exact ih
      · exact .inr ⟨by simpa using line, (crlf_cons line cs).symm⟩

theorem Facing.dropWhile {cs' : List Char} (h : Facing cs cs') (passesReturn : p '\r' = true)
    (stopsAtLine : p '\n' = false) : Facing (cs.dropWhile p) (cs'.dropWhile p) := by
  rcases h with rfl | ⟨rest, rfl, rfl⟩
  · rcases dropWhile_crlf_cases passesReturn stopsAtLine cs with here | ⟨_, here⟩
    · exact .inr here
    · exact .inl here
  · rw [List.dropWhile_cons_of_neg (by simp [stopsAtLine]), List.dropWhile_cons_of_neg (by simp [stopsAtLine])]
    exact .inr ⟨rest, rfl, rfl⟩

theorem prefix_crlf_iff {pre : List Char} (lineless : '\n' ∉ pre) (returnless : '\r' ∉ pre) :
    pre <+: crlf cs ↔ pre <+: cs := by
  induction pre generalizing cs with
  | nil => simp
  | cons d pre ih =>
    rw [List.mem_cons, not_or] at lineless returnless
    cases cs with
    | nil => simp
    | cons c cs =>
      by_cases line : c = '\n'
      · subst line
        simp [List.cons_prefix_cons, Ne.symm lineless.1, Ne.symm returnless.1]
      · rw [crlf_cons line, List.cons_prefix_cons, List.cons_prefix_cons, ih lineless.2 returnless.2]

/-- What is found on a line that goes on is found in the text with line feeds alone. -/
theorem exists_of_crlf_eq {body behind : List Char} {q : Char} (notLine : q ≠ '\n') (notReturn : q ≠ '\r')
    (lineless : '\n' ∉ body) (split : crlf cs = body ++ q :: behind) :
    ∃ rest, cs = body ++ q :: rest ∧ behind = crlf rest := by
  induction body generalizing cs with
  | nil =>
    cases cs with
    | nil => cases split
    | cons c cs =>
      by_cases line : c = '\n'
      · subst line
        cases (List.cons.inj split).1
        exact absurd rfl notReturn
      · rw [crlf_cons line] at split
        obtain ⟨rfl, rfl⟩ := List.cons.inj split
        exact ⟨cs, rfl, rfl⟩
  | cons d body ih =>
    rw [List.mem_cons, not_or] at lineless
    cases cs with
    | nil => cases split
    | cons c cs =>
      by_cases line : c = '\n'
      · subst line
        obtain ⟨-, behindReturn⟩ := List.cons.inj split
        cases body with
        | nil => exact absurd (List.cons.inj behindReturn).1.symm notLine
        | cons e body => exact absurd (List.cons.inj behindReturn).1 (not_or.mp (List.mem_cons.not.mp lineless.2)).1
      · rw [crlf_cons line] at split
        obtain ⟨rfl, later⟩ := List.cons.inj split
        obtain ⟨rest, rfl, rfl⟩ := ih lineless.2 later
        exact ⟨rest, rfl, rfl⟩

section Lines

variable {line : List Char} (lineless : '\n' ∉ line)

include lineless

theorem takeWhile_line {rest : List Char} (ends : ∀ c ∈ rest.head?, c = '\n') :
    (line ++ rest).takeWhile (· ≠ '\n') = line := by
  have none : rest.takeWhile (· ≠ '\n') = [] := by
    cases rest with
    | nil => rfl
    | cons c rest => rw [List.takeWhile_cons_of_neg (by simp [ends c rfl])]
  rw [List.takeWhile_append_of_pos, none, List.append_nil]
  intro c inside
  have other : c ≠ '\n' := ne_of_mem_of_not_mem inside lineless
  simpa using other

theorem pieces_lineless : pieces '\n' line = [line] := by
  rw [pieces_eq_splitOn, List.splitOn_eq_singleton lineless]

theorem pieces_line (rest : List Char) : pieces '\n' (line ++ '\n' :: rest) = line :: pieces '\n' rest := by
  rw [pieces_eq_splitOn, pieces_eq_splitOn, List.splitOn_append_cons_self_of_not_mem lineless]

end Lines

/-- The first line of a text is the last, or ends in a carriage return in the other text. -/
theorem firstLine_crlf (cs : List Char) :
    (cs.takeWhile (· ≠ '\n') = cs ∧ crlf cs = cs) ∨
      ∃ rest, cs = cs.takeWhile (· ≠ '\n') ++ '\n' :: rest ∧
        crlf cs = cs.takeWhile (· ≠ '\n') ++ ['\r'] ++ '\n' :: crlf rest ∧
        (crlf cs).takeWhile (· ≠ '\n') = cs.takeWhile (· ≠ '\n') ++ ['\r'] := by
  have ends (rest : List Char) : ∀ c ∈ ('\n' :: rest).head?, c = '\n' := fun c first => (Option.some.inj first).symm
  by_cases broken : '\n' ∈ cs
  · obtain ⟨line, rest, rfl, lineless⟩ := List.eq_append_cons_of_mem broken
    have other : crlf (line ++ '\n' :: rest) = line ++ ['\r'] ++ '\n' :: crlf rest := by
      rw [crlf_line lineless, crlf_newline, List.append_assoc]
      rfl
    rw [takeWhile_line lineless (ends rest), other, takeWhile_line (by simp [lineless]) (ends _)]
    exact .inr ⟨rest, rfl, rfl, rfl⟩
  · have whole : (cs ++ []).takeWhile (· ≠ '\n') = cs := takeWhile_line broken fun c impossible => by cases impossible
    rw [List.append_nil] at whole
    exact .inl ⟨whole, crlf_lineless broken⟩

end StackLattice.Text
