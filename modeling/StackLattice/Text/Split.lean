/-!
Text cut at a separator.
-/

namespace StackLattice.Text

/-- The pieces between separators, one more than there are separators. -/
def pieces (separator : Char) : List Char → List (List Char)
  | [] => [[]]
  | c :: cs =>
    if c = separator then [] :: pieces separator cs
    else
      match pieces separator cs with
      | piece :: others => (c :: piece) :: others
      | [] => [[c]]

theorem pieces_ne_nil (separator : Char) (cs : List Char) : pieces separator cs ≠ [] := by
  cases cs with
  | nil => simp [pieces]
  | cons c cs =>
    unfold pieces
    split
    · simp
    · split <;> simp

theorem pieces_eq_splitOn (separator : Char) (cs : List Char) : pieces separator cs = cs.splitOn separator := by
  induction cs with
  | nil => rfl
  | cons c cs ih =>
    rw [pieces, List.splitOn_cons_eq_if_modifyHead, ← ih]
    by_cases same : c = separator
    · rw [if_pos same, if_pos (beq_iff_eq.mpr same)]
    · rw [if_neg same, if_neg fun found => same (eq_of_beq found)]
      cases first : pieces separator cs with
      | nil => exact absurd first (pieces_ne_nil separator cs)
      | cons piece others => rfl

/-- What stands before the first separator and behind it. -/
def cut (separator : Char) (cs : List Char) : List Char × Option (List Char) :=
  match cs.span (· ≠ separator) with
  | (before, _ :: after) => (before, some after)
  | (before, []) => (before, none)

end StackLattice.Text
