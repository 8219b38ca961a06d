import StackLattice.Syntax.Lexeme

/-!
A lexeme takes at least one character: reading one leaves a shorter text. It is neither the end of the text nor an
inserted comma.
-/

namespace StackLattice.Syntax

open Text (Input isBlank isAsciiDigit isAlphabetic isAlphanumeric)

theorem stringBody_length_le (start : Nat) (i : Input) :
    (stringBody start i).2.rest.length ≤ i.rest.length := by
  fun_induction stringBody start i with
  | case1 | case2 => exact Nat.le_refl _
  | case3 i rest h => simp [Input.skip_rest, h]
  | case4 i rest h fault hf => simp [Input.skip_rest, h]
  | case5 i rest h c taken he tail left hb ih =>
    rw [hb] at ih
    simp only [Input.skipMany_rest, h, List.length_drop, List.length_cons] at ih ⊢
    omega
  | case6 i _ _ _ _ _ _ tail left hb ih =>
    rw [hb] at ih
    simp only [Input.skip_rest, List.length_tail] at ih ⊢
    omega

theorem blockLines_length_le (start : Nat) (i : Input) (lines : List Line) :
    (blockLines start i lines).2.rest.length ≤ i.rest.length := by
  fun_induction blockLines start i lines with
  | case1 => exact Nat.le_refl _
  | case2 i lines c cs h line indent hq => simp [Input.skipMany_rest]
  | case3 i lines _ _ _ line _ ih =>
    simp only [Input.skipMany_rest, List.length_drop] at ih
    omega

theorem skipWhile_length_le (p : Char → Bool) (i : Input) :
    (i.skipWhile p).rest.length ≤ i.rest.length := (List.dropWhile_suffix p).length_le

theorem blockString_length_lt (i : Input) (h : i.rest ≠ []) :
    (blockString i).2.rest.length < i.rest.length := by
  have pos : 0 < i.rest.length := List.length_pos_iff.mpr h
  have opened : ((i.skipMany 3).skipWhile fun c => isBlank c && c != '\n').rest.length <
      i.rest.length := by
    have := skipWhile_length_le (fun c => isBlank c && c != '\n') (i.skipMany 3)
    simp only [Input.skipMany_rest, List.length_drop] at this
    omega
  unfold blockString
  simp only []
  split
  · have := blockLines_length_le i.offset
      ((i.skipMany 3).skipWhile fun c => isBlank c && c != '\n').skip []
    simp only [Input.skip_rest, List.length_tail] at this
    split <;> simp_all <;> omega
  · exact opened

theorem number_length_lt {i : Input} {c : Char} {cs : List Char} (h : i.rest = c :: cs)
    (digit : isAsciiDigit c = true) : (number i).2.rest.length < i.rest.length := by
  have whole : 0 < (i.rest.takeWhile isNumberChar).length := by
    simp [h, isNumberChar, digit]
  unfold number
  simp only []
  split <;> split <;>
    simp only [Input.skipMany_rest, List.length_drop, List.length_append, h, List.length_cons] at whole ⊢ <;>
    omega

theorem name_length_lt {i : Input} {c : Char} {cs : List Char} (h : i.rest = c :: cs)
    (start : (isAlphabetic c || c == '_' || c == '$' || c == '#') = true) :
    (name i).2.rest.length < i.rest.length := by
  unfold name
  split
  · rename_i hash
    split
    · simp only [Input.skipMany_rest, List.length_drop, hash, List.length_cons]
      omega
    · simp [Input.skip_rest, hash]
  · rename_i hash
    simp [Input.skip_rest, hash]
  · rename_i notDefinition notHash
    have other : c ≠ '#' := by
      rintro rfl
      cases cs with
      | nil => exact notHash h
      | cons d ds => exact notDefinition d ds h
    have body : isNameChar c = true := by
      simp only [isNameChar, isAlphanumeric, Bool.or_eq_true, beq_iff_eq] at start ⊢
      rcases start with ((alphabetic | underscore) | dollar) | hash
      · exact .inl (.inl (.inl alphabetic))
      · exact .inl (.inr underscore)
      · exact .inr dollar
      · exact absurd hash other
    simp only [Input.skipMany_rest, h, List.takeWhile_cons, body, if_true, List.length_cons,
      List.length_drop]
    omega

theorem skipMany_length_lt {i : Input} {n : Nat} (rest : i.rest ≠ []) (some : 0 < n) :
    (i.skipMany n).rest.length < i.rest.length := by
  have := List.length_pos_iff.2 rest
  rw [Input.skipMany_rest, List.length_drop]
  omega

theorem lexeme_length_lt {i left : Input} {kind : TokenKind} {c : Char} {cs : List Char}
    (h : i.rest = c :: cs) (read : lexeme i = (.ok kind, left)) :
    left.rest.length < i.rest.length := by
  have ne : i.rest ≠ [] := by simp [h]
  unfold lexeme at read
  simp only [] at read
  split at read <;>
    try (obtain ⟨-, rfl⟩ := Prod.mk.inj read; exact skipMany_length_lt ne (by decide))
  · rename_i nothing
    exact absurd nothing ne
  · obtain ⟨-, rfl⟩ := Prod.mk.inj read
    exact blockString_length_lt i ne
  · obtain ⟨-, rfl⟩ := Prod.mk.inj read
    have := stringBody_length_le i.offset i.skip
    rw [Input.skip_rest, h, List.tail_cons] at this
    rw [h, List.length_cons]
    omega
  · rename_i same
    obtain ⟨rfl, rfl⟩ := List.cons.inj (h.symm.trans same)
    split at read
    · rename_i digit
      have := number_length_lt h digit
      rw [read] at this
      exact this
    · split at read
      · rename_i start
        have := name_length_lt h start
        rw [read] at this
        exact this
      · cases read

theorem lexeme_written {i left : Input} {kind : TokenKind} {c : Char} {cs : List Char}
    (h : i.rest = c :: cs) (read : lexeme i = (.ok kind, left)) : kind ≠ .eof ∧ kind ≠ .comma true := by
  unfold lexeme at read
  simp only [] at read
  split at read <;> try (obtain ⟨e, -⟩ := Prod.mk.inj read; cases e; simp; done)
  · simp_all
  · obtain ⟨e, -⟩ := Prod.mk.inj read
    cases hb : (blockString i).1 <;> rw [hb] at e <;> cases e
    simp
  · obtain ⟨e, -⟩ := Prod.mk.inj read
    cases hb : (stringBody i.offset i.skip).1 <;> rw [hb] at e <;> cases e
    simp
  · split at read
    · unfold number at read
      simp only [] at read
      split at read <;> split at read <;> cases read <;> simp
    · split at read
      · have named : ∀ s, nameToken s ≠ .eof ∧ nameToken s ≠ .comma true := by
          intro s
          unfold nameToken
          repeat' split
          all_goals simp
        unfold name at read
        split at read
        · split at read <;> cases read
          exact named _
        · cases read
        · cases read
          exact named _
      · cases read

end StackLattice.Syntax
