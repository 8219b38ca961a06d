import Mathlib.Data.List.Basic
import StackLattice.Proofs.Text.Passing
import StackLattice.Source.Position
import StackLattice.Text.Property

/-!
Lines and columns of offsets that cut no character. The line counts the line feeds before the offset, the column the
characters behind the last of them, and both together grow with the offset.
-/

namespace StackLattice

namespace Text

theorem behindLineFeeds_append (offset : Nat) (cs ds : List Char) :
    behindLineFeeds offset (cs ++ ds) = behindLineFeeds offset cs ++ behindLineFeeds (offset + byteLength cs) ds := by
  induction cs generalizing offset with
  | nil => rfl
  | cons c cs ih =>
    simp only [List.cons_append, behindLineFeeds, byteLength_cons, ← Nat.add_assoc, ih]
    split <;> rfl

theorem length_behindLineFeeds (offset : Nat) (cs : List Char) :
    (behindLineFeeds offset cs).length = cs.count '\n' := by
  induction cs generalizing offset with
  | nil => rfl
  | cons c cs ih =>
    rw [behindLineFeeds, List.count_cons]
    by_cases line : c = '\n' <;> simp [line, ih]

theorem le_of_mem_behindLineFeeds {offset n : Nat} {cs : List Char} (member : n ∈ behindLineFeeds offset cs) :
    offset < n ∧ n ≤ offset + byteLength cs := by
  induction cs generalizing offset with
  | nil => cases member
  | cons c cs ih =>
    have size := c.utf8Size_pos
    have behind (member : n ∈ behindLineFeeds (offset + c.utf8Size) cs) :
        offset < n ∧ n ≤ offset + byteLength (c :: cs) := by
      have := ih member
      rw [byteLength_cons]
      omega
    rw [behindLineFeeds] at member
    split at member
    · rcases List.mem_cons.mp member with rfl | member
      · rw [byteLength_cons]
        omega
      · exact behind member
    · exact behind member

theorem behindLineFeeds_ascending (offset : Nat) (cs : List Char) :
    (behindLineFeeds offset cs).Pairwise (· < ·) := by
  induction cs generalizing offset with
  | nil => exact .nil
  | cons c cs ih =>
    rw [behindLineFeeds]
    split
    · rename_i line
      refine List.pairwise_cons.mpr ⟨fun n member => ?_, ih _⟩
      have := (le_of_mem_behindLineFeeds member).1
      have size : c.utf8Size = 1 := by rw [line]; rfl
      omega
    · exact ih _

theorem behindLineFeeds_lineless (offset : Nat) {cs : List Char} (lineless : '\n' ∉ cs) :
    behindLineFeeds offset cs = [] := by
  rw [← List.length_eq_zero_iff, length_behindLineFeeds, List.count_eq_zero]
  exact lineless

/-- A search keeps between its two places whatever is neither too small nor too large. -/
theorem search_cases {table : List Nat} {value low high : Nat} (ascending : table.Pairwise (· < ·))
    (fits : high ≤ table.length) (order : low ≤ high) (small : ∀ n ∈ table.take low, n < value)
    (large : ∀ n ∈ table.drop high, value < n) :
    (∃ i, search table.toArray value low high = .ok i ∧ table[i]? = some value) ∨
      ∃ i, search table.toArray value low high = .error i ∧ i ≤ table.length ∧ (∀ n ∈ table.take i, n < value) ∧
        ∀ n ∈ table.drop i, value < n := by
  fun_induction search table.toArray value low high with
  | case1 low high more middle found =>
    refine .inl ⟨middle, rfl, ?_⟩
    have inside : middle < table.length := by omega
    simpa [inside] using found
  | case2 low high more middle other less ih =>
    have inside : middle < table.length := by omega
    have entry : table.toArray.getD middle 0 = table[middle] := by simp [inside]
    refine ih fits (by omega) (fun n member => ?_) large
    rw [List.take_succ_eq_append_getElem inside, List.mem_append, List.mem_singleton] at member
    rcases member with before | rfl
    · have sorted := List.pairwise_iff_getElem.mp ascending
      obtain ⟨k, below, rfl⟩ := List.mem_take_iff_getElem.mp before
      have := sorted k middle (by omega) inside (by omega)
      omega
    · omega
  | case3 low high more middle other less ih =>
    have inside : middle < table.length := by omega
    have entry : table.toArray.getD middle 0 = table[middle] := by simp [inside]
    refine ih (by omega) (by omega) small fun n member => ?_
    have sorted := List.pairwise_iff_getElem.mp ascending
    obtain ⟨k, below, rfl⟩ := List.mem_drop_iff_getElem.mp member
    rcases Nat.eq_zero_or_pos k with rfl | later
    · simp only [Nat.add_zero]
      omega
    · have := sorted middle (middle + k) inside (by omega) (by omega)
      omega
  | case4 low high none =>
    have same : low = high := by omega
    subst same
    exact .inr ⟨low, rfl, fits, small, large⟩

/-- The line of an offset is the last that starts at or before it. -/
theorem lineAt_eq {earlier later : List Nat} {start offset : Nat}
    (ascending : (earlier ++ start :: later).Pairwise (· < ·)) (notAfter : start ≤ offset)
    (after : ∀ n ∈ later, offset < n) : lineAt (earlier ++ start :: later).toArray offset = earlier.length := by
  have before : ∀ n ∈ earlier, n < start := fun n member =>
    (List.pairwise_append.mp ascending).2.2 n member start List.mem_cons_self
  have length : (earlier ++ start :: later).length = earlier.length + 1 + later.length := by simp; omega
  unfold lineAt
  rw [List.size_toArray]
  rcases @search_cases _ offset _ _ ascending (Nat.le_refl _) (Nat.zero_le _) (by simp) (by simp) with
    ⟨i, found, entry⟩ | ⟨i, found, fits, small, large⟩
  · rw [found]
    dsimp only
    rcases Nat.lt_trichotomy i earlier.length with less | same | more
    · rw [List.getElem?_append_left less] at entry
      have := before offset (List.mem_of_getElem? entry)
      omega
    · exact same
    · obtain ⟨k, rfl⟩ := Nat.exists_eq_add_of_lt more
      rw [Nat.add_assoc, List.getElem?_append_right (Nat.le_add_right _ _), Nat.add_sub_cancel_left,
        List.getElem?_cons_succ] at entry
      exact absurd (after offset (List.mem_of_getElem? entry)) (Nat.lt_irrefl _)
  · rw [found]
    dsimp only
    -- The place at which the offset is missing is the one behind the start of its line.
    rcases Nat.lt_trichotomy i (earlier.length + 1) with less | same | more
    · have := large start (by rw [List.drop_append_of_le_length (by omega)]; simp)
      omega
    · omega
    · obtain ⟨next, rest, rfl⟩ : ∃ next rest, later = next :: rest := by
        cases later with
        | nil => simp only [List.length_nil] at length; omega
        | cons next rest => exact ⟨next, rest, rfl⟩
      have inside : next ∈ (earlier ++ start :: next :: rest).take i := by
        refine List.mem_take_iff_getElem.mpr ⟨earlier.length + 1, by omega, ?_⟩
        simp
      have := small next inside
      have := after next List.mem_cons_self
      omega

theorem lineStarts_ascending (cs : List Char) : (0 :: behindLineFeeds 0 cs).Pairwise (· < ·) :=
  List.pairwise_cons.mpr ⟨fun _ member => (le_of_mem_behindLineFeeds member).1, behindLineFeeds_ascending 0 cs⟩

/-- No line before the last one starts where that does. -/
theorem exists_earlier_starts {lines : List Char} (ends : lines = [] ∨ ∃ earlier, lines = earlier ++ ['\n']) :
    ∃ starts, 0 :: behindLineFeeds 0 lines = starts ++ [byteLength lines] ∧ starts.length = lines.count '\n' := by
  rcases ends with rfl | ⟨earlier, rfl⟩
  · exact ⟨[], rfl, rfl⟩
  · refine ⟨0 :: behindLineFeeds 0 earlier, ?_, ?_⟩
    · rw [behindLineFeeds_append, Nat.zero_add, byteLength_append]
      rfl
    · simp [length_behindLineFeeds]

/-- The characters behind the last line feed, backwards. -/
def lastLine (cs : List Char) : List Char := cs.reverse.takeWhile (· ≠ '\n')

theorem exists_lastLine (cs : List Char) :
    ∃ lines line, cs = lines ++ line ∧ line.length = (lastLine cs).length ∧ '\n' ∉ line ∧
      (lines = [] ∨ ∃ earlier, lines = earlier ++ ['\n']) := by
  have whole := List.takeWhile_append_dropWhile (p := (· ≠ '\n')) (l := cs.reverse)
  refine ⟨(cs.reverse.dropWhile (· ≠ '\n')).reverse, (lastLine cs).reverse, ?_, ?_, ?_, ?_⟩
  · rw [lastLine, ← List.reverse_append, whole, List.reverse_reverse]
  · rw [List.length_reverse]
  · intro member
    have := List.all_eq_true.mp List.all_takeWhile '\n' (List.mem_reverse.mp member)
    simp at this
  · cases rest : cs.reverse.dropWhile (· ≠ '\n') with
    | nil => exact .inl rfl
    | cons c others =>
      have line : c = '\n' := by
        have first := List.head_dropWhile_not (l := cs.reverse) (· ≠ '\n') (by rw [rest]; simp)
        simp only [rest, List.head_cons] at first
        simpa using first
      exact .inr ⟨others.reverse, by rw [List.reverse_cons, line]⟩

/-- A line of blanks between two line feeds. -/
def BlankLine (cs : List Char) : Prop :=
  ∃ before blanks after, cs = before ++ '\n' :: (blanks ++ '\n' :: after) ∧ ∀ c ∈ blanks, isBlank c = true ∧ c ≠ '\n'

section LastLine

variable {cs ds : List Char}

theorem lastLine_append (lineless : '\n' ∉ ds) : lastLine (cs ++ ds) = ds.reverse ++ lastLine cs := by
  have all : ∀ c ∈ ds.reverse, decide (c ≠ '\n') = true := fun c member =>
    decide_eq_true fun same => lineless (same ▸ List.mem_reverse.mp member)
  rw [lastLine, List.reverse_append, List.takeWhile_append_of_pos all, lastLine]

theorem lastLine_newline (lineless : '\n' ∉ ds) : lastLine (cs ++ '\n' :: ds) = ds.reverse := by
  have ends : lastLine (cs ++ ['\n']) = [] := by simp [lastLine]
  rw [← List.singleton_append, ← List.append_assoc, lastLine_append lineless, ends, List.append_nil]

theorem exists_newline (member : '\n' ∈ cs) : ∃ earlier line, cs = earlier ++ '\n' :: line ∧ '\n' ∉ line := by
  obtain ⟨lines, line, rfl, _, lineless, rfl | ⟨earlier, rfl⟩⟩ := exists_lastLine cs
  · exact absurd member lineless
  · exact ⟨earlier, line, by simp, lineless⟩

theorem blankLine_append (lineless : '\n' ∉ ds) : BlankLine (cs ++ ds) ↔ BlankLine cs := by
  constructor
  · rintro ⟨before, blanks, after, whole, blank⟩
    rw [← List.cons_append, ← List.append_assoc] at whole
    rcases List.append_eq_append_iff.mp whole with ⟨middle, _, rfl⟩ | ⟨middle, rfl, rest⟩
    · exact absurd (by simp) lineless
    · cases middle with
      | nil =>
        rw [List.nil_append] at rest
        exact absurd (by simp [← rest]) lineless
      | cons c middle =>
        cases rest
        exact ⟨before, blanks, middle, by simp, blank⟩
  · rintro ⟨before, blanks, after, rfl, blank⟩
    exact ⟨before, blanks, after ++ ds, by simp, blank⟩

/-- A line feed ends a line of blanks if there is nothing else behind the line feed before it. -/
theorem blankLine_newline :
    BlankLine (cs ++ ['\n']) ↔
      BlankLine cs ∨ ∃ before blanks, cs = before ++ '\n' :: blanks ∧ ∀ c ∈ blanks, isBlank c = true ∧ c ≠ '\n' := by
  constructor
  · rintro ⟨before, blanks, after, whole, blank⟩
    rcases List.eq_nil_or_concat after with rfl | ⟨after, c, rfl⟩
    · refine .inr ⟨before, blanks, ?_, blank⟩
      rw [← List.cons_append, ← List.append_assoc] at whole
      exact (List.append_inj' whole rfl).1
    · refine .inl ⟨before, blanks, after, ?_, blank⟩
      rw [List.concat_eq_append, ← List.cons_append, ← List.append_assoc, ← List.cons_append,
        ← List.append_assoc] at whole
      rw [(List.append_inj' whole rfl).1, List.append_assoc, List.cons_append]
  · rintro (⟨before, blanks, after, rfl, blank⟩ | ⟨before, blanks, rfl, blank⟩)
    · exact ⟨before, blanks, after ++ ['\n'], by simp, blank⟩
    · exact ⟨before, blanks, [], by simp, blank⟩

variable {before gap : List Char}

/-- Behind a line feed of a gap, what is on the last line decides whether a further line feed ends a line of blanks. -/
theorem blankLine_of_blank (broken : '\n' ∈ gap) (blank : ∀ c ∈ lastLine (before ++ gap), isBlank c = true) :
    BlankLine (gap ++ ['\n']) := by
  obtain ⟨earlier, line, rfl, lineless⟩ := exists_newline broken
  rw [← List.append_assoc, lastLine_newline lineless] at blank
  exact blankLine_newline.mpr (.inr ⟨earlier, line, rfl, fun c member =>
    ⟨blank c (List.mem_reverse.mpr member), fun same => lineless (same ▸ member)⟩⟩)

theorem blankLine_iff_of_content (content : ∃ c ∈ lastLine (before ++ gap), isBlank c = false) :
    BlankLine (gap ++ ['\n']) ↔ BlankLine gap := by
  refine blankLine_newline.trans ⟨fun h => h.resolve_right ?_, .inl⟩
  rintro ⟨earlier, blanks, rfl, blank⟩
  obtain ⟨c, member, solid⟩ := content
  rw [← List.append_assoc, lastLine_newline fun inside => (blank '\n' inside).2 rfl] at member
  rw [(blank c (List.mem_reverse.mp member)).1] at solid
  cases solid

end LastLine

end Text

namespace SourceText

open Text (byteLength behindLineFeeds lineStarts)

variable (s : SourceText)

theorem lineColumn_of_lines {lines line after : List Char} (split : s.text.toList = lines ++ line ++ after)
    (lineless : '\n' ∉ line) (ends : lines = [] ∨ ∃ earlier, lines = earlier ++ ['\n']) :
    s.lineColumn (byteLength (lines ++ line)) = (1 + lines.count '\n', 1 + line.length) := by
  obtain ⟨starts, table, count⟩ := Text.exists_earlier_starts ends
  have whole : 0 :: behindLineFeeds 0 s.text.toList =
      starts ++ byteLength lines :: behindLineFeeds (byteLength (lines ++ line)) after := by
    rw [split, Text.behindLineFeeds_append, Text.behindLineFeeds_append, Nat.zero_add, Nat.zero_add,
      Text.behindLineFeeds_lineless _ lineless, List.append_nil, ← List.cons_append, table, List.append_assoc]
    rfl
  have ascending := Text.lineStarts_ascending s.text.toList
  rw [whole] at ascending
  have line_eq : Text.lineAt (lineStarts s.text.toList) (byteLength (lines ++ line)) = starts.length := by
    rw [lineStarts, whole]
    refine Text.lineAt_eq ascending ?_ fun n member => (Text.le_of_mem_behindLineFeeds member).1
    rw [Text.byteLength_append]
    exact Nat.le_add_right _ _
  have start_eq : (lineStarts s.text.toList).getD starts.length 0 = byteLength lines := by
    rw [lineStarts, whole]
    simp
  have inside : min (byteLength (lines ++ line)) (byteLength s.text.toList) = byteLength (lines ++ line) := by
    rw [split, Text.byteLength_append (lines ++ line)]
    exact Nat.min_eq_left (Nat.le_add_right _ _)
  have sliced : Text.sliceBytes (byteLength lines) (byteLength (lines ++ line)) s.text.toList = some line := by
    rw [split, Text.byteLength_append, Text.sliceBytes_append]
  simp only [lineColumn, inside, line_eq, start_eq, sliced, Option.getD_some]
  rw [count, Nat.add_comm, Nat.add_comm line.length]

/-- The line counts line feeds and the column characters behind the last of them. -/
theorem lineColumn_of_boundary {before after : List Char} (split : s.text.toList = before ++ after) :
    s.lineColumn (byteLength before) =
      (1 + before.count '\n', 1 + (Text.lastLine before).length) := by
  obtain ⟨lines, line, rfl, length, lineless, ends⟩ := Text.exists_lastLine before
  rw [s.lineColumn_of_lines split lineless ends, length, List.count_append, List.count_eq_zero.mpr lineless,
    Nat.add_zero]

theorem lineColumn_past_end {offset : Nat} (past : byteLength s.text.toList ≤ offset) :
    s.lineColumn offset = s.lineColumn (byteLength s.text.toList) := by
  rw [lineColumn, lineColumn, Nat.min_eq_right past, Nat.min_self]

theorem lineColumn_lt {before between after : List Char} (split : s.text.toList = before ++ between ++ after)
    (some : between ≠ []) :
    Prod.Lex (· < ·) (· < ·) (s.lineColumn (byteLength before)) (s.lineColumn (byteLength (before ++ between))) := by
  rw [s.lineColumn_of_boundary split, s.lineColumn_of_boundary (by rw [split, List.append_assoc]),
    List.count_append]
  by_cases line : '\n' ∈ between
  · have := List.count_pos_iff.mpr line
    exact .left _ _ (by omega)
  · have length := List.length_pos_iff.mpr some
    rw [List.count_eq_zero.mpr line, Text.lastLine_append line, List.length_append, List.length_reverse, Nat.add_zero]
    exact .right _ (by omega)

end SourceText

end StackLattice
