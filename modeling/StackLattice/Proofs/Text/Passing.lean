import StackLattice.Source.Span

/-!
Passing over text. Whatever stands between two places of a text takes as many bytes as the offsets of these differ
by, so an offset between two characters determines what stands before it and behind it.
-/

namespace StackLattice

namespace Text

@[simp] theorem byteLength_nil : byteLength [] = 0 := rfl

@[simp] theorem byteLength_cons (c : Char) (cs : List Char) : byteLength (c :: cs) = c.utf8Size + byteLength cs := rfl

@[simp] theorem byteLength_append (cs ds : List Char) : byteLength (cs ++ ds) = byteLength cs + byteLength ds := by
  induction cs with
  | nil => simp
  | cons c cs ih => rw [List.cons_append, byteLength_cons, ih, byteLength_cons, Nat.add_assoc]

theorem byteLength_pos {cs : List Char} (filled : cs ≠ []) : 0 < byteLength cs := by
  cases cs with
  | nil => exact absurd rfl filled
  | cons c cs =>
    have := c.utf8Size_pos
    rw [byteLength_cons]
    omega

theorem splitBytes_append (before after : List Char) :
    splitBytes (byteLength before) (before ++ after) = some (before, after) := by
  induction before with
  | nil => cases after <;> rfl
  | cons c before ih =>
    obtain ⟨n, size⟩ := Nat.exists_eq_succ_of_ne_zero (Nat.ne_of_gt (byteLength_pos (List.cons_ne_nil c before)))
    have rest : n + 1 - c.utf8Size = byteLength before := by
      rw [byteLength_cons] at size
      omega
    have fits : c.utf8Size ≤ n + 1 := by
      rw [byteLength_cons] at size
      omega
    rw [size, List.cons_append, splitBytes, if_pos fits, rest, ih]
    rfl

/-- Within one text, as many bytes are the same characters. -/
theorem append_inj_of_byteLength {before after before' after' : List Char} (whole : before ++ after = before' ++ after')
    (same : byteLength before = byteLength before') : before = before' ∧ after = after' := by
  have split := splitBytes_append before after
  rw [whole, same, splitBytes_append] at split
  cases split
  exact ⟨rfl, rfl⟩

theorem append_of_splitBytes {n : Nat} {cs before after : List Char} (h : splitBytes n cs = some (before, after)) :
    cs = before ++ after := by
  induction cs generalizing n before with
  | nil =>
    cases n with
    | zero =>
      cases h
      rfl
    | succ n => cases h
  | cons c cs ih =>
    cases n with
    | zero =>
      cases h
      rfl
    | succ n =>
      rw [splitBytes] at h
      split at h
      · obtain ⟨⟨before', after'⟩, split, same⟩ := Option.map_eq_some_iff.mp h
        cases same
        rw [ih split]
        rfl
      · cases h

theorem sliceBytes_infix {start stop : Nat} {cs middle : List Char} (h : sliceBytes start stop cs = some middle) :
    middle <:+: cs := by
  unfold sliceBytes at h
  obtain ⟨⟨before, rest⟩, first, h⟩ := Option.bind_eq_some_iff.mp h
  dsimp only at h
  split at h
  · cases h
  · obtain ⟨⟨middle', after⟩, last, same⟩ := Option.bind_eq_some_iff.mp h
    cases same
    exact ⟨before, after, by rw [append_of_splitBytes first, append_of_splitBytes last, List.append_assoc]⟩

theorem sliceBytes_append (before middle after : List Char) :
    sliceBytes (byteLength before) (byteLength before + byteLength middle) (before ++ middle ++ after) =
      some middle := by
  have inside : ¬byteLength before + byteLength middle < byteLength before := by omega
  simp [sliceBytes, List.append_assoc, splitBytes_append, inside]

/-- An offset at which no character is cut. -/
def Boundary (text : List Char) (offset : Nat) : Prop :=
  ∃ before after, text = before ++ after ∧ byteLength before = offset

namespace Input

/-- From one place of a text to another, over the characters between them. -/
structure Passes (cs : List Char) (i j : Input) : Prop where
  rest : i.rest = cs ++ j.rest
  offset : j.offset = i.offset + byteLength cs

theorem Passes.refl (i : Input) : Passes [] i i := ⟨rfl, rfl⟩

theorem Passes.trans {cs ds : List Char} {i j k : Input} (first : Passes cs i j) (last : Passes ds j k) :
    Passes (cs ++ ds) i k :=
  ⟨by rw [first.rest, last.rest, List.append_assoc],
    by rw [last.offset, first.offset, byteLength_append, Nat.add_assoc]⟩

theorem Passes.behind {cs ds : List Char} {i j k : Input} (whole : Passes (cs ++ ds) i k) (first : Passes cs i j) :
    Passes ds j k := by
  refine ⟨?_, ?_⟩
  · have same := whole.rest
    rw [first.rest, List.append_assoc] at same
    exact List.append_cancel_left same
  · rw [whole.offset, first.offset, byteLength_append, Nat.add_assoc]

theorem Passes.right_unique {cs : List Char} {i j k : Input} (first : Passes cs i j) (second : Passes cs i k) :
    j = k := by
  obtain ⟨rest, offset⟩ := j
  obtain ⟨rest', offset'⟩ := k
  have sameRest : rest = rest' := List.append_cancel_left (first.rest.symm.trans second.rest)
  have sameOffset : offset = offset' := first.offset.trans second.offset.symm
  rw [sameRest, sameOffset]

theorem passes_skip {i : Input} {c : Char} {cs : List Char} (here : i.rest = c :: cs) : Passes [c] i i.skip := by
  refine ⟨by rw [skip_rest, here]; rfl, ?_⟩
  simp [skip, here]

theorem passes_skipMany (n : Nat) (i : Input) : Passes (i.rest.take n) i (i.skipMany n) := by
  induction n generalizing i with
  | zero => exact .refl i
  | succ n ih =>
    obtain ⟨rest, offset⟩ := i
    cases rest with
    | nil =>
      have same := ih ⟨[], offset⟩
      rw [List.take_nil] at same ⊢
      exact same
    | cons c cs => exact (passes_skip (i := ⟨c :: cs, offset⟩) rfl).trans (ih ⟨cs, offset + c.utf8Size⟩)

theorem passes_prefix {cs : List Char} {i : Input} (starts : cs <+: i.rest) : Passes cs i (i.skipMany cs.length) := by
  have passes := passes_skipMany cs.length i
  rwa [← List.prefix_iff_eq_take.mp starts] at passes

theorem passes_skipWhile (p : Char → Bool) (i : Input) : Passes (i.rest.takeWhile p) i (i.skipWhile p) :=
  ⟨List.takeWhile_append_dropWhile.symm, rfl⟩

/-- A place further on in the text, or the same. -/
def Reaches (i j : Input) : Prop := ∃ cs, Passes cs i j

theorem Reaches.refl (i : Input) : Reaches i i := ⟨[], .refl i⟩

theorem Reaches.trans {i j k : Input} (first : Reaches i j) (last : Reaches j k) : Reaches i k := by
  obtain ⟨cs, first⟩ := first
  obtain ⟨ds, last⟩ := last
  exact ⟨cs ++ ds, first.trans last⟩

theorem reaches_skip (i : Input) : Reaches i i.skip := ⟨_, passes_skipMany 1 i⟩

theorem reaches_skipMany (n : Nat) (i : Input) : Reaches i (i.skipMany n) := ⟨_, passes_skipMany n i⟩

theorem reaches_skipWhile (p : Char → Bool) (i : Input) : Reaches i (i.skipWhile p) := ⟨_, passes_skipWhile p i⟩

end Input

end Text

/-- The text of a span between two boundaries is what stands between them. -/
theorem Span.slice_eq {text : String} {before middle after : List Char}
    (split : text.toList = before ++ middle ++ after) :
    Span.slice ⟨Text.byteLength before, Text.byteLength before + Text.byteLength middle⟩ text =
      String.ofList middle := by
  rw [Span.slice, split, Text.sliceBytes_append]
  rfl

theorem Span.slice_infix (span : Span) (text : String) : (span.slice text).toList <:+: text.toList := by
  rw [Span.slice, String.toList_ofList]
  cases sliced : Text.sliceBytes span.start span.stop text.toList with
  | none => exact List.nil_infix
  | some middle => exact Text.sliceBytes_infix sliced

end StackLattice
