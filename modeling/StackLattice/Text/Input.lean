/-!
Unread text with the byte offset at which it starts. Offsets count the UTF-8 bytes of the
characters before them.
-/

namespace StackLattice.Text

/-- Number of UTF-8 bytes of a list of characters. -/
def byteLength (cs : List Char) : Nat := cs.foldr (fun c n => c.utf8Size + n) 0

/-- The characters before and after a byte offset, when the offset does not fall inside one. -/
def splitBytes : Nat → List Char → Option (List Char × List Char)
  | 0, cs => some ([], cs)
  | _ + 1, [] => none
  | n + 1, c :: cs =>
    if c.utf8Size ≤ n + 1 then (splitBytes (n + 1 - c.utf8Size) cs).map fun (a, b) => (c :: a, b)
    else none

/-- The characters between two byte offsets, when both stand between characters. -/
def sliceBytes (start stop : Nat) (cs : List Char) : Option (List Char) := do
  let (_, rest) ← splitBytes start cs
  if stop < start then none
  let (middle, _) ← splitBytes (stop - start) rest
  return middle

/-- The unread characters of a text and the offset of the first of them. -/
structure Input where
  rest : List Char
  offset : Nat
deriving DecidableEq, Repr

namespace Input

def ofString (s : String) : Input := ⟨s.toList, 0⟩

/-- Passes over one character; at the end of the text it does nothing. -/
def skip (i : Input) : Input :=
  match i.rest with
  | [] => i
  | c :: cs => ⟨cs, i.offset + c.utf8Size⟩

/-- Passes over `n` characters, or over all that are left. -/
def skipMany : Nat → Input → Input
  | 0, i => i
  | n + 1, i => skipMany n i.skip

/-- Passes over the longest run of characters that satisfy `p`. -/
def skipWhile (p : Char → Bool) (i : Input) : Input :=
  ⟨i.rest.dropWhile p, i.offset + byteLength (i.rest.takeWhile p)⟩

theorem skip_rest (i : Input) : i.skip.rest = i.rest.tail := by
  obtain ⟨rest, offset⟩ := i
  cases rest <;> rfl

theorem skipMany_rest (n : Nat) (i : Input) : (skipMany n i).rest = i.rest.drop n := by
  induction n generalizing i with
  | zero => rfl
  | succ n ih => simp [skipMany, ih, skip_rest]

end Input

end StackLattice.Text
