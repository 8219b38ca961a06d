import StackLattice.Source.Span

/-!
Places in source text as people count them: lines and columns from one, a column being one
character. The line of an offset is found by search in a table of the offsets that lines start at,
which is in ascending order.
-/

namespace StackLattice.Text

/-- Offsets behind the line feeds of characters that start at an offset. -/
def behindLineFeeds (offset : Nat) : List Char → List Nat
  | [] => []
  | c :: cs =>
    if c = '\n' then (offset + 1) :: behindLineFeeds (offset + c.utf8Size) cs
    else behindLineFeeds (offset + c.utf8Size) cs

def lineStarts (text : List Char) : Array Nat := (0 :: behindLineFeeds 0 text).toArray

/-- Looks for a value between two places of a table: the place that has it, or else the place at which it is missing. -/
def search (table : Array Nat) (value low high : Nat) : Except Nat Nat :=
  if low < high then
    let middle := (low + high) / 2
    if table.getD middle 0 = value then .ok middle
    else if table.getD middle 0 < value then search table value (middle + 1) high
    else search table value low middle
  else .error low
termination_by high - low

/-- The line of an offset, counting from zero. An offset that no line starts at is in the line before the place at
    which it is missing. -/
def lineAt (starts : Array Nat) (offset : Nat) : Nat :=
  match search starts offset 0 starts.size with
  | .ok line => line
  | .error next => next - 1

end StackLattice.Text

namespace StackLattice

structure Position where
  file : Option String
  line : Nat
  column : Nat
deriving DecidableEq, Repr

namespace Position

/-- `file:line:column`, without the file when there is none. -/
def render (p : Position) : String :=
  let place := toString p.line ++ ":" ++ toString p.column
  match p.file with
  | some file => file ++ ":" ++ place
  | none => place

end Position

/-- The text of one file and the path it is reported under. -/
structure SourceText where
  path : String
  text : String
deriving DecidableEq, Repr

namespace SourceText

/-- Line and column of the character at a byte offset. One inside a character has no column of its own and takes the
    first of its line; one past the end is the end. -/
def lineColumn (s : SourceText) (offset : Nat) : Nat × Nat :=
  let text := s.text.toList
  let offset := min offset (Text.byteLength text)
  let starts := Text.lineStarts text
  let line := Text.lineAt starts offset
  let before := (Text.sliceBytes (starts.getD line 0) offset text).getD []
  (line + 1, before.length + 1)

def position (s : SourceText) (span : Span) : Position :=
  let (line, column) := s.lineColumn span.start
  ⟨some s.path, line, column⟩

end SourceText

end StackLattice
