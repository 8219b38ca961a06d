import StackLattice.Text.Input

/-!
Spans of source text: half-open ranges of byte offsets.
-/

namespace StackLattice

structure Span where
  start : Nat
  stop : Nat
deriving DecidableEq, Repr, Inhabited

namespace Span

def single (offset : Nat) : Span := ⟨offset, offset + 1⟩

def point (offset : Nat) : Span := ⟨offset, offset⟩

def length (s : Span) : Nat := s.stop - s.start

def isEmpty (s : Span) : Bool := s.stop ≤ s.start

def merge (s t : Span) : Span := ⟨min s.start t.start, max s.stop t.stop⟩

/-- The text of a span; nothing when an end falls outside the text or inside a character. -/
def slice (s : Span) (text : String) : String :=
  String.ofList ((Text.sliceBytes s.start s.stop text.toList).getD [])

def render (s : Span) : String := toString s.start ++ ".." ++ toString s.stop

end Span

end StackLattice
