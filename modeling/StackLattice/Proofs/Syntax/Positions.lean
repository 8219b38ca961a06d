import Mathlib.Logic.Function.Iterate
import StackLattice.Proofs.Syntax.Reported
import StackLattice.Proofs.Text.Lines

/-!
Positions in a text. Boundaries between characters have their line and column, in the order that they stand in, and
whatever is reported of a text stands at one of them.
-/

namespace StackLattice

open Text (Boundary byteLength)
open Text.Input (Reaches)

/-- The place in front of some character of a text or behind the last, in the way people count. -/
def SourceText.Shows (s : SourceText) (p : Position) : Prop :=
  ∃ before after, s.text.toList = before ++ after ∧
    p = ⟨some s.path, 1 + before.count '\n', 1 + (Text.lastLine before).length⟩

/-- Of two boundaries the earlier one has a part of what stands before the later one before it. -/
theorem Text.Boundary.split {text : List Char} {o o' : Nat} (earlier : Boundary text o) (later : Boundary text o')
    (less : o < o') :
    ∃ before between after, text = before ++ between ++ after ∧ between ≠ [] ∧ byteLength before = o ∧
      byteLength (before ++ between) = o' := by
  obtain ⟨before, rest, whole, rfl⟩ := earlier
  obtain ⟨before', after, whole', rfl⟩ := later
  rcases List.append_eq_append_iff.mp (whole.symm.trans whole') with ⟨between, rfl, rfl⟩ | ⟨between, rfl, rfl⟩
  · refine ⟨before, between, after, whole', ?_, rfl, rfl⟩
    rintro rfl
    rw [List.append_nil] at less
    exact absurd less (Nat.lt_irrefl _)
  · rw [Text.byteLength_append] at less
    omega

namespace SourceText

variable {s : SourceText}

theorem lineColumn_lt_of_boundaries {o o' : Nat} (earlier : Boundary s.text.toList o)
    (later : Boundary s.text.toList o') (less : o < o') :
    Prod.Lex (· < ·) (· < ·) (s.lineColumn o) (s.lineColumn o') := by
  obtain ⟨before, between, after, whole, some, rfl, rfl⟩ := earlier.split later less
  exact s.lineColumn_lt whole some

theorem shows_of_boundary {e : Syntax.Located} (boundary : Boundary s.text.toList e.span.start) :
    s.Shows (e.within s).position := by
  obtain ⟨before, after, whole, start⟩ := boundary
  refine ⟨before, after, whole, ?_⟩
  show s.position e.span = _
  rw [position, ← start, s.lineColumn_of_boundary whole]

end SourceText

namespace Syntax

theorem Scanner.reaches_iterate (s : Scanner) (n : Nat) :
    Reaches s.input ((fun t : Scanner => t.next.2)^[n] s).input := by
  induction n with
  | zero => exact .refl _
  | succ n ih =>
    rw [Function.iterate_succ_apply']
    exact ih.trans (Scanner.reaches_next _)

/-- A text that is refused is refused at a boundary. -/
theorem File.boundary_of_ofSource {source : SourceText} {revision : Revision} {keepComments : Bool} {e : SyntaxError}
    (refused : File.ofSource source revision keepComments = .error e) :
    ∃ located, e = Located.within located source ∧ Boundary source.text.toList located.span.start := by
  obtain ⟨located, rfl, found | ⟨tokens, scanner, scanned, token, member, span, _⟩⟩ := File.located_of_ofSource refused
  · exact ⟨located, rfl, found.boundary (.refl _)⟩
  · refine ⟨located, rfl, ?_⟩
    rw [span]
    exact ((Scanner.run_of_tokens scanned).aligned (.refl _) token member).1

/-- Boundaries of a text have their own line and column, and what a scanner refuses, whatever it has refused before,
    stands at one of them, as does what the parser refuses. -/
theorem positions_at_boundaries (source : SourceText) :
    (∀ before after, source.text.toList = before ++ after →
      source.lineColumn (byteLength before) =
        (1 + before.count '\n', 1 + (Text.lastLine before).length)) ∧
    (∀ o o', Boundary source.text.toList o → Boundary source.text.toList o' → o < o' →
      Prod.Lex (· < ·) (· < ·) (source.lineColumn o) (source.lineColumn o')) ∧
    (∀ o, byteLength source.text.toList ≤ o →
      source.lineColumn o = source.lineColumn (byteLength source.text.toList)) ∧
    (∀ keepComments n e, ((fun s : Scanner => s.next.2)^[n] (.ofString source.text keepComments)).next.1 = .error e →
      source.Shows (e.within source).position) ∧
    (∀ revision keepComments e, File.ofSource source revision keepComments = .error e →
      source.Shows e.position) := by
  refine ⟨fun _ _ split => source.lineColumn_of_boundary split,
    fun _ _ => SourceText.lineColumn_lt_of_boundaries, fun _ => source.lineColumn_past_end, ?_, ?_⟩
  · intro keepComments n e refused
    have passed := (Scanner.ofString source.text keepComments).reaches_iterate n
    exact SourceText.shows_of_boundary ((Scanner.next_found refused).boundary passed)
  · intro revision keepComments e refused
    obtain ⟨located, rfl, boundary⟩ := File.boundary_of_ofSource refused
    exact SourceText.shows_of_boundary boundary

/-- An escape that is not known, in a line that loses its indentation, behind characters of several bytes. -/
example : (File.ofSource ⟨"a.cue", "é: \"\"\"\n  ü \\q\n  \"\"\"\n"⟩ .current true).map (fun _ => ()) =
    .error ⟨.unknownEscape 'q', ⟨some "a.cue", 2, 5⟩⟩ := by
  decide +kernel

end Syntax

end StackLattice
