import StackLattice.Proofs.Syntax.Grammar

/-!
Steps of reading tokens: what each of them does to the cursor, and how a reading is taken apart. What is read by offsets
or positions is read by programs, which are taken apart in the same way.
-/

namespace StackLattice.Syntax

namespace Cursor

/-- The cursor with tokens in front of those that are left. -/
def prepend (ts : List Token) (c : Cursor) : Cursor := { c with rest := ts ++ c.rest }

theorem prepend_nil (c : Cursor) : c.prepend [] = c := rfl

theorem prepend_append (ts us : List Token) (c : Cursor) : c.prepend (ts ++ us) = (c.prepend us).prepend ts := by
  simp only [prepend, List.append_assoc]

theorem prepend_cons (t : Token) (ts : List Token) (c : Cursor) :
    c.prepend (t :: ts) = (c.prepend ts).prepend [t] := rfl

theorem current_prepend (t : Token) (ts : List Token) (c : Cursor) : (c.prepend (t :: ts)).current = t := rfl

theorem advance_prepend (t : Token) (ts : List Token) (c : Cursor) :
    (c.prepend (t :: ts)).advance = c.prepend ts := rfl

/-- A token that is not the end of the text is the first of those that are left. -/
theorem eq_prepend_current {c : Cursor} (eof : c.finish.kind = .eof) (more : c.current.kind ≠ .eof) :
    c = c.advance.prepend [c.current] := by
  obtain ⟨rest, finish⟩ := c
  cases rest with
  | nil => exact absurd eof more
  | cons t rest => rfl

end Cursor

namespace Parse

variable {α β : Type} {c c' : Cursor}

theorem bind_eq_ok {p : Parse α} {k : α → Parse β} {b : β} (h : (p >>= k) c = .ok (b, c')) :
    ∃ a c₁, p c = .ok (a, c₁) ∧ k a c₁ = .ok (b, c') := by
  change (p c >>= fun r => k r.1 r.2) = .ok (b, c') at h
  cases first : p c with
  | error e =>
    rw [first] at h
    cases h
  | ok r =>
    rw [first] at h
    exact ⟨r.1, r.2, rfl, h⟩

theorem bind_of_ok {p : Parse α} {k : α → Parse β} {a : α} {d : Cursor} (h : p c = .ok (a, d)) :
    (p >>= k) c = k a d := by
  change (p c >>= fun r => k r.1 r.2) = _
  rw [h]
  rfl

theorem bind_of_error {p : Parse α} {k : α → Parse β} {e : Located} (h : p c = .error e) :
    (p >>= k) c = .error e := by
  change (p c >>= fun r => k r.1 r.2) = _
  rw [h]
  rfl

theorem current_bind (k : Token → Parse β) : (current >>= k) c = k c.current c := rfl

theorem check_bind (kind : TokenKind) (k : Bool → Parse β) :
    (check kind >>= k) c = k (c.current.kind == kind) c := rfl

theorem advance_bind (k : Unit → Parse β) : (advance >>= k) c = k () c.advance := rfl

theorem get_bind (k : Cursor → Parse β) : (get >>= k) c = k c c := rfl

theorem skipCommas_bind (k : Unit → Parse β) :
    (skipCommas >>= k) c = k () { c with rest := c.rest.dropWhile (·.kind.isComma) } := rfl

end Parse

/-- The level that a reading with a number of levels to use descends to. -/
def Level.below (revision : Revision) : Nat → Option Level
  | 0 => none
  | n + 1 => some (.ofHeight revision n)

theorem Level.ofHeight_eq (revision : Revision) (n : Nat) :
    Level.ofHeight revision n = .above revision (below revision n) := by
  cases n <;> rfl

/-- A program over a state, which it leaves as it was reached at a fault. It has no outcome where something is looked up
    that is not there, or where a loop has no turns left. -/
abbrev Program (σ α : Type) := ExceptT Located (StateT σ Option) α

namespace Program

variable {σ α β : Type} {p : Program σ α} {k : α → Program σ β} {a : α} {e : Located} {s s' : σ}

/-- What comes of a loop with no turns left. -/
def spent : Program σ α := fun _ => none

theorem bind_of_ok (h : p s = some (.ok a, s')) : (p >>= k) s = k a s' := by
  change ((p s).bind fun r => ExceptT.bindCont k r.1 r.2) = _
  rw [h]
  rfl

theorem bind_of_error (h : p s = some (.error e, s')) : (p >>= k) s = some (.error e, s') := by
  change ((p s).bind fun r => ExceptT.bindCont k r.1 r.2) = _
  rw [h]
  rfl

theorem bind_congr {p' : Program σ α} (same : p s = p' s) : (p >>= k) s = (p' >>= k) s := by
  change (p s).bind _ = (p' s).bind _
  rw [same]

theorem get_bind {k : σ → Program σ β} : (get >>= k) s = k s s := rfl

theorem set_bind {k : PUnit → Program σ β} : (set s' >>= k) s = k () s' := rfl

theorem modify_bind {f : σ → σ} {k : PUnit → Program σ β} : (modify f >>= k) s = k () (f s) := rfl

end Program

end StackLattice.Syntax
