import StackLattice.Decimal.Read
import StackLattice.Syntax.Fault

/-!
Escapes inside string literals. `escape` reads what follows a backslash; a literal on one line and
the lines of a literal over several lines share it.
-/

namespace StackLattice.Syntax

def plainEscape : Char → Option Char
  | 'n' => some '\n'
  | 't' => some '\t'
  | 'r' => some '\r'
  | '\\' => some '\\'
  | '"' => some '"'
  | '/' => some '/'
  | _ => none

/-- The character named by four characters in base sixteen. The first of them may be a plus sign. -/
def codeUnit (hex : List Char) : Option Char := do
  let n ← Decimal.naturalBelow 16 0x110000 hex
  if Nat.isValidChar n then return Char.ofNat n else none

/-- The character an escape stands for and how many characters after the backslash it takes. -/
def escape : List Char → Except Fault (Char × Nat)
  | [] => .error .unterminatedEscape
  | 'u' :: rest =>
    if rest.length < 4 then .error .badUnicodeEscape
    else
      match codeUnit (rest.take 4) with
      | some c => .ok (c, 5)
      | none => .error .badUnicodeEscape
  | '(' :: _ => .error .interpolation
  | c :: _ =>
    match plainEscape c with
    | some value => .ok (value, 1)
    | none => .error (.unknownEscape c)

/-- Whether the fourth byte of a text falls inside a character. -/
def splitsFourthByte : Nat → List Char → Bool
  | 0, _ => false
  | _ + 1, [] => false
  | n + 1, c :: cs => n + 1 < c.utf8Size || splitsFourthByte (n + 1 - c.utf8Size) cs

/-- An escape in a literal on one line, whose code units are four bytes of text: when these end
    inside a character, nothing follows the backslash. -/
def lineEscape (cs : List Char) : Except Fault (Char × Nat) :=
  match escape cs with
  | .error .badUnicodeEscape =>
    if splitsFourthByte 4 cs.tail then .error .unterminatedEscape else .error .badUnicodeEscape
  | result => result

theorem escape_takes_some {cs : List Char} {c : Char} {n : Nat} (h : escape cs = .ok (c, n)) :
    0 < n := by
  unfold escape at h
  split at h
  · cases h
  · split at h
    · cases h
    · split at h <;> cases h; omega
  · cases h
  · split at h <;> cases h; omega

/-- The text of one line of a literal over several lines. Faults are reported at the backslash;
    `offset` is where the line starts. -/
def unescape (offset : Nat) (cs : List Char) : Except Located (List Char) :=
  match cs with
  | [] => .ok []
  | '\\' :: rest =>
    match escape rest with
    | .error fault => .error ⟨fault, .single offset⟩
    | .ok (c, taken) => do
      let tail ← unescape (offset + 1 + Text.byteLength (rest.take taken)) (rest.drop taken)
      return c :: tail
  | c :: rest => do
    let tail ← unescape (offset + c.utf8Size) rest
    return c :: tail
termination_by cs.length
decreasing_by all_goals (simp only [List.length_cons, List.length_drop]; omega)

end StackLattice.Syntax
