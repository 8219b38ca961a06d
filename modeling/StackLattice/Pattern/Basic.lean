import StackLattice.Text.CaseOrbit
import StackLattice.Text.NamedSet

/-!
Patterns: the sets, assertions and operators that a text is searched with.
-/

namespace StackLattice.Pattern

open Text (isWord)

structure CharSet where
  has : Char → Bool
  /-- Roughly how many states a machine needs that reads one of them byte by byte. -/
  states : Nat

namespace CharSet

def empty : CharSet := ⟨fun _ => false, 1⟩

def single (c : Char) : CharSet := ⟨(· == c), c.utf8Size⟩

def range (first last : Char) : CharSet :=
  ⟨fun c => first ≤ c && c ≤ last, if last.toNat < 0x80 then 1 else 2 * last.utf8Size⟩

/-- A set with members all over the code points: the more runs of them, the more states. -/
def ofProperty (states : Nat) (has : Char → Bool) : CharSet := ⟨has, states⟩

def union (s t : CharSet) : CharSet := ⟨fun c => s.has c || t.has c, s.states + t.states⟩

def complement (s : CharSet) : CharSet := ⟨fun c => !s.has c, s.states + 30⟩

/-- All characters that differ in case only from one of the set. -/
def fold (s : CharSet) : CharSet := ⟨fun c => (Text.caseOrbit c).any s.has, s.states⟩

/-- The same with the case of ASCII letters alone. -/
def foldAscii (s : CharSet) : CharSet :=
  ⟨fun c => s.has c || s.has c.toLower || s.has c.toUpper, s.states⟩

/-- Whether no character outside ASCII but of one byte is in the set. -/
def isAscii (s : CharSet) : Bool := (List.range 0x80).all fun n => !s.has (Char.ofNat (0x80 + n))

end CharSet

/-- Where a place stands relative to the words of a text. -/
inductive WordPlace
  | edge
  | noEdge
  | start
  | finish
  /-- No word character is before it. -/
  | startHalf
  /-- No word character is behind it. -/
  | finishHalf
deriving DecidableEq, Repr

def WordPlace.holds (before after : Bool) : WordPlace → Bool
  | edge => before != after
  | noEdge => before == after
  | start => !before && after
  | finish => before && !after
  | startHalf => !before
  | finishHalf => !after

inductive Assertion
  | textStart
  | textEnd
  /-- Lines end in `\n`, or also in `\r`. -/
  | lineStart (returns : Bool)
  | lineEnd (returns : Bool)
  | word (place : WordPlace) (ascii : Bool)
deriving DecidableEq, Repr

def isAsciiWord (c : Char) : Bool := c.toNat < 0x80 && isWord c

/-- Whether an assertion holds between two characters. -/
def Assertion.holds (before after : Option Char) : Assertion → Bool
  | textStart => before.isNone
  | textEnd => after.isNone
  | lineStart false => before.isNone || before == some '\n'
  | lineStart true =>
    before.isNone || before == some '\n' || (before == some '\r' && after != some '\n')
  | lineEnd false => after.isNone || after == some '\n'
  | lineEnd true =>
    after.isNone || after == some '\r' || (after == some '\n' && before != some '\r')
  | word place ascii =>
    let isWord := if ascii then isAsciiWord else isWord
    place.holds (before.any isWord) (after.any isWord)

end Pattern

open Pattern in
inductive Pattern
  | empty
  | set (s : CharSet)
  | assertion (a : Assertion)
  | group (p : Pattern)
  | sequence (ps : List Pattern)
  | choice (ps : List Pattern)
  /-- At least `least` times, and at most `most` times unless there is no bound. -/
  | times (least : Nat) (most : Option Nat) (p : Pattern)

namespace Pattern

mutual

def depth : Pattern → Nat
  | empty | set _ | assertion _ => 0
  | group p | times _ _ p => p.depth + 1
  | sequence ps | choice ps => depthOfAll ps + 1

def depthOfAll : List Pattern → Nat
  | [] => 0
  | p :: ps => max p.depth (depthOfAll ps)

end

mutual

/-- Roughly the states of a machine that searches for a pattern. -/
def states : Pattern → Nat
  | empty | assertion _ => 1
  | set s => s.states
  | group p => p.states + 2
  | sequence ps => statesOfAll ps
  | choice ps => statesOfAll ps + 2
  | times least none p => max 1 least * p.states + 2
  | times least (some most) p => least * p.states + (most - least) * (p.states + 1) + 1

def statesOfAll : List Pattern → Nat
  | [] => 0
  | p :: ps => p.states + statesOfAll ps

end

mutual

/-- Whether some assertion of a pattern satisfies `test`. -/
def hasAssertion (test : Assertion → Bool) : Pattern → Bool
  | empty | set _ => false
  | assertion a => test a
  | group p | times _ _ p => p.hasAssertion test
  | sequence ps | choice ps => someHasAssertion test ps

def someHasAssertion (test : Assertion → Bool) : List Pattern → Bool
  | [] => false
  | p :: ps => p.hasAssertion test || someHasAssertion test ps

end

end Pattern

end StackLattice
