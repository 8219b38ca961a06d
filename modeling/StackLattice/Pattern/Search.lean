import StackLattice.Pattern.Basic

/-!
Searching a text for a pattern. A pattern leads from a set of places in the text to the set of places
where its matches end.
-/

namespace StackLattice.Pattern

/-- Places of a text, each once. -/
abbrev Places := List Nat

def Places.union (ps qs : Places) : Places := ps ++ qs.filter fun q => !ps.contains q

/-- Where `n` steps in a row lead. -/
def advance (step : Places → Places) : Nat → Places → Places
  | 0, ps => ps
  | n + 1, ps => if ps.isEmpty then ps else advance step n (step ps)

/-- Where at most `n` steps in a row lead, from places that are all counted already. -/
def reach (step : Places → Places) : Nat → Places → Places → Places
  | 0, found, _ => found
  | n + 1, found, ps =>
    let new := (step ps).filter fun q => !found.contains q
    if new.isEmpty then found else reach step n (found ++ new) new

variable (text : Array Char)

def after? (place : Nat) : Option Char := text[place]?

def before? (place : Nat) : Option Char := if place = 0 then none else text[place - 1]?

/-- More repetitions than places lead nowhere new. -/
def bounded (n : Nat) : Nat := min n (text.size + 1)

mutual

/-- Where the matches end that start at one of the places. -/
def ends : Pattern → Places → Places
  | empty, ps => ps
  | set s, ps => (ps.filter fun p => (after? text p).any s.has).map (· + 1)
  | assertion a, ps => ps.filter fun p => a.holds (before? text p) (after? text p)
  | group inner, ps => ends inner ps
  | sequence inners, ps => endsOfSequence inners ps
  | choice inners, ps => endsOfChoice inners ps
  | times least most inner, ps =>
    let start := advance (ends inner) (bounded text least) ps
    let more := match most with
      | none => text.size + 1
      | some most => bounded text (most - least)
    reach (ends inner) more start start

def endsOfSequence : List Pattern → Places → Places
  | [], ps => ps
  | inner :: inners, ps => endsOfSequence inners (ends inner ps)

def endsOfChoice : List Pattern → Places → Places
  | [], _ => []
  | inner :: inners, ps => Places.union (ends inner ps) (endsOfChoice inners ps)

end

end Pattern

def Pattern.isIn (p : Pattern) (text : String) : Bool :=
  let text := text.toList.toArray
  !(p.ends text (List.range (text.size + 1))).isEmpty

end StackLattice
