import StackLattice.Decimal.Read

/-!
Strings of TOML, with escapes or without, on one line or on several. Readers take the text from behind the
opening quotes, and give what is left behind the closing ones.
-/

namespace StackLattice.Toml

/-- Characters that stand for themselves on a line. -/
def isPlain (c : Char) : Bool := c == '\t' || (0x20 ≤ c.toNat && c.toNat != 0x7F)

def isSpace (c : Char) : Bool := c == ' ' || c == '\t'

def lineEnd? : List Char → Option (List Char)
  | '\n' :: rest => some rest
  | '\r' :: '\n' :: rest => some rest
  | _ => none

section Escapes

/-- The character of `n` digits in base sixteen. -/
def codePoint (n : Nat) (cs : List Char) : Option (Char × List Char) :=
  if cs.length < n then none
  else
    match Decimal.natural 16 (cs.take n) with
    | none => none
    | some value =>
      if Nat.isValidChar value then some (Char.ofNat value, cs.drop n) else none

def plainEscape : Char → Option Char
  | '"' => some '"'
  | '\\' => some '\\'
  | 'b' => some '\x08'
  | 'f' => some '\x0c'
  | 'n' => some '\n'
  | 'r' => some '\r'
  | 't' => some '\t'
  | _ => none

def escape : List Char → Option (Char × List Char)
  | 'u' :: rest => codePoint 4 rest
  | 'U' :: rest => codePoint 8 rest
  | c :: rest => (plainEscape c).map fun c => (c, rest)
  | [] => none

theorem codePoint_rest {n : Nat} {cs rest : List Char} {c : Char}
    (h : codePoint n cs = some (c, rest)) : rest.length ≤ cs.length := by
  unfold codePoint at h
  split at h
  · simp at h
  · split at h
    · simp at h
    · split at h
      · simp only [Option.some.injEq, Prod.mk.injEq] at h
        simp [← h.2]
      · simp at h

theorem escape_rest {cs rest : List Char} {c : Char} (h : escape cs = some (c, rest)) :
    rest.length < cs.length := by
  unfold escape at h
  split at h
  · exact Nat.lt_succ_of_le (codePoint_rest h)
  · exact Nat.lt_succ_of_le (codePoint_rest h)
  · simp only [Option.map_eq_some_iff, Prod.mk.injEq] at h
    obtain ⟨_, _, _, rfl⟩ := h
    simp
  · simp at h

end Escapes

def basicChars (cs : List Char) : Option (List Char × List Char) :=
  match cs with
  | [] => none
  | '"' :: rest => some ([], rest)
  | '\\' :: rest =>
    match _h : escape rest with
    | none => none
    | some (c, rest') => (basicChars rest').map fun (s, left) => (c :: s, left)
  | c :: rest =>
    if isPlain c then (basicChars rest).map fun (s, left) => (c :: s, left) else none
termination_by cs.length
decreasing_by
  · have := escape_rest _h
    simp only [List.length_cons]
    omega
  · simp

def basic (cs : List Char) : Option (String × List Char) :=
  (basicChars cs).map fun (s, rest) => (String.ofList s, rest)

def bare (cs : List Char) : Option (String × List Char) :=
  match cs.span fun c => c ≠ '\'' && isPlain c with
  | (s, '\'' :: rest) => some (String.ofList s, rest)
  | _ => none

section SeveralLines

/-- Blanks and ends of lines. -/
def skipLines : List Char → List Char
  | '\n' :: rest => skipLines rest
  | '\r' :: '\n' :: rest => skipLines rest
  | c :: rest => if isSpace c then skipLines rest else c :: rest
  | [] => []

/-- What is left when a backslash ends its line, from behind the backslash: the next text. -/
def joined? (cs : List Char) : Option (List Char) := (lineEnd? (cs.dropWhile isSpace)).map skipLines

/-- The characters of a string on several lines. Of five quotes the last three end it; shorter runs belong
    to it. Lines end in `\n`, however they are written. The number bounds the characters. -/
def longChars (quote : Char) (escapes : Bool) : Nat → List Char → Option (List Char × List Char)
  | 0, _ => none
  | n + 1, cs =>
    let more (before : List Char) (rest : List Char) :=
      (longChars quote escapes n rest).map fun (s, left) => (before ++ s, left)
    let run := cs.takeWhile (· = quote)
    if 3 ≤ run.length then
      let closing := min run.length 5
      some (List.replicate (closing - 3) quote, cs.drop closing)
    else
      match lineEnd? cs with
      | some rest => more ['\n'] rest
      | none =>
        match cs with
        | [] => none
        | c :: rest =>
          if escapes && c == '\\' then
            match joined? rest with
            | some rest => more [] rest
            | none =>
              match escape rest with
              | some (c, rest) => more [c] rest
              | none => none
          else if isPlain c then more [c] rest
          else none

/-- A string on several lines; a line end right behind the quotes does not belong to it. -/
def long (quote : Char) (cs : List Char) : Option (String × List Char) :=
  let cs := (lineEnd? cs).getD cs
  (longChars quote (quote == '"') (cs.length + 1) cs).map fun (s, rest) => (String.ofList s, rest)

end SeveralLines

def string? : List Char → Option (String × List Char)
  | '"' :: '"' :: '"' :: rest => long '"' rest
  | '\'' :: '\'' :: '\'' :: rest => long '\'' rest
  | '"' :: rest => basic rest
  | '\'' :: rest => bare rest
  | _ => none

end StackLattice.Toml
