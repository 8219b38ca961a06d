import StackLattice.Proofs.Decimal.Digits
import StackLattice.Proofs.Syntax.Found
import StackLattice.Proofs.Syntax.Steps

/-!
Reading by offsets. Here a place in a text is the number of bytes before it. What stands there is seen in a slice of the
text, and places are found by adding lengths, by searching for a line break and by subtracting what is left of a line.
A slice that cuts a character or leaves the text has no outcome, nor has a loop that takes more turns than the text has
characters and one. Whatever is read, also up to a fault, it is read as from the characters that are left, and all
slices are slices.
-/

namespace StackLattice.Syntax.Sliced

open Text (Input isBlank isAsciiDigit isAlphabetic byteLength splitBytes sliceBytes)
open Text.Input (Passes Reaches)
open Program

/-- A reading that knows its place by an offset. -/
abbrev Reading := Program Nat

/-- What a slice is, where it is one. -/
def taken {α : Type} (slice : Option α) : Reading α := fun offset => slice.map fun a => (.ok a, offset)

section Definitions

variable (text : List Char)

/-- The text from an offset on. -/
def behind (offset : Nat) : Option (List Char) := (splitBytes offset text).map (·.2)

def current : Reading (Option Char) := return (← taken (behind text (← get))).head?

/-- The character behind the current one. -/
def following : Reading (Option Char) := do
  match ← current text with
  | none => return none
  | some c => return (← taken (behind text ((← get) + c.utf8Size))).head?

def advance : Reading Unit := do
  match ← current text with
  | none => return
  | some c => modify (· + c.utf8Size)

/-- The turns that a loop may take. -/
def turns : Nat := text.length + 1

def skipWhileUpTo (p : Char → Bool) : Nat → Reading Unit
  | 0 => spent
  | n + 1 => do
    match ← current text with
    | none => return
    | some c =>
      if p c then
        advance text
        skipWhileUpTo p n
      else return

def skipWhile (p : Char → Bool) : Reading Unit := skipWhileUpTo text p (turns text)

/-- The end of the line that a place is in. -/
def lineEnd (offset : Nat) : Reading Nat := do
  let rest ← taken (behind text offset)
  return if '\n' ∈ rest then offset + byteLength (rest.takeWhile (· ≠ '\n')) else byteLength text

/-- How many bytes behind a backslash may belong to the escape, given the character there. -/
def windowLength : Option Char → Nat
  | some 'u' => 5
  | some c => c.utf8Size
  | none => 0

/-- The escape at a backslash. A code unit is looked for in five bytes behind it, or what there is of them. -/
def escaped : Reading Char := do
  let start ← get
  advance text
  let length := windowLength (← current text)
  let stop := min ((← get) + length) (byteLength text)
  let out ← MonadExcept.ofExcept (unescape start ((sliceBytes start stop text).getD ['\\']))
  set stop
  match out with
  | c :: _ => return c
  | [] => throw ⟨.unterminatedEscape, .single start⟩

/-- The rest of a literal on one line. `start` is the offset of its opening quote. -/
def literalBody (start : Nat) : Nat → Reading (List Char)
  | 0 => spent
  | n + 1 => do
    match ← current text with
    | none => throw ⟨.unterminatedString, .single start⟩
    | some c =>
      if c = '\n' then throw ⟨.unterminatedString, .single start⟩
      else if c = '"' then
        advance text
        return []
      else if c = '\\' then
        let value ← escaped text
        return value :: (← literalBody start n)
      else
        advance text
        return c :: (← literalBody start n)

def literal : Reading (List Char) := do
  let start ← get
  advance text
  literalBody text start (turns text)

/-- The lines of a literal over several lines, behind those already seen. -/
def blockBody (start : Nat) (lines : List Line) : Nat → Reading (List Char)
  | 0 => spent
  | n + 1 => do
    let lineStart ← get
    if byteLength text ≤ lineStart then throw ⟨.unterminatedString, ⟨start, start + 3⟩⟩
    else
      let lineStop ← lineEnd text lineStart
      let line ← taken (sliceBytes lineStart lineStop text)
      let trimmed := line.dropWhile isBlank
      if quotes.isPrefixOf trimmed then
        let (indent, _) ← taken (splitBytes (byteLength line - byteLength trimmed) line)
        set (lineStop - byteLength (trimmed.drop 3))
        let texts ← MonadExcept.ofExcept (lines.mapM (Line.dedent indent))
        return ['\n'].intercalate texts
      else
        set (min (lineStop + 1) (byteLength text))
        blockBody start (lines ++ [⟨lineStart, line⟩]) n

def block : Reading (List Char) := do
  let start ← get
  set (start + 3)
  skipWhile text fun c => isBlank c && c != '\n'
  if (← current text) = some '\n' then
    advance text
    blockBody text start [] (turns text)
  else throw ⟨.textAfterQuotes, ⟨start, ← get⟩⟩

/-- Whether a point with a digit behind it follows; it is passed over with its digits. -/
def point : Reading Bool := do
  if (← current text) = some '.' then
    if (← following text).any isAsciiDigit then
      advance text
      skipWhile text isNumberChar
      return true
    else return false
  else return false

def sign : Reading Unit := do
  let c ← current text
  if c = some '+' ∨ c = some '-' then advance text
  else return

/-- Whether an exponent follows. A mark that no digit follows is not passed over. -/
def exponent : Reading Bool := do
  let mark ← current text
  if mark = some 'e' ∨ mark = some 'E' then
    let save ← get
    advance text
    sign text
    if (← current text).any isAsciiDigit then
      skipWhile text isNumberChar
      return true
    else
      set save
      return false
  else return false

def number : Reading TokenKind := do
  let start ← get
  skipWhile text isNumberChar
  let hasPoint ← point text
  let hasExponent ← exponent text
  let span : Span := ⟨start, ← get⟩
  let digits := ((sliceBytes span.start span.stop text).getD []).filter (· ≠ '_')
  if hasPoint || hasExponent then
    match (Decimal.readFloat digits).filter (·.isFinite) with
    | some x => return .float x
    | none => throw ⟨.floatRange, span⟩
  else
    match Decimal.naturalBelow 10 (1 <<< 63) digits with
    | some n => return .int n
    | none => throw ⟨.integerRange, span⟩

/-- The rest of a name that starts at an offset. -/
def nameFrom (start : Nat) : Reading TokenKind := do
  skipWhile text isNameChar
  return nameToken (String.ofList (← taken (sliceBytes start (← get) text)))

def name : Reading TokenKind := do
  let start ← get
  if (← current text) = some '#' then
    advance text
    if (← current text).any fun c => isAlphabetic c || c == '_' then nameFrom text start
    else throw ⟨.bareHash, .single start⟩
  else nameFrom text start

/-- The tokens of one character that start no other token. -/
def punctuation : Char → Option TokenKind
  | '{' => some .leftBrace
  | '}' => some .rightBrace
  | '[' => some .leftBracket
  | ']' => some .rightBracket
  | '(' => some .leftParen
  | ')' => some .rightParen
  | ',' => some (.comma false)
  | '&' => some .ampersand
  | '|' => some .pipe
  | '*' => some .star
  | '-' => some .minus
  | '?' => some .question
  | _ => none

def single (kind : TokenKind) : Reading TokenKind := do
  advance text
  return kind

/-- The token that starts with a character. -/
def tokenAt (c : Char) : Reading TokenKind := do
  let start ← get
  match punctuation c with
  | some kind => single text kind
  | none =>
    if c = ':' then
      if (← following text) = some ':' then
        advance text
        advance text
        return .doubleColon
      else single text .colon
    else if c = '.' then
      if ['.', '.', '.'].isPrefixOf (← taken (behind text start)) then
        set (start + 3)
        return .ellipsis
      else single text .dot
    else if c = '"' then
      if quotes.isPrefixOf (← taken (behind text start)) then
        return .string (String.ofList (← block text))
      else return .string (String.ofList (← literal text))
    else if isAsciiDigit c then number text
    else if isAlphabetic c || c == '_' || c == '$' || c == '#' then name text
    else throw ⟨.unexpectedCharacter c, .single start⟩

end Definitions

section Steps

variable {α β : Type} {k : α → Reading β} {a : α} {o : Nat}

theorem taken_bind {slice : Option α} (h : slice = some a) : (taken slice >>= k) o = k a o := by
  subst h
  rfl

theorem taken_of_some {slice : Option α} (h : slice = some a) : taken slice o = some (.ok a, o) := by
  subst h
  rfl

end Steps

section Places

variable {text : List Char} {i j : Input} {β : Type}

theorem behind_at (within : Reaches ⟨text, 0⟩ i) : behind text i.offset = some i.rest := by
  obtain ⟨before, rfl, start⟩ := exists_before within
  rw [behind, start, Text.splitBytes_append]
  rfl

theorem slice_at (within : Reaches ⟨text, 0⟩ i) {cs : List Char} (passes : Passes cs i j) :
    sliceBytes i.offset j.offset text = some cs := by
  obtain ⟨before, rfl, start⟩ := exists_before within
  rw [passes.offset, start, passes.rest, ← List.append_assoc]
  exact Text.sliceBytes_append before cs j.rest

theorem current_at (within : Reaches ⟨text, 0⟩ i) : current text i.offset = some (.ok i.rest.head?, i.offset) := by
  rw [current, get_bind, taken_bind (behind_at within)]
  rfl

theorem following_at (within : Reaches ⟨text, 0⟩ i) :
    following text i.offset = some (.ok i.rest.tail.head?, i.offset) := by
  rw [following, bind_of_ok (current_at within)]
  cases here : i.rest with
  | nil => rfl
  | cons c cs =>
    have passed := Input.passes_skip here
    have next := behind_at (within.trans ⟨_, passed⟩)
    rw [passed.offset, Input.skip_rest, here] at next
    dsimp only [List.head?_cons]
    rw [get_bind, taken_bind (by simpa using next)]
    rfl

theorem advance_at (within : Reaches ⟨text, 0⟩ i) : advance text i.offset = some (.ok (), i.skip.offset) := by
  rw [advance, bind_of_ok (current_at within)]
  cases here : i.rest with
  | nil =>
    rw [Input.skip, here]
    rfl
  | cons c cs =>
    rw [Input.skip, here]
    rfl

/-- A loop may take more turns than there are characters left. -/
theorem length_rest_lt_turns (within : Reaches ⟨text, 0⟩ i) : i.rest.length < turns text := by
  obtain ⟨before, rfl, -⟩ := exists_before within
  rw [turns, List.length_append]
  omega

/-- A turn that takes characters leaves turns enough for the rest. -/
theorem length_lt_of_taken {c : Char} {cs : List Char} (here : i.rest = c :: cs) {m n : Nat}
    (enough : i.rest.length < n + 1) : (i.skipMany (m + 1)).rest.length < n :=
  (skipMany_length_lt (by simp [here]) m.succ_pos).trans_le (Nat.le_of_lt_succ enough)

theorem skipWhileUpTo_at (p : Char → Bool) {n : Nat} (within : Reaches ⟨text, 0⟩ i) (enough : i.rest.length < n) :
    skipWhileUpTo text p n i.offset = some (.ok (), (i.skipWhile p).offset) := by
  induction n generalizing i with
  | zero => cases enough
  | succ n ih =>
    rw [skipWhileUpTo, bind_of_ok (current_at within)]
    obtain ⟨_ | ⟨c, cs⟩, offset⟩ := i
    · rfl
    · have next := ih (within.trans (Input.reaches_skip ⟨c :: cs, offset⟩)) (Nat.lt_of_succ_lt_succ enough)
      dsimp only [List.head?_cons]
      split
      · rename_i passed
        rw [bind_of_ok (advance_at within)]
        simpa [Input.skip, Input.skipWhile, passed, Nat.add_assoc] using next
      · rename_i stopped
        simp [Input.skipWhile, stopped]
        rfl

theorem skipWhile_at (p : Char → Bool) (within : Reaches ⟨text, 0⟩ i) :
    skipWhile text p i.offset = some (.ok (), (i.skipWhile p).offset) :=
  skipWhileUpTo_at p within (length_rest_lt_turns within)

theorem lineEnd_at (within : Reaches ⟨text, 0⟩ i) :
    lineEnd text i.offset o = some (.ok (i.skipWhile (· ≠ '\n')).offset, o) := by
  have stop : (if '\n' ∈ i.rest then i.offset + byteLength (i.rest.takeWhile (· ≠ '\n')) else byteLength text) =
      (i.skipWhile (· ≠ '\n')).offset := by
    split
    · rfl
    · rename_i lineless
      have whole : i.rest.takeWhile (· ≠ '\n') = i.rest := by
        have others : ∀ c ∈ i.rest, decide (c ≠ '\n') = true := fun c member => by
          have other : c ≠ '\n' := fun same => lineless (same ▸ member)
          simpa using other
        rw [← List.append_nil i.rest, List.takeWhile_append_of_pos others]
        rfl
      obtain ⟨before, same, start⟩ := exists_before within
      rw [Input.skipWhile, whole, start, same, Text.byteLength_append]
  rw [lineEnd, taken_bind (behind_at within), stop]
  rfl

end Places

section Escapes

variable {text : List Char} {i : Input}

/-- The characters of a code unit take one byte each. -/
theorem utf8Size_of_codeUnit {hex : List Char} {c d : Char} (unit : codeUnit hex = some c) (member : d ∈ hex) :
    d.utf8Size = 1 := by
  unfold codeUnit at unit
  obtain ⟨n, read, -⟩ := Option.bind_eq_some_iff.mp unit
  have small : d.toNat < 128 := by
    rcases Decimal.sign_or_digit_of_naturalBelow read d member with rfl | digit
    · decide
    · obtain ⟨value, is⟩ := Option.isSome_iff_exists.mp digit
      exact Decimal.ascii_of_digitValue is
  rw [Char.utf8Size_eq_one_iff]
  exact UInt32.le_iff_toNat_le.mpr (Nat.le_of_lt_succ small)

/-- The bytes of a window, or of what there is of it, end inside a character, or they do not. -/
theorem splitBytes_min (n : Nat) (cs : List Char) :
    splitBytes (min n (byteLength cs)) cs = none ↔ splitsFourthByte n cs = true := by
  induction cs generalizing n with
  | nil => cases n <;> simp [splitBytes, splitsFourthByte]
  | cons c cs ih =>
    cases n with
    | zero => simp [splitBytes, splitsFourthByte]
    | succ n =>
      have size := c.utf8Size_pos
      obtain ⟨m, some⟩ : ∃ m, min (n + 1) (byteLength (c :: cs)) = m + 1 :=
        Nat.exists_eq_succ_of_ne_zero (by rw [Text.byteLength_cons]; omega)
      rw [some, splitBytes, splitsFourthByte, Bool.or_eq_true, decide_eq_true_eq, ← ih]
      rw [Text.byteLength_cons] at some
      split
      · rename_i fits
        have rest : m + 1 - c.utf8Size = min (n + 1 - c.utf8Size) (byteLength cs) := by omega
        have inside : ¬n + 1 < c.utf8Size := by omega
        rw [rest, Option.map_eq_none_iff]
        simp [inside]
      · rename_i cut
        simp only [true_iff]
        exact .inl (by omega)

theorem slice_from (within : Reaches ⟨text, 0⟩ i) (n : Nat) :
    sliceBytes i.offset (i.offset + n) text = (splitBytes n i.rest).map (·.1) := by
  obtain ⟨before, rfl, start⟩ := exists_before within
  have inside : ¬i.offset + n < i.offset := by omega
  rw [sliceBytes, start, Text.splitBytes_append, ← start]
  simp only [Option.bind_eq_bind, Option.bind_some, inside, if_false, Nat.add_sub_cancel_left]
  cases splitBytes n i.rest <;> rfl

theorem unescape_fault {offset : Nat} {rest : List Char} {fault : Fault} (h : escape rest = .error fault) :
    unescape offset ('\\' :: rest) = .error ⟨fault, .single offset⟩ := by
  rw [unescape, h]

theorem unescape_single {offset n : Nat} {rest : List Char} {c : Char} (h : escape rest = .ok (c, n))
    (short : rest.length ≤ n) : unescape offset ('\\' :: rest) = .ok [c] := by
  rw [unescape_escape h, List.drop_eq_nil_of_le short, unescape]
  rfl

/-- The end of the window for the escape at a place. -/
def windowEnd (text : List Char) (i : Input) : Nat :=
  min (i.skip.offset + windowLength i.rest.tail.head?) (byteLength text)

/-- What is read of an escape is what its window says. -/
theorem escaped_eq (within : Reaches ⟨text, 0⟩ i) :
    escaped text i.offset =
      match unescape i.offset ((sliceBytes i.offset (windowEnd text i) text).getD ['\\']) with
      | .error e => some (.error e, i.skip.offset)
      | .ok (c :: _) => some (.ok c, windowEnd text i)
      | .ok [] => some (.error ⟨.unterminatedEscape, .single i.offset⟩, windowEnd text i) := by
  rw [escaped, get_bind, bind_of_ok (advance_at within),
    bind_of_ok (current_at (within.trans (Input.reaches_skip i))), get_bind, Input.skip_rest]
  dsimp only [windowEnd]
  generalize unescape i.offset _ = read
  cases read with
  | error e => rfl
  | ok out => cases out <;> rfl

theorem escape_unit (cs : List Char) :
    escape ('u' :: cs) =
      if cs.length < 4 then .error .badUnicodeEscape
      else match codeUnit (cs.take 4) with
        | some c => .ok (c, 5)
        | none => .error .badUnicodeEscape := rfl

/-- Four digits of a code unit are a window of their own. -/
theorem splitBytes_of_codeUnit {cs : List Char} {c : Char} (long : 4 ≤ cs.length)
    (unit : codeUnit (cs.take 4) = some c) :
    byteLength (cs.take 4) = 4 ∧ splitBytes (min 4 (byteLength cs)) cs = some (cs.take 4, cs.drop 4) := by
  have size : byteLength (cs.take 4) = (cs.take 4).length := by
    have single : ∀ d ∈ cs.take 4, d.utf8Size = 1 := fun d member => utf8Size_of_codeUnit unit member
    generalize cs.take 4 = hex at single
    induction hex with
    | nil => rfl
    | cons d hex ih =>
      obtain ⟨first, others⟩ := List.forall_mem_cons.mp single
      rw [Text.byteLength_cons, first, ih others, List.length_cons, Nat.add_comm]
  rw [List.length_take, Nat.min_eq_left long] at size
  refine ⟨size, ?_⟩
  have whole : byteLength cs = 4 + byteLength (cs.drop 4) := by
    conv => lhs; rw [← List.take_append_drop 4 cs, Text.byteLength_append, size]
  have least : min 4 (byteLength cs) = byteLength (cs.take 4) := by omega
  conv => lhs; rw [least]; arg 2; rw [← List.take_append_drop 4 cs]
  exact Text.splitBytes_append _ _

/-- What a code unit's window says, which is no text where the window ends inside a character. -/
theorem unescape_window (offset : Nat) (cs : List Char) :
    unescape offset (((splitBytes (min 4 (byteLength cs)) cs).map fun (unit, _) => '\\' :: 'u' :: unit).getD ['\\']) =
      match lineEscape ('u' :: cs) with
      | .ok (c, _) => .ok [c]
      | .error fault => .error ⟨fault, .single offset⟩ := by
  by_cases unit : 4 ≤ cs.length ∧ (codeUnit (cs.take 4)).isSome
  · obtain ⟨long, is⟩ := unit
    obtain ⟨c, is⟩ := Option.isSome_iff_exists.mp is
    have stands : escape ('u' :: cs) = .ok (c, 5) := escape_eq_ok.mpr (.inl ⟨cs, rfl, rfl, long, is⟩)
    have four : (cs.take 4).length = 4 := by rw [List.length_take, Nat.min_eq_left long]
    have alone : escape ('u' :: cs.take 4) = .ok (c, 5) :=
      escape_eq_ok.mpr (.inl ⟨cs.take 4, rfl, rfl, Nat.le_of_eq four.symm, by rwa [List.take_take]⟩)
    rw [(splitBytes_of_codeUnit long is).2, lineEscape_of_escape stands]
    exact unescape_single alone (by rw [List.length_cons, four])
  · have bad {ds : List Char} (starts : ds <+: cs) : escape ('u' :: ds) = .error .badUnicodeEscape := by
      rw [escape_unit]
      split
      · rfl
      · rename_i long
        have same : ds.take 4 = cs.take 4 := by
          obtain ⟨more, rfl⟩ := starts
          rw [List.take_append_of_le_length (Nat.not_lt.mp long)]
        have none : codeUnit (ds.take 4) = Option.none := by
          rw [same, ← Option.not_isSome_iff_eq_none]
          exact fun some => unit ⟨(Nat.not_lt.mp long).trans starts.length_le, some⟩
        rw [none]
    rw [lineEscape, bad List.prefix_rfl]
    cases window : splitBytes (min 4 (byteLength cs)) cs with
    | none =>
      have cut : splitsFourthByte 4 cs = true := (splitBytes_min 4 cs).mp window
      simp only [Option.map_none, Option.getD_none, List.tail_cons, cut, if_true]
      exact unescape_fault rfl
    | some parts =>
      have inside : splitsFourthByte 4 cs = false := by
        rw [← Bool.not_eq_true, ← splitBytes_min, window]
        exact Option.some_ne_none _
      simp only [Option.map_some, Option.getD_some, List.tail_cons, inside]
      exact unescape_fault (bad ⟨parts.2, (Text.append_of_splitBytes window).symm⟩)

/-- Between a place and the end of the text is what is left of it. -/
theorem offset_add_rest (within : Reaches ⟨text, 0⟩ i) : i.offset + byteLength i.rest = byteLength text := by
  obtain ⟨before, rfl, start⟩ := exists_before within
  rw [start, Text.byteLength_append]

theorem windowEnd_unit (within : Reaches ⟨text, 0⟩ i) {cs : List Char} (here : i.rest = '\\' :: 'u' :: cs) :
    windowEnd text i = i.offset + (min 4 (byteLength cs) + 2) := by
  have whole := offset_add_rest within
  have first : Char.utf8Size '\\' = 1 := rfl
  have second : Char.utf8Size 'u' = 1 := rfl
  rw [here, Text.byteLength_cons, Text.byteLength_cons, first, second] at whole
  have skipped : i.skip.offset = i.offset + 1 := by rw [Input.skip, here]; rfl
  have length : windowLength i.rest.tail.head? = 5 := by rw [here]; rfl
  rw [windowEnd, length, skipped]
  omega

theorem slice_unit (within : Reaches ⟨text, 0⟩ i) {cs : List Char} (here : i.rest = '\\' :: 'u' :: cs) :
    sliceBytes i.offset (windowEnd text i) text =
      (splitBytes (min 4 (byteLength cs)) cs).map fun (unit, _) => '\\' :: 'u' :: unit := by
  rw [windowEnd_unit within here, slice_from within, here]
  cases read : splitBytes (min 4 (byteLength cs)) cs <;> simp [splitBytes, read, Char.utf8Size]

theorem escaped_unit (within : Reaches ⟨text, 0⟩ i) {cs : List Char} (here : i.rest = '\\' :: 'u' :: cs) :
    escaped text i.offset =
      match lineEscape ('u' :: cs) with
      | .ok (c, taken) => some (.ok c, (i.skipMany (taken + 1)).offset)
      | .error fault => some (.error ⟨fault, .single i.offset⟩, i.skip.offset) := by
  rw [escaped_eq within, slice_unit within here, unescape_window]
  cases stands : lineEscape ('u' :: cs) with
  | error fault => rfl
  | ok r =>
    obtain ⟨c, taken⟩ := r
    rcases escape_eq_ok.mp (escape_of_lineEscape stands) with ⟨cs', same, rfl, long, unit⟩ | ⟨d, cs', same, -, plain⟩
    · cases same
      have passed := Input.passes_skipMany 6 i
      have six : i.rest.take 6 = '\\' :: 'u' :: cs.take 4 := by rw [here]; rfl
      obtain ⟨size, -⟩ := splitBytes_of_codeUnit long unit
      have least : min 4 (byteLength cs) = 4 := by
        have := congrArg byteLength (List.take_append_drop 4 cs)
        rw [Text.byteLength_append] at this
        omega
      dsimp only
      rw [windowEnd_unit within here, least, passed.offset, six, Text.byteLength_cons, Text.byteLength_cons, size]
      rfl
    · cases same
      cases plain

theorem escape_other {d : Char} (other : d ≠ 'u') (cs : List Char) :
    escape (d :: cs) =
      if d = '(' then .error .interpolation
      else match plainEscape d with
        | some c => .ok (c, 1)
        | none => .error (.unknownEscape d) := by
  by_cases opening : d = '('
  · subst opening
    rfl
  · rw [if_neg opening]
    unfold escape
    split <;> rename_i same
    · cases same
    · exact absurd (List.cons.inj same).1 other
    · exact absurd (List.cons.inj same).1 opening
    · obtain ⟨rfl, rfl⟩ := List.cons.inj same
      cases plainEscape d <;> rfl

theorem lineEscape_other {d : Char} (other : d ≠ 'u') (cs : List Char) : lineEscape (d :: cs) = escape [d] := by
  rw [lineEscape, escape_other other, escape_other other]
  by_cases opening : d = '('
  · rw [if_pos opening]
  · rw [if_neg opening]
    cases plainEscape d <;> rfl

theorem escaped_other (within : Reaches ⟨text, 0⟩ i) {d : Char} {cs : List Char} (here : i.rest = '\\' :: d :: cs)
    (other : d ≠ 'u') :
    escaped text i.offset =
      match lineEscape (d :: cs) with
      | .ok (c, taken) => some (.ok c, (i.skipMany (taken + 1)).offset)
      | .error fault => some (.error ⟨fault, .single i.offset⟩, i.skip.offset) := by
  have backslash : Passes ['\\'] i i.skip := Input.passes_skip here
  have next : i.skip.rest = d :: cs := by rw [Input.skip_rest, here]; rfl
  have both : Passes ['\\', d] i i.skip.skip := backslash.trans (Input.passes_skip next)
  have length : windowLength i.rest.tail.head? = d.utf8Size := by
    rw [here]
    unfold windowLength
    split <;> simp_all
  have stop : windowEnd text i = i.skip.skip.offset := by
    have whole := offset_add_rest (within.trans ⟨_, both⟩)
    rw [windowEnd, length, ← (show i.skip.skip.offset = i.skip.offset + d.utf8Size by rw [Input.skip, next])]
    exact Nat.min_eq_left (whole ▸ Nat.le_add_right _ _)
  rw [escaped_eq within, stop, slice_at within both, Option.getD_some, lineEscape_other other]
  cases stands : escape [d] with
  | error fault => rw [unescape_fault stands]
  | ok r =>
    obtain ⟨c, taken⟩ := r
    rcases escape_eq_ok.mp stands with ⟨cs', same, -, -, -⟩ | ⟨d', cs', -, rfl, -⟩
    · cases same
      exact absurd rfl other
    · rw [unescape_single stands (Nat.le_refl 1)]
      rfl

/-- An escape is read as it is by characters. A fault in it leaves the place behind the backslash. -/
theorem escaped_at (within : Reaches ⟨text, 0⟩ i) {rest : List Char} (here : i.rest = '\\' :: rest) :
    escaped text i.offset =
      match lineEscape rest with
      | .ok (c, taken) => some (.ok c, (i.skipMany (taken + 1)).offset)
      | .error fault => some (.error ⟨fault, .single i.offset⟩, i.skip.offset) := by
  cases rest with
  | nil =>
    have backslash : Passes ['\\'] i i.skip := Input.passes_skip here
    have stop : windowEnd text i = i.skip.offset := by
      have whole := offset_add_rest (within.trans ⟨_, backslash⟩)
      rw [windowEnd, here]
      exact Nat.min_eq_left (whole ▸ Nat.le_add_right _ _)
    rw [escaped_eq within, stop, slice_at within backslash, Option.getD_some, unescape_fault rfl]
    rfl
  | cons d cs =>
    by_cases unit : d = 'u'
    · subst unit
      exact escaped_unit within here
    · exact escaped_other within here unit

end Escapes

section Literals

variable {text : List Char} {i : Input}

theorem literalBody_at (start : Nat) {n : Nat} (within : Reaches ⟨text, 0⟩ i) (enough : i.rest.length < n) :
    literalBody text start n i.offset = some ((stringBody start i).1, (stringBody start i).2.offset) := by
  -- each turn takes a character
  induction n generalizing i with
  | zero => cases enough
  | succ n ih =>
    rw [literalBody, bind_of_ok (current_at within)]
    fun_cases stringBody start i with
    | case1 here =>
      rw [here]
      rfl
    | case2 rest here =>
      rw [here]
      rfl
    | case3 rest here =>
      rw [here]
      exact bind_of_ok (advance_at within)
    | case4 rest here fault refused =>
      have escape := escaped_at within here
      rw [refused] at escape
      rw [here]
      exact bind_of_error escape
    | case5 rest here c taken stands tail left body =>
      have escape := escaped_at within here
      rw [stands] at escape
      have others := ih (within.trans (Input.reaches_skipMany (taken + 1) i)) (length_lt_of_taken here enough)
      rw [here]
      refine (bind_of_ok escape).trans ?_
      rw [body] at others
      cases tail with
      | ok cs => exact bind_of_ok others
      | error e => exact bind_of_error others
    | case6 c rest newline quote backslash here tail left body =>
      have others := ih (within.trans (Input.reaches_skip i)) (length_lt_of_taken (m := 0) here enough)
      rw [here]
      dsimp only [List.head?_cons]
      rw [if_neg newline, if_neg quote, if_neg backslash, bind_of_ok (advance_at within)]
      rw [body] at others
      cases tail with
      | ok cs => exact bind_of_ok others
      | error e => exact bind_of_error others

theorem literal_at (within : Reaches ⟨text, 0⟩ i) :
    literal text i.offset = some ((stringBody i.offset i.skip).1, (stringBody i.offset i.skip).2.offset) := by
  have inside := within.trans (Input.reaches_skip i)
  rw [literal, get_bind, bind_of_ok (advance_at within)]
  exact literalBody_at i.offset inside (length_rest_lt_turns inside)

/-- The place behind a line is one byte behind its end, or the end of the text. -/
theorem nextLine_offset (within : Reaches ⟨text, 0⟩ i) :
    min ((i.skipWhile (· ≠ '\n')).offset + 1) (byteLength text) =
      (i.skipMany ((i.rest.takeWhile (· ≠ '\n')).length + 1)).offset := by
  have whole := offset_add_rest (within.trans (Input.reaches_skipWhile (· ≠ '\n') i))
  have passed := Input.passes_skipMany ((i.rest.takeWhile (· ≠ '\n')).length + 1) i
  have parts := List.takeWhile_append_dropWhile (p := (· ≠ '\n')) (l := i.rest)
  have more := moreLines_dropWhile i.rest
  rw [passed.offset]
  simp only [Input.skipWhile] at whole ⊢
  generalize i.rest.takeWhile (· ≠ '\n') = line at whole parts ⊢
  generalize i.rest.dropWhile (· ≠ '\n') = rest at whole parts more
  rw [← parts]
  cases rest with
  | nil =>
    rw [List.append_nil, List.take_of_length_le (Nat.le_succ _)]
    rw [Text.byteLength_nil] at whole
    omega
  | cons c rest =>
    have newline : c = '\n' := more c rfl
    have size : Char.utf8Size '\n' = 1 := rfl
    rw [List.take_length_add_append, List.take_succ_cons, List.take_zero, Text.byteLength_append, newline,
      Text.byteLength_cons, Text.byteLength_nil, size]
    rw [newline, Text.byteLength_cons, size] at whole
    omega

/-- The result of a literal over several lines, from its lines and their indentation. -/
def dedented (read : Scan (List Line × List Char)) : Scan (List Char) :=
  (read.1.bind fun (lines, indent) =>
    (lines.reverse.mapM (Line.dedent indent)).map fun texts => ['\n'].intercalate texts, read.2)

/-- The indentation of closing quotes and the place behind them, by what is left of their line. -/
theorem closing_at {line : List Char} (starts : line <+: i.rest) (closes : quotes <+: line.dropWhile isBlank) :
    splitBytes (byteLength line - byteLength (line.dropWhile isBlank)) line =
        some (line.takeWhile isBlank, line.dropWhile isBlank) ∧
      i.offset + byteLength line - byteLength ((line.dropWhile isBlank).drop 3) =
        (i.skipMany ((line.takeWhile isBlank).length + 3)).offset := by
  have parts := List.takeWhile_append_dropWhile (p := isBlank) (l := line)
  have passed := Input.passes_prefix ((indented_quotes closes).trans starts)
  rw [List.length_append, show quotes.length = 3 from rfl] at passed
  rw [passed.offset]
  obtain ⟨rest, whole⟩ := closes
  generalize line.takeWhile isBlank = indent at *
  generalize line.dropWhile isBlank = trimmed at *
  subst whole parts
  have three : byteLength quotes = 3 := rfl
  have behind : (quotes ++ rest).drop 3 = rest := rfl
  rw [behind]
  simp only [Text.byteLength_append, three]
  refine ⟨?_, by omega⟩
  rw [Nat.add_sub_cancel]
  exact Text.splitBytes_append indent (quotes ++ rest)

theorem blockBody_eq {start n : Nat} {lines : List Line} (within : Reaches ⟨text, 0⟩ i) (filled : i.rest ≠ [])
    {line : List Char} (first : i.rest.takeWhile (· ≠ '\n') = line) :
    blockBody text start lines (n + 1) i.offset =
      if quotes.isPrefixOf (line.dropWhile isBlank) then
        some ((lines.mapM (Line.dedent (line.takeWhile isBlank))).map fun texts => ['\n'].intercalate texts,
          (i.skipMany ((line.takeWhile isBlank).length + 3)).offset)
      else blockBody text start (lines ++ [⟨i.offset, line⟩]) n (i.skipMany (line.length + 1)).offset := by
  have whole := offset_add_rest within
  have some := Text.byteLength_pos filled
  have passed := Input.passes_skipWhile (· ≠ '\n') i
  rw [blockBody, get_bind, if_neg (by omega), bind_of_ok (lineEnd_at within), taken_bind (slice_at within passed)]
  rw [first] at passed ⊢
  dsimp only
  by_cases closes : quotes.isPrefixOf (line.dropWhile isBlank) = true
  · obtain ⟨indented, stop⟩ := closing_at (first ▸ List.takeWhile_prefix _) (List.isPrefixOf_iff_prefix.mp closes)
    rw [if_pos closes, if_pos closes, taken_bind indented, passed.offset]
    dsimp only
    rw [set_bind, stop]
    cases lines.mapM (Line.dedent (line.takeWhile isBlank)) <;> rfl
  · rw [if_neg closes, if_neg closes, nextLine_offset within, first]
    rfl

theorem blockBody_at (start : Nat) (lines : List Line) {n : Nat} (within : Reaches ⟨text, 0⟩ i)
    (enough : i.rest.length < n) :
    blockBody text start lines.reverse n i.offset =
      some ((dedented (blockLines start i lines)).1, (dedented (blockLines start i lines)).2.offset) := by
  -- each turn takes a line, and with it a character at least
  induction n generalizing i lines with
  | zero => cases enough
  | succ n ih =>
    fun_cases blockLines start i lines with
    | case1 here =>
      have whole := offset_add_rest within
      rw [here, Text.byteLength_nil, Nat.add_zero] at whole
      rw [blockBody, get_bind, if_pos (Nat.le_of_eq whole.symm)]
      rfl
    | case2 c cs here line indent closes =>
      rw [blockBody_eq within (by simp [here]) rfl, if_pos closes]
      rfl
    | case3 c cs here line unclosed =>
      rw [blockBody_eq within (by simp [here]) rfl, if_neg unclosed, ← List.reverse_cons]
      exact ih _ (within.trans (Input.reaches_skipMany _ i)) (length_lt_of_taken here enough)

theorem block_at (within : Reaches ⟨text, 0⟩ i) (opens : quotes <+: i.rest) :
    block text i.offset = some ((blockString i).1, (blockString i).2.offset) := by
  have opening : (i.skipMany 3).offset = i.offset + 3 := (Input.passes_prefix opens).offset
  have inside := within.trans (Input.reaches_skipMany 3 i)
  have opened := inside.trans (Input.reaches_skipWhile (fun c => isBlank c && c != '\n') _)
  rw [block, get_bind, set_bind, ← opening, bind_of_ok (skipWhile_at _ inside), bind_of_ok (current_at opened)]
  unfold blockString
  dsimp only
  generalize (i.skipMany 3).skipWhile (fun c => isBlank c && c != '\n') = j at opened
  split
  · have inside := opened.trans (Input.reaches_skip j)
    have lines := blockBody_at i.offset [] inside (length_rest_lt_turns inside)
    rw [bind_of_ok (advance_at opened)]
    rw [List.reverse_nil] at lines
    rw [lines]
    split <;> rename_i read <;> rw [read] <;> rfl
  · rfl

end Literals

section Words

variable {text : List Char} {i : Input}

theorem skipMany_of_passes {cs : List Char} {i j : Input} (passed : Passes cs i j) : i.skipMany cs.length = j :=
  (Input.passes_prefix ⟨j.rest, passed.rest.symm⟩).right_unique passed

theorem skipMany_takeWhile (p : Char → Bool) (i : Input) : i.skipMany (i.rest.takeWhile p).length = i.skipWhile p :=
  skipMany_of_passes (Input.passes_skipWhile p i)

theorem nameFrom_at {j : Input} {cs : List Char} (within : Reaches ⟨text, 0⟩ i) (passed : Passes cs i j) :
    nameFrom text i.offset j.offset =
      some (.ok (nameToken (String.ofList (cs ++ j.rest.takeWhile isNameChar))), (j.skipWhile isNameChar).offset) := by
  have name := passed.trans (Input.passes_skipWhile isNameChar j)
  rw [nameFrom, bind_of_ok (skipWhile_at _ (within.trans ⟨_, passed⟩)), get_bind, taken_bind (slice_at within name)]
  rfl

theorem name_at (within : Reaches ⟨text, 0⟩ i) :
    name text i.offset = some ((Syntax.name i).1, (Syntax.name i).2.offset) := by
  unfold Syntax.name
  split
  · rename_i c rest here
    have hash : Passes ['#'] i i.skip := Input.passes_skip here
    have next : i.skip.rest = c :: rest := by rw [Input.skip_rest, here]; rfl
    rw [name, get_bind, bind_of_ok (current_at within), if_pos (by rw [here]; rfl), bind_of_ok (advance_at within),
      bind_of_ok (current_at (within.trans ⟨_, hash⟩)), next]
    by_cases starts : (c :: rest).head?.any (fun c => isAlphabetic c || c == '_') = true
    · rw [if_pos starts, nameFrom_at within hash, ← skipMany_takeWhile, next]
      rw [List.head?_cons, Option.any_some] at starts
      rw [if_pos starts]
      rfl
    · rw [if_neg starts]
      rw [List.head?_cons, Option.any_some] at starts
      rw [if_neg starts]
      rfl
  · rename_i here
    have hash : Passes ['#'] i i.skip := Input.passes_skip here
    rw [name, get_bind, bind_of_ok (current_at within), if_pos (by rw [here]; rfl), bind_of_ok (advance_at within),
      bind_of_ok (current_at (within.trans ⟨_, hash⟩)), Input.skip_rest, here]
    rfl
  · rename_i notDefinition notHash
    have other : i.rest.head? ≠ some '#' := by
      intro first
      obtain ⟨rest, here⟩ := List.head?_eq_some_iff.mp first
      cases rest with
      | nil => exact notHash here
      | cons c rest => exact notDefinition c rest here
    rw [name, get_bind, bind_of_ok (current_at within), if_neg other, nameFrom_at within (.refl i),
      ← skipMany_takeWhile]
    rfl

theorem skipMany_skipMany (m n : Nat) (i : Input) : (i.skipMany m).skipMany n = i.skipMany (m + n) := by
  induction m generalizing i with
  | zero => rw [Nat.zero_add]; rfl
  | succ m ih => rw [Nat.succ_add]; exact ih i.skip

theorem isNumberChar_of_isAsciiDigit {c : Char} (digit : isAsciiDigit c = true) : isNumberChar c = true := by
  rw [isNumberChar, digit, Bool.true_or]

theorem point_at (within : Reaches ⟨text, 0⟩ i) :
    point text i.offset = some (.ok !(pointPart i.rest).isEmpty, (i.skipMany (pointPart i.rest).length).offset) := by
  rw [point, bind_of_ok (current_at within)]
  by_cases dot : i.rest.head? = some '.'
  · obtain ⟨rest, here⟩ := List.head?_eq_some_iff.mp dot
    have next : i.skip.rest = rest := by rw [Input.skip_rest, here]; rfl
    have inside := within.trans (Input.reaches_skip i)
    rw [if_pos dot, bind_of_ok (following_at within), here, List.tail_cons]
    cases rest with
    | nil => rfl
    | cons c rest =>
      rw [pointPart]
      by_cases digit : (c :: rest).head?.any isAsciiDigit = true
      · rw [if_pos digit, bind_of_ok (advance_at within), bind_of_ok (skipWhile_at _ inside), ← skipMany_takeWhile,
          next]
        rw [List.head?_cons, Option.any_some] at digit
        rw [if_pos digit, List.takeWhile_cons_of_pos (isNumberChar_of_isAsciiDigit digit)]
        rfl
      · rw [if_neg digit]
        rw [List.head?_cons, Option.any_some] at digit
        rw [if_neg digit]
        rfl
  · have none : pointPart i.rest = [] := by
      unfold pointPart
      split
      · rename_i here
        exact absurd (by rw [here]; rfl) dot
      · rfl
    rw [if_neg dot, none]
    rfl

/-- The sign in front of an exponent's digits. -/
def signPart : List Char → List Char
  | '+' :: _ => ['+']
  | '-' :: _ => ['-']
  | _ => []

theorem sign_at (within : Reaches ⟨text, 0⟩ i) :
    sign text i.offset = some (.ok (), (i.skipMany (signPart i.rest).length).offset) := by
  unfold signPart
  split
  · rename_i here
    rw [sign, bind_of_ok (current_at within), if_pos (by simp [here]), advance_at within]
    rfl
  · rename_i here
    rw [sign, bind_of_ok (current_at within), if_pos (by simp [here]), advance_at within]
    rfl
  · rename_i noPlus noMinus
    rw [sign, bind_of_ok (current_at within), if_neg]
    · rfl
    · rintro (first | first)
      · exact noPlus _ (List.head?_eq_some_iff.mp first).choose_spec
      · exact noMinus _ (List.head?_eq_some_iff.mp first).choose_spec

theorem exponentPart_cons (mark : Char) (rest : List Char) :
    exponentPart (mark :: rest) =
      if (mark = 'e' ∨ mark = 'E') ∧ (rest.drop (signPart rest).length).head?.any isAsciiDigit = true then
        mark :: signPart rest ++ (rest.drop (signPart rest).length).takeWhile isNumberChar
      else [] := by
  have signless : isAsciiDigit '+' = false ∧ isAsciiDigit '-' = false := by decide
  have digits {c : Char} (cs : List Char) (digit : isAsciiDigit c = true) :
      (c :: cs).takeWhile isNumberChar = c :: cs.takeWhile isNumberChar :=
    List.takeWhile_cons_of_pos (isNumberChar_of_isAsciiDigit digit)
  cases rest with
  | nil => simp [exponentPart, signPart]
  | cons c cs =>
    by_cases signed : c = '+' ∨ c = '-'
    · cases cs with
      | nil => rcases signed with rfl | rfl <;> simp [exponentPart, signPart, signless]
      | cons d cs =>
        by_cases digit : isAsciiDigit d = true <;> rcases signed with rfl | rfl <;>
          simp [exponentPart, signPart, digit, digits]
    · have unsigned := not_or.mp signed
      by_cases digit : isAsciiDigit c = true <;> simp [exponentPart, signPart, unsigned, digit, digits]

theorem exponent_at (within : Reaches ⟨text, 0⟩ i) :
    exponent text i.offset =
      some (.ok !(exponentPart i.rest).isEmpty, (i.skipMany (exponentPart i.rest).length).offset) := by
  rw [exponent, bind_of_ok (current_at within)]
  cases here : i.rest with
  | nil => rfl
  | cons mark rest =>
    rw [exponentPart_cons]
    by_cases marked : mark = 'e' ∨ mark = 'E'
    · have inside := within.trans (Input.reaches_skip i)
      have next : i.skip.rest = rest := by rw [Input.skip_rest, here]; rfl
      have signed := inside.trans (Input.reaches_skipMany (signPart rest).length i.skip)
      have after : (i.skip.skipMany (signPart rest).length).rest = rest.drop (signPart rest).length := by
        rw [Input.skipMany_rest, next]
      rw [if_pos (by simpa using marked), get_bind, bind_of_ok (advance_at within), bind_of_ok (sign_at inside), next,
        bind_of_ok (current_at signed), after]
      by_cases digit : (rest.drop (signPart rest).length).head?.any isAsciiDigit = true
      · rw [if_pos digit, if_pos ⟨marked, digit⟩, bind_of_ok (skipWhile_at _ signed), ← skipMany_takeWhile, after,
          skipMany_skipMany, List.cons_append, List.length_cons, List.length_append]
        rfl
      · rw [if_neg digit, if_neg fun both => digit both.2]
        rfl
    · rw [if_neg (by simpa using marked), if_neg fun both => marked both.1]
      rfl

theorem number_at (within : Reaches ⟨text, 0⟩ i) :
    number text i.offset = some ((Syntax.number i).1, (Syntax.number i).2.offset) := by
  have whole := Input.passes_skipWhile isNumberChar i
  have pointed := Input.passes_prefix (pointPart_line (i.skipWhile isNumberChar).rest).1
  have raised := Input.passes_prefix
    (exponentPart_line ((i.skipWhile isNumberChar).skipMany (pointPart (i.skipWhile isNumberChar).rest).length).rest).1
  have all := (whole.trans pointed).trans raised
  have inside := within.trans ⟨_, whole⟩
  rw [number, get_bind, bind_of_ok (skipWhile_at _ within), bind_of_ok (point_at inside),
    bind_of_ok (exponent_at (inside.trans ⟨_, pointed⟩)), get_bind, slice_at within all]
  unfold Syntax.number
  rw [Input.skipMany_rest, show (i.skipWhile isNumberChar).rest = i.rest.dropWhile isNumberChar from rfl] at all ⊢
  dsimp only
  rw [skipMany_of_passes all]
  clear inside pointed raised
  generalize pointPart (i.rest.dropWhile isNumberChar) = point at *
  generalize exponentPart ((i.rest.dropWhile isNumberChar).drop point.length) = exponent at *
  generalize ((i.skipWhile isNumberChar).skipMany point.length).skipMany exponent.length = left at *
  rw [Option.getD_some]
  by_cases integer : (point.isEmpty && exponent.isEmpty) = true
  · have noFloat : ¬(!point.isEmpty || !exponent.isEmpty) = true := by
      rw [← Bool.not_and, integer]
      exact Bool.false_ne_true
    rw [if_neg noFloat, if_pos integer]
    generalize Decimal.naturalBelow 10 (1 <<< 63) _ = value
    cases value <;> rfl
  · have float : (!point.isEmpty || !exponent.isEmpty) = true := by
      rw [← Bool.not_and, Bool.not_eq_true']
      exact Bool.eq_false_of_not_eq_true integer
    rw [if_pos float, if_neg integer]
    generalize (Decimal.readFloat _).filter _ = value
    cases value <;> rfl

end Words

section Tokens

variable {text : List Char} {i : Input}

theorem single_at (within : Reaches ⟨text, 0⟩ i) (kind : TokenKind) :
    single text kind i.offset = some (.ok kind, i.skip.offset) := by
  rw [single, bind_of_ok (advance_at within)]
  rfl

theorem punctuation_at (within : Reaches ⟨text, 0⟩ i) {c : Char} {kind : TokenKind} (is : punctuation c = some kind) :
    tokenAt text c i.offset = some (.ok kind, i.skip.offset) := by
  rw [tokenAt, get_bind, is]
  exact single_at within kind

theorem colon_at (within : Reaches ⟨text, 0⟩ i) {cs : List Char} (here : i.rest = ':' :: cs) :
    tokenAt text ':' i.offset =
      if cs.head? = some ':' then some (.ok .doubleColon, i.skip.skip.offset)
      else some (.ok .colon, i.skip.offset) := by
  have inside := within.trans (Input.reaches_skip i)
  rw [tokenAt, get_bind, show punctuation ':' = none from rfl]
  dsimp only
  rw [if_pos rfl, bind_of_ok (following_at within), here, List.tail_cons]
  by_cases double : cs.head? = some ':'
  · rw [if_pos double, if_pos double, bind_of_ok (advance_at within), bind_of_ok (advance_at inside)]
    rfl
  · rw [if_neg double, if_neg double]
    exact single_at within _

theorem dot_at (within : Reaches ⟨text, 0⟩ i) :
    tokenAt text '.' i.offset =
      if ['.', '.', '.'].isPrefixOf i.rest then some (.ok .ellipsis, (i.skipMany 3).offset)
      else some (.ok .dot, i.skip.offset) := by
  rw [tokenAt, get_bind, show punctuation '.' = none from rfl]
  dsimp only
  rw [if_neg (by decide), if_pos rfl, taken_bind (behind_at within)]
  by_cases ellipsis : ['.', '.', '.'].isPrefixOf i.rest = true
  · have stop : (i.skipMany 3).offset = i.offset + 3 :=
      (Input.passes_prefix (List.isPrefixOf_iff_prefix.mp ellipsis)).offset
    rw [if_pos ellipsis, if_pos ellipsis, stop]
    rfl
  · rw [if_neg ellipsis, if_neg ellipsis]
    exact single_at within _

/-- What a literal says, as a token. -/
theorem bind_string {r : Reading (List Char)} {read : Scan (List Char)} {o : Nat}
    (h : r o = some (read.1, read.2.offset)) :
    (do return .string (String.ofList (← r)) : Reading TokenKind) o =
      some (read.1.map fun cs => .string (String.ofList cs), read.2.offset) := by
  obtain ⟨_ | cs, left⟩ := read
  · exact bind_of_error h
  · exact bind_of_ok h

theorem quote_at (within : Reaches ⟨text, 0⟩ i) :
    tokenAt text '"' i.offset =
      let read := if quotes.isPrefixOf i.rest then blockString i else stringBody i.offset i.skip
      some (read.1.map fun cs => .string (String.ofList cs), read.2.offset) := by
  rw [tokenAt, get_bind, show punctuation '"' = none from rfl]
  dsimp only
  rw [if_neg (by decide), if_neg (by decide), if_pos rfl, taken_bind (behind_at within)]
  by_cases opens : quotes.isPrefixOf i.rest = true
  · rw [if_pos opens, if_pos opens]
    exact bind_string (block_at within (List.isPrefixOf_iff_prefix.mp opens))
  · rw [if_neg opens, if_neg opens]
    exact bind_string (literal_at within)

theorem word_at (within : Reaches ⟨text, 0⟩ i) {c : Char} (plain : punctuation c = none)
    (other : c ≠ ':' ∧ c ≠ '.' ∧ c ≠ '"') :
    tokenAt text c i.offset =
      let read := if isAsciiDigit c then Syntax.number i
        else if isAlphabetic c || c == '_' || c == '$' || c == '#' then Syntax.name i
        else (.error ⟨.unexpectedCharacter c, .single i.offset⟩, i)
      some (read.1, read.2.offset) := by
  rw [tokenAt, get_bind, plain]
  dsimp only
  rw [if_neg other.1, if_neg other.2.1, if_neg other.2.2]
  split
  · exact number_at within
  · split
    · exact name_at within
    · rfl

/-- A token is read as it is by characters, and what is refused is left at the same place. -/
theorem tokenAt_at (within : Reaches ⟨text, 0⟩ i) {c : Char} {cs : List Char} (here : i.rest = c :: cs) :
    tokenAt text c i.offset = some ((lexeme i).1, (lexeme i).2.offset) := by
  unfold lexeme
  dsimp only
  split <;> rename_i same <;> cases here.symm.trans same <;> try exact punctuation_at within rfl
  · rw [colon_at within here, List.head?_cons, if_pos rfl]
    rfl
  · rename_i single
    rw [colon_at within here, if_neg fun first => single _ (List.head?_eq_some_iff.mp first).choose_spec]
    rfl
  · rw [dot_at within, here, if_pos (by simp)]
  · rename_i single
    rw [dot_at within, here, if_neg]
    · rfl
    · rw [List.isPrefixOf_iff_prefix]
      rintro ⟨tail, whole⟩
      cases whole
      exact single tail rfl
  · rw [quote_at within, if_pos (by rw [here]; rfl)]
  · rename_i single
    rw [quote_at within, if_neg]
    rw [List.isPrefixOf_iff_prefix, here]
    rintro ⟨tail, whole⟩
    cases whole
    exact single tail rfl
  · refine word_at within ?_ (by simp_all)
    unfold punctuation
    split <;> simp_all

end Tokens

end StackLattice.Syntax.Sliced
