import StackLattice.Syntax.Escape

/-!
The lexeme at the start of a text: what a token is made of, without the blanks, comments and
inserted commas around it. Every reader returns the text that is left, also when it fails.
-/

namespace StackLattice.Syntax

open Text (Input isBlank isAsciiDigit isAlphabetic isAlphanumeric byteLength)

/-- The outcome of reading a piece of text, and what is left of the text. -/
abbrev Scan (α : Type) := Except Located α × Input

/-- The rest of a string literal on one line, from behind its opening quote. `start` is the offset
    of that quote. -/
def stringBody (start : Nat) (i : Input) : Scan (List Char) :=
  match _h : i.rest with
  | [] | '\n' :: _ => (.error ⟨.unterminatedString, .single start⟩, i)
  | '"' :: _ => (.ok [], i.skip)
  | '\\' :: rest =>
    match lineEscape rest with
    | .error fault => (.error ⟨fault, .single i.offset⟩, i.skip)
    | .ok (c, taken) =>
      let (tail, left) := stringBody start (i.skipMany (taken + 1))
      (tail.map (c :: ·), left)
  | c :: _ =>
    let (tail, left) := stringBody start i.skip
    (tail.map (c :: ·), left)
termination_by i.rest.length
decreasing_by
  · simp only [Input.skipMany_rest, List.length_drop, _h, List.length_cons]; omega
  · simp only [Input.skip_rest, _h, List.tail_cons, List.length_cons]; omega

def quotes : List Char := ['"', '"', '"']

/-- A line of a literal over several lines and the offset it starts at. -/
structure Line where
  offset : Nat
  text : List Char

/-- Lines up to the one that closes the literal, latest first, and the blanks before the closing
    quotes. -/
def blockLines (start : Nat) (i : Input) (lines : List Line) : Scan (List Line × List Char) :=
  match h : i.rest with
  | [] => (.error ⟨.unterminatedString, ⟨start, start + 3⟩⟩, i)
  | _ :: _ =>
    let line := i.rest.takeWhile (· ≠ '\n')
    let indent := line.takeWhile isBlank
    if quotes.isPrefixOf (line.dropWhile isBlank) then
      (.ok (lines, indent), i.skipMany (indent.length + 3))
    else blockLines start (i.skipMany (line.length + 1)) (⟨i.offset, line⟩ :: lines)
termination_by i.rest.length
decreasing_by
  simp only [Input.skipMany_rest, List.length_drop, h, List.length_cons]; omega

/-- One line without the indentation of the closing quotes; a blank line is empty. -/
def Line.dedent (indent : List Char) (l : Line) : Except Located (List Char) :=
  if l.text.all isBlank then .ok []
  else if indent.isPrefixOf l.text then
    unescape (l.offset + byteLength indent) (l.text.drop indent.length)
  else .error ⟨.unindentedLine, .single l.offset⟩

/-- A literal over several lines, from its opening quotes. -/
def blockString (i : Input) : Scan (List Char) :=
  let opened := (i.skipMany 3).skipWhile fun c => isBlank c && c != '\n'
  if opened.rest.head? = some '\n' then
    match blockLines i.offset opened.skip [] with
    | (.error e, left) => (.error e, left)
    | (.ok (lines, indent), left) =>
      (lines.reverse.mapM (Line.dedent indent) |>.map fun texts => ['\n'].intercalate texts, left)
  else (.error ⟨.textAfterQuotes, ⟨i.offset, opened.offset⟩⟩, opened)

def isNumberChar (c : Char) : Bool := isAsciiDigit c || c == '_'

/-- The part of a number from its point on, which needs a digit behind it. -/
def pointPart : List Char → List Char
  | '.' :: c :: rest => if isAsciiDigit c then '.' :: c :: rest.takeWhile isNumberChar else []
  | _ => []

/-- The part of a number from its exponent mark on, which needs a digit behind mark and sign. -/
def exponentPart : List Char → List Char
  | mark :: '+' :: c :: rest =>
    if (mark == 'e' || mark == 'E') && isAsciiDigit c then
      mark :: '+' :: c :: rest.takeWhile isNumberChar
    else []
  | mark :: '-' :: c :: rest =>
    if (mark == 'e' || mark == 'E') && isAsciiDigit c then
      mark :: '-' :: c :: rest.takeWhile isNumberChar
    else []
  | mark :: c :: rest =>
    if (mark == 'e' || mark == 'E') && isAsciiDigit c then mark :: c :: rest.takeWhile isNumberChar
    else []
  | _ => []

/-- A number, separators allowed between digits; with a point or an exponent it is a float. -/
def number (i : Input) : Scan TokenKind :=
  let whole := i.rest.takeWhile isNumberChar
  let rest := i.rest.dropWhile isNumberChar
  let point := pointPart rest
  let exponent := exponentPart (rest.drop point.length)
  let text := whole ++ point ++ exponent
  let left := i.skipMany text.length
  let span : Span := ⟨i.offset, left.offset⟩
  let digits := text.filter (· ≠ '_')
  if point.isEmpty && exponent.isEmpty then
    match Decimal.naturalBelow 10 (1 <<< 63) digits with
    | some n => (.ok (.int n), left)
    | none => (.error ⟨.integerRange, span⟩, left)
  else
    match (Decimal.readFloat digits).filter (·.isFinite) with
    | some x => (.ok (.float x), left)
    | none => (.error ⟨.floatRange, span⟩, left)

def isNameChar (c : Char) : Bool := isAlphanumeric c || c == '_' || c == '$'

/-- The token of a name: one of the words of the language, or an identifier. -/
def nameToken (name : String) : TokenKind :=
  if name = "package" then .package
  else if name = "import" then .importing
  else if name = "null" then .null
  else if name = "true" then .true
  else if name = "false" then .false
  else .ident name

/-- A name, or a definition's name with its hash mark. -/
def name (i : Input) : Scan TokenKind :=
  match i.rest with
  | '#' :: c :: rest =>
    if isAlphabetic c || c == '_' then
      let body := (c :: rest).takeWhile isNameChar
      (.ok (nameToken (String.ofList ('#' :: body))), i.skipMany (body.length + 1))
    else (.error ⟨.bareHash, .single i.offset⟩, i.skip)
  | ['#'] => (.error ⟨.bareHash, .single i.offset⟩, i.skip)
  | cs =>
    let body := cs.takeWhile isNameChar
    (.ok (nameToken (String.ofList body)), i.skipMany body.length)

/-- The token at the start of a text that starts with neither a blank nor a comment. -/
def lexeme (i : Input) : Scan TokenKind :=
  let take (n : Nat) (kind : TokenKind) : Scan TokenKind := (.ok kind, i.skipMany n)
  match i.rest with
  | [] => take 0 .eof
  | '{' :: _ => take 1 .leftBrace
  | '}' :: _ => take 1 .rightBrace
  | '[' :: _ => take 1 .leftBracket
  | ']' :: _ => take 1 .rightBracket
  | '(' :: _ => take 1 .leftParen
  | ')' :: _ => take 1 .rightParen
  | ',' :: _ => take 1 (.comma false)
  | '&' :: _ => take 1 .ampersand
  | '|' :: _ => take 1 .pipe
  | '*' :: _ => take 1 .star
  | '-' :: _ => take 1 .minus
  | '?' :: _ => take 1 .question
  | ':' :: ':' :: _ => take 2 .doubleColon
  | ':' :: _ => take 1 .colon
  | '.' :: '.' :: '.' :: _ => take 3 .ellipsis
  | '.' :: _ => take 1 .dot
  | '"' :: '"' :: '"' :: _ =>
    let (text, left) := blockString i
    (text.map fun cs => .string (String.ofList cs), left)
  | '"' :: _ =>
    let (text, left) := stringBody i.offset i.skip
    (text.map fun cs => .string (String.ofList cs), left)
  | c :: _ =>
    if isAsciiDigit c then number i
    else if isAlphabetic c || c == '_' || c == '$' || c == '#' then name i
    else (.error ⟨.unexpectedCharacter c, .single i.offset⟩, i)

end StackLattice.Syntax
