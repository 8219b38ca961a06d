import StackLattice.Proofs.Syntax.Completeness
import StackLattice.Proofs.Syntax.Lexing
import StackLattice.Proofs.Syntax.Soundness

/-!
The texts that are accepted, and their trees. A fault of a lexeme is the fault of every text in which it is reached.
-/

namespace StackLattice.Syntax

open Parse

/-- The last token of a text is its end, and no other token is. -/
theorem Scanner.tokens_eq_ok {s t : Scanner} {tokens : List Token} (h : s.tokens = (.ok tokens, t)) :
    ∃ body finish, tokens = body ++ [finish] ∧ (∀ token ∈ body, token.kind ≠ .eof) ∧ finish.kind = .eof := by
  fun_induction Scanner.tokens s generalizing tokens t with
  | case1 => cases h
  | case2 s token _ _ eof =>
    cases h
    exact ⟨[], token, rfl, List.forall_mem_nil _, eof⟩
  | case3 s token s' _ more others last next ih =>
    cases others with
    | error e => cases h
    | ok rest =>
      cases h
      obtain ⟨body, finish, rfl, inside, eof⟩ := ih next
      exact ⟨token :: body, finish, rfl, List.forall_mem_cons.mpr ⟨more, inside⟩, eof⟩

theorem Cursor.ofTokens_append (body : List Token) (finish : Token) :
    Cursor.ofTokens (body ++ [finish]) = ⟨body, finish⟩ := by
  simp [Cursor.ofTokens]

/-- A text whose tokens are read is parsed from them. -/
theorem File.ofSource_eq {source : SourceText} {keepComments : Bool} {tokens : List Token} {scanner : Scanner}
    (scanned : (Scanner.ofString source.text keepComments).tokens = (.ok tokens, scanner)) (revision : Revision) :
    File.ofSource source revision keepComments =
      match file revision (Cursor.ofTokens tokens) with
      | .ok (tree, _) => .ok { tree with comments := scanner.comments }
      | .error e => .error (e.within source) := by
  unfold File.ofSource
  rw [scanned]
  rfl

/-- What is read from the tokens of a text is what the grammar derives from them. -/
theorem file_eq_ok_iff {revision : Revision} {body : List Token} {finish : Token} {f : File}
    (inside : ∀ t ∈ body, t.kind ≠ .eof) (eof : finish.kind = .eof) :
    (∃ c, file revision ⟨body, finish⟩ = .ok (f, c)) ↔ Grammar.File revision nestingLimit (body ++ [finish]) f := by
  constructor
  · rintro ⟨c, read⟩
    exact file_derives inside eof read
  · intro derived
    obtain ⟨body', finish', same, arrives⟩ := file_reads derived
    obtain ⟨rfl, last⟩ := List.append_inj' same rfl
    cases last
    exact ⟨_, arrives.eq_ok (Nat.lt_irrefl _)⟩

/-- The tree of a text that is accepted is derived from its tokens. -/
theorem File.exists_derived {source : SourceText} {revision : Revision} {keepComments : Bool} {f : File}
    (accepted : File.ofSource source revision keepComments = .ok f) :
    ∃ tokens scanner tree, (Scanner.ofString source.text keepComments).tokens = (.ok tokens, scanner) ∧
      Grammar.File revision nestingLimit tokens tree ∧ f = { tree with comments := scanner.comments } := by
  rcases scanned : (Scanner.ofString source.text keepComments).tokens with ⟨read, scanner⟩
  cases read with
  | error e =>
    unfold File.ofSource at accepted
    rw [scanned] at accepted
    cases accepted
  | ok tokens =>
    obtain ⟨body, finish, rfl, inside, eof⟩ := Scanner.tokens_eq_ok scanned
    rw [ofSource_eq scanned, Cursor.ofTokens_append] at accepted
    cases read : file revision ⟨body, finish⟩ with
    | error e =>
      rw [read] at accepted
      cases accepted
    | ok r =>
      rw [read] at accepted
      cases accepted
      exact ⟨_, scanner, r.1, rfl, (file_eq_ok_iff inside eof).mp ⟨r.2, read⟩, rfl⟩

theorem File.ofSource_of_derived {source : SourceText} {keepComments : Bool} {tokens : List Token}
    {scanner : Scanner} {revision : Revision} {tree : File}
    (scanned : (Scanner.ofString source.text keepComments).tokens = (.ok tokens, scanner))
    (derived : Grammar.File revision nestingLimit tokens tree) :
    File.ofSource source revision keepComments = .ok { tree with comments := scanner.comments } := by
  obtain ⟨body, finish, rfl, inside, eof⟩ := Scanner.tokens_eq_ok scanned
  obtain ⟨c, read⟩ := (file_eq_ok_iff inside eof).mpr derived
  rw [ofSource_eq scanned, Cursor.ofTokens_append, read]

theorem ParsedFile.read_eq_ok {path text : String} {revision : Revision} {keep : Bool} {file : ParsedFile} :
    ParsedFile.read path text revision keep = .ok file ↔
      File.ofSource ⟨path, text⟩ revision keep = .ok file.tree ∧ file.source = ⟨path, text⟩ := by
  obtain ⟨source, tree⟩ := file
  simp only [ParsedFile.read]
  cases File.ofSource ⟨path, text⟩ revision keep with
  | error e => simp [Bind.bind, Except.bind]
  | ok tree' =>
    simp only [Bind.bind, Except.bind, Pure.pure, Except.pure, Except.ok.injEq, ParsedFile.mk.injEq]
    rw [and_comm, eq_comm (a := source)]

/-- A text is accepted as the tree that the grammar derives from its tokens. Whatever else is derived from them nests
    deeper than the limit, and is refused for that. -/
theorem File.ofSource_eq_ok_iff_derived {source : SourceText} {keepComments : Bool} {tokens : List Token}
    {scanner : Scanner} (scanned : (Scanner.ofString source.text keepComments).tokens = (.ok tokens, scanner))
    (revision : Revision) :
    (∀ f, File.ofSource source revision keepComments = .ok f ↔
      ∃ tree, Grammar.File revision nestingLimit tokens tree ∧ f = { tree with comments := scanner.comments }) ∧
    ∀ n tree, Grammar.File revision n tokens tree →
      File.ofSource source revision keepComments = .ok { tree with comments := scanner.comments } ∨
        nestingLimit < n ∧ ∃ e, File.ofSource source revision keepComments = .error e ∧ e.fault = .tooDeep := by
  constructor
  · intro f
    constructor
    · intro accepted
      obtain ⟨tokens', scanner', tree, scanned', derived, rfl⟩ := exists_derived accepted
      cases scanned.symm.trans scanned'
      exact ⟨tree, derived, rfl⟩
    · rintro ⟨tree, derived, rfl⟩
      exact ofSource_of_derived scanned derived
  · intro n tree derived
    obtain ⟨body, finish, rfl, arrives⟩ := file_reads derived
    rw [ofSource_eq scanned, Cursor.ofTokens_append]
    rcases arrives with read | ⟨deep, span, failed⟩
    · left
      rw [read]
    · right
      rw [failed]
      exact ⟨deep, _, rfl, rfl⟩

theorem exists_of_toBool {ε α : Type} {r : Except ε α} (h : r.toBool = true) : ∃ a, r = .ok a := by
  cases r with
  | error e => cases h
  | ok a => exact ⟨a, rfl⟩

theorem exists_of_any {ε α : Type} {r : Except ε α} {p : α → Bool} (h : r.toOption.any p = true) :
    ∃ a, r = .ok a ∧ p a = true := by
  cases r with
  | error e => cases h
  | ok a => exact ⟨a, rfl, h⟩

/-- `a?: b: -c.d | *[1, {}]` is accepted, and as what the grammar derives from its tokens. -/
theorem File.ofSource_eq_ok_iff_derived_nested :
    let source : SourceText := ⟨"a.cue", "package p\na?: b: -c.d | *[1, {}]"⟩
    ∃ tokens scanner tree, (Scanner.ofString source.text true).tokens = (.ok tokens, scanner) ∧
      File.ofSource source .current true = .ok { tree with comments := scanner.comments } ∧
      Grammar.File .current nestingLimit tokens tree := by
  intro source
  obtain ⟨tokens, scanned⟩ := exists_of_toBool
    (show (Scanner.ofString source.text true).tokens.1.toBool = true by decide +kernel)
  obtain ⟨f, accepted⟩ := exists_of_toBool
    (show (File.ofSource source .current true).toBool = true by decide +kernel)
  have scanned : (Scanner.ofString source.text true).tokens = (.ok tokens, _) := Prod.ext scanned rfl
  obtain ⟨tree, derived, rfl⟩ := ((File.ofSource_eq_ok_iff_derived scanned .current).1 f).mp accepted
  exact ⟨tokens, _, tree, scanned, accepted, derived⟩

/-- Whether no tokens are read because of a fault. -/
def Scanner.Fails (s : Scanner) (fault : Fault) : Prop := ∃ e t, s.tokens = (.error e, t) ∧ e.fault = fault

namespace Scanner.Fails

variable {s t : Scanner} {fault : Fault} {token : Token}

theorem of_next (h : s.next = (.ok token, t)) (more : token.kind ≠ .eof) (rest : t.Fails fault) : s.Fails fault := by
  obtain ⟨e, last, read, same⟩ := rest
  exact ⟨e, last, by rw [tokens_of_next h, if_neg more, read]; rfl, same⟩

theorem of_same (same : s.next = t.next) (rest : t.Fails fault) : s.Fails fault := by
  obtain ⟨e, last, read, isFault⟩ := rest
  exact ⟨e, last, (tokens_eq_of_next same).trans read, isFault⟩

theorem of_lexeme {c : Char} {cs : List Char} {e : Located} {left : Text.Input} (here : s.input.rest = c :: cs)
    (solid : Text.isBlank c = false) (other : c ≠ '/') (read : lexeme s.input = (.error e, left)) :
    s.Fails e.fault := by
  have reached : s.next = s.readToken := by
    rw [next_other here, solid, if_neg Bool.false_ne_true]
    · rintro rfl
      cases solid
    · exact fun comment => other (List.cons_prefix_cons.mp comment).1.symm
  rw [readToken, read] at reached
  exact ⟨e, _, tokens_of_fault reached, rfl⟩

end Scanner.Fails

theorem Scanner.Gives.fails {s t : Scanner} {ks : List TokenKind} {fault : Fault} (h : s.Gives ks t)
    (behind : t.Fails fault) : s.Fails fault := by
  induction h with
  | done same => exact .of_same same behind
  | next read more _ ih => exact .of_next read more (ih behind)

/-- What fails behind lexemes that are read fails with them in front of it. -/
theorem Lexes.fails {p q : Bool} {cs rest : List Char} {ks : List TokenKind} {fault : Fault} (h : Lexes p cs ks q rest)
    (behind : ∀ t : Scanner, t.input.rest = rest → t.Fails fault) (s : Scanner) (here : s.input.rest = cs)
    (pending : s.pendingComma = p) : s.Fails fault := by
  obtain ⟨t, gives, rest, _⟩ := h.gives s here pending
  exact gives.fails (behind t rest)

/-- A text whose tokens are not read is refused for the same fault. -/
theorem Scanner.Fails.refused {path text : String} {fault : Fault} {keep : Bool}
    (h : (Scanner.ofString text keep).Fails fault) (revision : Revision) :
    ∃ e, ParsedFile.read path text revision keep = .error e ∧ e.fault = fault := by
  obtain ⟨e, t, read, rfl⟩ := h
  have refused : File.ofSource ⟨path, text⟩ revision keep = .error (e.within ⟨path, text⟩) := by
    rw [File.ofSource, read]
    rfl
  refine ⟨e.within ⟨path, text⟩, ?_, rfl⟩
  rw [ParsedFile.read, refused]
  rfl

end StackLattice.Syntax
