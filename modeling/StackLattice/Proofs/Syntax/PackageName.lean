import StackLattice.Proofs.Syntax.Accepted
import StackLattice.Proofs.Syntax.Lexing

/-!
The package clause, read alone. It is what the parser finds in a text that it accepts, and it is found in front of a
line break whatever follows.
-/

namespace StackLattice.Syntax

open Text (Input)
open Grammar (Piece written written_cons)

theorem TokenKind.not_endsLine_of_comma {k : TokenKind} (h : k.isComma = Bool.true) : k.endsLine = Bool.false := by
  cases k <;> first | rfl | cases h

namespace Scanner

variable {s t : Scanner} {token : Token}

/-- While no comma is due, only a token can make one due. -/
theorem pendingComma_of_next (none : s.pendingComma = false) (read : s.next = (.ok token, t)) :
    t.pendingComma = token.kind.endsLine := by
  fun_induction next s with
  | case1 s rest pending | case3 s _ rest pending =>
    rw [none] at pending
    cases pending
  | case2 =>
    cases read
    exact none
  | case4 s _ _ _ ih => exact ih rfl read
  | case5 s _ _ ih => exact ih (s.pendingComma_passComment.trans none) read
  | case6 s _ _ _ _ _ _ ih => exact ih none read
  | case7 s =>
    unfold readToken at read
    split at read <;> cases read
    rfl

end Scanner

section Clause

variable {commas : List TokenKind} (areCommas : ∀ c ∈ commas, c.isComma = true) {s t u : Scanner} {token : Token}

include areCommas

/-- Each comma that is passed over takes a character, so that there are steps enough for all of them. -/
theorem skipToToken_of_gives (gives : s.Gives commas t) (none : s.pendingComma = false)
    (read : t.next = (.ok token, u)) (other : token.kind.isComma = false) {n : Nat}
    (enough : s.input.rest.length < n) : skipToToken n s = some (token, u) := by
  induction gives generalizing n with
  | done same =>
    obtain ⟨n, rfl⟩ := Nat.exists_eq_succ_of_ne_zero (Nat.ne_zero_of_lt enough)
    rw [skipToToken, same, read]
    exact if_neg (Bool.eq_false_iff.mp other)
  | @next s v t comma ks first more _ ih =>
    obtain ⟨n, rfl⟩ := Nat.exists_eq_succ_of_ne_zero (Nat.ne_zero_of_lt enough)
    rw [List.forall_mem_cons] at areCommas
    have calm : v.pendingComma = false := by
      rw [Scanner.pendingComma_of_next none first, TokenKind.not_endsLine_of_comma areCommas.1]
    have shorter := Scanner.next_remaining_lt first more
    rw [Scanner.remaining, Scanner.remaining, none, calm] at shorter
    rw [skipToToken, first]
    exact (if_pos areCommas.1).trans (ih areCommas.2 calm read (by omega))

variable {text name : String}

theorem packageName_of_gives (gives : (Scanner.ofString text false).Gives (commas ++ [.package]) t)
    (read : t.next = (.ok token, u)) (named : token.kind = .ident name) : packageName text = some name := by
  obtain ⟨v, word, w, passed, next, isWord, behind⟩ := gives.split
  cases behind with
  | done same =>
    obtain ⟨kind, span, doc⟩ := token
    change kind = _ at named
    subst named
    have skipped := skipToToken_of_gives areCommas passed rfl next (by rw [isWord]; rfl)
      (Nat.lt_succ_of_le (Nat.le_of_eq text.length_toList))
    simp [packageName, skipped, isWord, same, read]

theorem packageName_eq_none_of_gives (gives : (Scanner.ofString text false).Gives commas t)
    (read : t.next = (.ok token, u)) (other : token.kind.isComma = false) (different : token.kind ≠ .package) :
    packageName text = none := by
  have skipped := skipToToken_of_gives areCommas gives rfl read other
    (Nat.lt_succ_of_le (Nat.le_of_eq text.length_toList))
  simp [packageName, skipped, different]

end Clause

section Start

/-- Tokens that start with neither a comma nor a package clause. -/
def Clauseless (ts : List Token) : Prop :=
  ∃ token rest, ts = token :: rest ∧ token.kind.isComma = false ∧ token.kind ≠ .package

theorem Clauseless.append {ts : List Token} (h : Clauseless ts) (us : List Token) : Clauseless (ts ++ us) := by
  obtain ⟨token, rest, rfl, other⟩ := h
  exact ⟨token, rest ++ us, rfl, other⟩

theorem clauseless_of_kind {token : Token} {kind : TokenKind} {ts : List Token} (is : token.kind = kind)
    (other : kind.isComma = false ∧ kind ≠ .package) : Clauseless (token :: ts) := ⟨token, ts, rfl, is ▸ other⟩

theorem clauseless_written {α : Type} {pieces : List (Piece α)} {follows : List Token}
    (each : ∀ p ∈ pieces, Clauseless p.tokens) (last : Clauseless follows) :
    Clauseless (written pieces ++ follows) := by
  cases pieces with
  | nil => exact last
  | cons p ps =>
    rw [written_cons, List.append_assoc, List.append_assoc]
    exact (each p List.mem_cons_self).append _

theorem Starts.clauseless {ts : List Token} (h : Starts ts) : Clauseless ts := by
  obtain ⟨token, rest, rfl, opens⟩ := h
  refine ⟨token, rest, rfl, TokenKind.not_comma_of_opens opens, fun is => ?_⟩
  rw [is] at opens
  cases opens

theorem Grammar.ImportDecl.clauseless {ts : List Token} {is : List Import} (h : Grammar.ImportDecl ts is) :
    Clauseless ts := by
  cases h with
  | single word _ | group word => exact clauseless_of_kind word (by decide)

variable {revision : Revision} {n : Nat} {tokens : List Token} {tree : Syntax.File}

/-- A file starts with commas, and then with its package clause or with another token. -/
theorem Grammar.File.starts (h : Grammar.File revision n tokens tree) :
    ∃ commas k ks, tokens.map (·.kind) = commas ++ k :: ks ∧ (∀ c ∈ commas, c.isComma = true) ∧
      ((∃ name rest, k = .package ∧ ks = .ident name :: rest ∧ tree.packageName = some name) ∨
        k.isComma = false ∧ k ≠ .package ∧ tree.packageName = none) := by
  cases h with
  | @file commas package name imports decls finish areCommas clause areImports _ areDecls _ eof =>
    have commaKinds : ∀ c ∈ commas.map (·.kind), c.isComma = true := by
      intro c member
      obtain ⟨token, inside, rfl⟩ := List.mem_map.mp member
      exact areCommas token inside
    cases clause with
    | @present word name behind s isWord isName _ =>
      refine ⟨_, _, _, ?_, commaKinds, .inl ⟨s, (behind ++ written imports ++ written decls ++ [finish]).map (·.kind),
        rfl, rfl, rfl⟩⟩
      simp [isWord, isName]
    | absent =>
      obtain ⟨token, rest, same, other⟩ : Clauseless (written imports ++ (written decls ++ [finish])) :=
        clauseless_written (fun p member => (areImports p member).clauseless)
          (clauseless_written (fun p member => (areDecls p member).starts.clauseless)
            (clauseless_of_kind eof (by decide)))
      refine ⟨_, token.kind, rest.map (·.kind), ?_, commaKinds, .inr ⟨other.1, other.2, rfl⟩⟩
      rw [← List.map_cons, ← same]
      simp

end Start

/-- The parser and the reader of the clause alone find the same package. -/
theorem packageName_of_ofSource {source : SourceText} {revision : Revision} {keepComments : Bool} {tree : File}
    (accepted : File.ofSource source revision keepComments = .ok tree) :
    packageName source.text = tree.packageName := by
  obtain ⟨tokens, scanner, tree, scanned, derived, rfl⟩ := File.exists_derived accepted
  obtain ⟨commas, k, ks, kinds, areCommas, clause⟩ := derived.starts
  -- The clause is looked for without comments, which changes no kinds.
  obtain ⟨read, q, lexes, same⟩ := lexes_of_tokens scanned
  obtain ⟨tokens', last, scanned', kinds'⟩ := lexes.reads (.ofString source.text false) rfl rfl
  rw [← same, kinds] at kinds'
  obtain ⟨before, _, rfl, rfl, behind⟩ := List.map_eq_append_iff.mp kinds'
  obtain ⟨first, others, rfl, rfl, rfl⟩ := List.map_eq_cons_iff.mp behind
  rcases clause with ⟨name, rest, word, named, found⟩ | ⟨other, different, found⟩
  · obtain ⟨after, others, rfl, isName, rfl⟩ := List.map_eq_cons_iff.mp named
    rw [List.append_cons] at scanned'
    obtain ⟨u, v, gives, next⟩ := Scanner.Gives.of_tokens scanned'
    rw [List.map_append, List.map_singleton, word] at gives
    exact (packageName_of_gives areCommas gives next isName).trans found.symm
  · obtain ⟨u, v, gives, next⟩ := Scanner.Gives.of_tokens scanned'
    exact (packageName_eq_none_of_gives areCommas gives next other different).trans found.symm

/-- A clause that ends at a line break is found whatever follows the line break. -/
theorem packageName_of_clause {head rest name : String} {keepComments : Bool} {tokens : List Token} {t : Scanner}
    {commas : List TokenKind} (scanned : (Scanner.ofString head keepComments).tokens = (.ok tokens, t))
    (areCommas : ∀ c ∈ commas, c.isComma = true)
    (kinds : tokens.map (·.kind) = commas ++ [.package, .ident name, .comma true, .eof]) :
    packageName (head ++ "\n" ++ rest) = some name := by
  obtain ⟨ks, q, lexes, same⟩ := lexes_of_tokens scanned
  obtain ⟨more, rfl⟩ : ∃ more, ks = commas ++ [.package] ++ .ident name :: more := by
    rw [kinds] at same
    cases q with
    | false => exact ⟨[.comma true], (List.append_left_inj [.eof]).mp (by simpa [ending] using same.symm)⟩
    | true => exact ⟨[], (List.append_left_inj [.comma true, .eof]).mp (by simpa [ending] using same.symm)⟩
  obtain ⟨u, gives, _⟩ := (lexes.longer (moreLines_cons rest.toList)).gives
    (.ofString (head ++ "\n" ++ rest) false) (by simp [Scanner.ofString, Input.ofString]) rfl
  obtain ⟨v, token, w, clause, next, named, _⟩ := gives.split
  exact packageName_of_gives areCommas clause next named

end StackLattice.Syntax
