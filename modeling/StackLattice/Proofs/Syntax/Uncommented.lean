import StackLattice.Proofs.Syntax.Lexing
import StackLattice.Proofs.Syntax.Trees
import StackLattice.Proofs.Syntax.Steps

/-!
Reading a text with its comments and without. A scanner finds the same tokens either way, but for the comments that are
put before them, and nothing is read otherwise because of these.
-/

namespace StackLattice.Syntax

open Text (Input isBlank)

def Token.uncommented (t : Token) : Token := { t with doc := [] }

mutual

/-- An expression without the comments on its fields. -/
def Expr.uncommented : Expr → Expr
  | .null span => .null span
  | .bool b span => .bool b span
  | .int n span => .int n span
  | .float x span => .float x span
  | .string s span => .string s span
  | .ident name => .ident name
  | .select base field => .select base.uncommented field
  | .struct decls span => .struct (Decl.uncommentedAll decls) span
  | .list items span => .list (Expr.uncommentedAll items) span
  | .unary op operand span => .unary op operand.uncommented span
  | .binary op left right => .binary op left.uncommented right.uncommented
  | .paren inner span => .paren inner.uncommented span

def Expr.uncommentedAll : List Expr → List Expr
  | [] => []
  | e :: es => e.uncommented :: Expr.uncommentedAll es

def Decl.uncommented : Decl → Decl
  | .field label optional _ span value => .field label optional [] span value.uncommented
  | .embed value => .embed value.uncommented

def Decl.uncommentedAll : List Decl → List Decl
  | [] => []
  | decl :: decls => decl.uncommented :: Decl.uncommentedAll decls

end

theorem Expr.uncommentedAll_eq_map (es : List Expr) : Expr.uncommentedAll es = es.map Expr.uncommented := by
  induction es with
  | nil => rfl
  | cons e es ih => rw [Expr.uncommentedAll, ih, List.map_cons]

theorem Decl.uncommentedAll_eq_map (decls : List Decl) : Decl.uncommentedAll decls = decls.map Decl.uncommented := by
  induction decls with
  | nil => rfl
  | cons decl decls ih => rw [Decl.uncommentedAll, ih, List.map_cons]

mutual

theorem Expr.redrawn_uncommented (e : Expr) : e.redrawn id = e.uncommented := by
  match e with
  | .null _ | .bool _ _ | .int _ _ | .float _ _ | .string _ _ | .ident _ => rfl
  | .select base _ => rw [Expr.redrawn, Expr.uncommented, base.redrawn_uncommented]; rfl
  | .struct decls _ => rw [Expr.redrawn, Expr.uncommented, Decl.redrawnAll_uncommented]; rfl
  | .list items _ => rw [Expr.redrawn, Expr.uncommented, Expr.redrawnAll_uncommented]; rfl
  | .unary _ operand _ => rw [Expr.redrawn, Expr.uncommented, operand.redrawn_uncommented]; rfl
  | .binary _ left right =>
    rw [Expr.redrawn, Expr.uncommented, left.redrawn_uncommented, right.redrawn_uncommented]
  | .paren inner _ => rw [Expr.redrawn, Expr.uncommented, inner.redrawn_uncommented]; rfl

theorem Expr.redrawnAll_uncommented (es : List Expr) : Expr.redrawnAll id es = Expr.uncommentedAll es := by
  match es with
  | [] => rfl
  | e :: es => rw [Expr.redrawnAll, Expr.uncommentedAll, e.redrawn_uncommented, Expr.redrawnAll_uncommented]

theorem Decl.redrawn_uncommented (decl : Decl) : decl.redrawn id = decl.uncommented := by
  match decl with
  | .field _ _ _ _ value => rw [Decl.redrawn, Decl.uncommented, value.redrawn_uncommented]; rfl
  | .embed value => rw [Decl.redrawn, Decl.uncommented, value.redrawn_uncommented]

theorem Decl.redrawnAll_uncommented (decls : List Decl) : Decl.redrawnAll id decls = Decl.uncommentedAll decls := by
  match decls with
  | [] => rfl
  | decl :: decls => rw [Decl.redrawnAll, Decl.uncommentedAll, decl.redrawn_uncommented, Decl.redrawnAll_uncommented]

end

theorem Expr.span_uncommented (e : Expr) : e.uncommented.span = e.span := by
  match e with
  | .select base _ => rw [Expr.uncommented, Expr.span, Expr.span, base.span_uncommented]
  | .binary _ left right => rw [Expr.uncommented, Expr.span, Expr.span, left.span_uncommented, right.span_uncommented]
  | .null _ | .bool _ _ | .int _ _ | .float _ _ | .string _ _ | .ident _ | .struct _ _ | .list _ _ | .unary _ _ _
  | .paren _ _ => rfl

theorem Decl.span_uncommented (decl : Decl) : decl.uncommented.span = decl.span := by
  cases decl with
  | field => rfl
  | embed value => exact value.span_uncommented

def File.uncommented (f : File) : File := ⟨f.package, f.imports, f.decls.map Decl.uncommented, [], []⟩

def ParsedFile.uncommented (f : ParsedFile) : ParsedFile := { f with tree := f.tree.uncommented }

section Scanning

variable {s s' : Scanner}

/-- Scanners that differ in nothing but comments and what these depend on. -/
structure Scanner.Abreast (s s' : Scanner) : Prop where
  input : s'.input = s.input
  pendingComma : s'.pendingComma = s.pendingComma

/-- What two scanners find is the same but for comments, and leaves them abreast. -/
def Scanner.Finds {α β : Type} (f : α → β) (r r' : Except Located α × Scanner) : Prop :=
  r.1.map f = r'.1.map f ∧ r.2.Abreast r'.2

namespace Scanner

theorem Abreast.passLine (h : s.Abreast s') : s.passLine.Abreast s'.passLine := by
  refine ⟨?_, rfl⟩
  simp only [Scanner.passLine, h.input]

theorem Abreast.passComment (h : s.Abreast s') : s.passComment.Abreast s'.passComment := by
  constructor
  · rw [input_passComment, input_passComment, h.input]
  · rw [pendingComma_passComment, pendingComma_passComment, h.pendingComma]

theorem Abreast.readToken (h : s.Abreast s') : Finds Token.uncommented s.readToken s'.readToken := by
  unfold Scanner.readToken
  rw [h.input]
  rcases lexeme s.input with ⟨_ | kind, left⟩
  · exact ⟨rfl, rfl, h.pendingComma⟩
  · exact ⟨rfl, rfl, rfl⟩

theorem Abreast.next (h : s.Abreast s') : Finds Token.uncommented s.next s'.next := by
  fun_induction Scanner.next s generalizing s' with
  | case1 s here pending =>
    rw [next_end (h.input ▸ here), h.pendingComma, if_pos pending]
    refine ⟨?_, h.input, rfl⟩
    simp only [insertedComma, h.input]
  | case2 s here pending =>
    rw [next_end (h.input ▸ here), h.pendingComma, if_neg pending]
    refine ⟨?_, h.input, rfl⟩
    simp only [h.input]
    rfl
  | case3 s rest here pending =>
    rw [next_line (h.input ▸ here), h.pendingComma, if_pos pending]
    refine ⟨?_, h.passLine⟩
    simp only [insertedComma, h.input]
  | case4 s rest here pending ih =>
    rw [next_line (s := s') (h.input ▸ here), h.pendingComma, if_neg pending]
    exact ih h.passLine
  | case5 s rest here ih =>
    rw [next_comment (s := s') (h.input ▸ here)]
    exact ih h.passComment
  | case6 s c rest line comment here blank ih =>
    rw [next_other (s := s') (h.input ▸ here) line (not_starts_comment comment), if_pos blank]
    refine ih ⟨?_, h.pendingComma⟩
    simp only [h.input]
  | case7 s c rest line comment here solid =>
    rw [next_other (s := s') (h.input ▸ here) line (not_starts_comment comment), if_neg solid]
    exact h.readToken

/-- The next token decides what two scanners find further on. -/
theorem Abreast.next_cases (h : s.Abreast s') :
    (∃ e t t', s.next = (.error e, t) ∧ s'.next = (.error e, t') ∧ t.Abreast t') ∨
      ∃ token token' t t', s.next = (.ok token, t) ∧ s'.next = (.ok token', t') ∧
        token'.uncommented = token.uncommented ∧ t.Abreast t' := by
  obtain ⟨same, abreast⟩ := h.next
  rcases read : s.next with ⟨_ | token, t⟩ <;> rcases read' : s'.next with ⟨_ | token', t'⟩ <;>
    rw [read, read'] at same abreast
  · cases same
    exact .inl ⟨_, t, t', rfl, rfl, abreast⟩
  · cases same
  · cases same
  · exact .inr ⟨token, token', t, t', rfl, rfl, (Except.ok.inj same).symm, abreast⟩

theorem uncommented_cons (token : Token) (r : Except Located (List Token)) :
    (r.map (token :: ·)).map (List.map Token.uncommented) =
      (r.map (List.map Token.uncommented)).map (token.uncommented :: ·) := by
  cases r <;> rfl

/-- Two scanners abreast of each other find the same tokens, but for comments, and the same fault. -/
theorem Abreast.tokens (h : s.Abreast s') : Finds (List.map Token.uncommented) s.tokens s'.tokens := by
  fun_induction Scanner.tokens s generalizing s' with
  | case1 s e t read =>
    rcases h.next_cases with ⟨_, _, t', again, read', abreast⟩ | ⟨_, _, _, _, again, _⟩ <;> cases read.symm.trans again
    rw [tokens_of_fault read']
    exact ⟨rfl, abreast⟩
  | case2 s token t read eof =>
    rcases h.next_cases with ⟨_, _, _, again, _⟩ | ⟨_, token', _, t', again, read', alike, abreast⟩ <;>
      cases read.symm.trans again
    have kind : token'.kind = token.kind := (congrArg Token.kind alike :)
    rw [tokens_of_next read', kind, if_pos eof]
    refine ⟨?_, abreast⟩
    show Except.ok [token.uncommented] = Except.ok [token'.uncommented]
    rw [alike]
  | case3 s token t read more rest last others ih =>
    rcases h.next_cases with ⟨_, _, _, again, _⟩ | ⟨_, token', _, t', again, read', alike, abreast⟩ <;>
      cases read.symm.trans again
    have kind : token'.kind = token.kind := (congrArg Token.kind alike :)
    obtain ⟨same, behind⟩ := ih abreast
    rw [others] at same behind
    rw [tokens_of_next read', kind, if_neg more]
    refine ⟨?_, behind⟩
    rw [uncommented_cons, uncommented_cons, same, alike]

/-- The package clause as a scanner finds it, within some tokens. -/
def packageName (steps : Nat) (s : Scanner) : Option String := do
  let (first, s) ← skipToToken steps s
  if first.kind ≠ .package then none
  match s.next with
  | (.ok ⟨.ident name, _, _⟩, _) => some name
  | _ => none

theorem packageName_ofString (text : String) :
    Syntax.packageName text = (Scanner.ofString text false).packageName (text.length + 1) := rfl

theorem Abreast.skipToToken (h : s.Abreast s') (steps : Nat) :
    (skipToToken steps s = none ∧ skipToToken steps s' = none) ∨
      ∃ token token' t t', skipToToken steps s = some (token, t) ∧ skipToToken steps s' = some (token', t') ∧
        token'.kind = token.kind ∧ t.Abreast t' := by
  induction steps generalizing s s' with
  | zero => exact .inl ⟨rfl, rfl⟩
  | succ steps ih =>
    rw [Syntax.skipToToken, Syntax.skipToToken]
    rcases h.next_cases with ⟨e, t, t', read, read', _⟩ | ⟨token, token', t, t', read, read', alike, abreast⟩
    · rw [read, read']
      exact .inl ⟨rfl, rfl⟩
    · have kind : token'.kind = token.kind := (congrArg Token.kind alike :)
      rw [read, read']
      dsimp only
      rw [kind]
      cases token.kind.isComma with
      | true => exact ih abreast
      | false => exact .inr ⟨token, token', t, t', rfl, rfl, kind, abreast⟩

theorem Abreast.packageName (h : s.Abreast s') (steps : Nat) : s'.packageName steps = s.packageName steps := by
  rw [Scanner.packageName, Scanner.packageName]
  rcases h.skipToToken steps with ⟨found, found'⟩ | ⟨token, token', t, t', found, found', kind, abreast⟩
  · rw [found, found']
  · rw [found, found']
    simp only [Option.bind_eq_bind, Option.bind_some, kind]
    rcases abreast.next_cases with ⟨e, u, u', read, read', _⟩ | ⟨name, name', u, u', read, read', alike, _⟩
    · rw [read, read']
    · obtain ⟨named, span, doc⟩ := name
      obtain ⟨named', span', doc'⟩ := name'
      cases alike
      rw [read, read']
      cases named <;> rfl

end Scanner

end Scanning

def Cursor.uncommented (c : Cursor) : Cursor := ⟨c.rest.map Token.uncommented, c.finish.uncommented⟩

namespace Cursor

variable (c : Cursor)

theorem current_uncommented : c.uncommented.current = c.current.uncommented := by
  obtain ⟨_ | ⟨token, rest⟩, finish⟩ := c <;> rfl

theorem following_uncommented : c.uncommented.following = c.following.uncommented := by
  obtain ⟨_ | ⟨first, _ | ⟨second, rest⟩⟩, finish⟩ := c <;> rfl

theorem advance_uncommented : c.uncommented.advance = c.advance.uncommented := by
  obtain ⟨_ | ⟨token, rest⟩, finish⟩ := c <;> rfl

theorem ofTokens_uncommented (tokens : List Token) :
    ofTokens (tokens.map Token.uncommented) = (ofTokens tokens).uncommented := by
  simp only [ofTokens, uncommented, List.map_dropLast, List.getLast?_map]
  cases tokens.getLast? <;> rfl

end Cursor

/-- Behind uncommented tokens a reader goes on as behind the tokens themselves, to what the function makes of the result. -/
def Parse.Blind {α β : Type} (f : α → β) (p : Parse α) (p' : Parse β) : Prop :=
  ∀ c, p' c.uncommented = (p c).map fun r => (f r.1, r.2.uncommented)

abbrev Parse.Steady {α : Type} (f : α → α) (p : Parse α) : Prop := Blind f p p

namespace Parse

namespace Blind

variable {α β γ δ : Type} {f : α → β} {g : γ → δ} {p : Parse α} {p' : Parse β}

theorem pure (a : α) : Blind f (Pure.pure a) (Pure.pure (f a)) := fun _ => rfl

theorem bind {k : α → Parse γ} {k' : β → Parse δ} (first : Blind f p p') (next : ∀ a, Blind g (k a) (k' (f a))) :
    Blind g (p >>= k) (p' >>= k') := by
  intro c
  have first := first c
  cases read : p c with
  | error e =>
    rw [read] at first
    rw [bind_of_error read, bind_of_error first]
    rfl
  | ok r =>
    rw [read] at first
    rw [bind_of_ok read, bind_of_ok first]
    exact next r.1 r.2

theorem current {k : Token → Parse γ} {k' : Token → Parse δ} (next : ∀ token, Blind g (k token) (k' token.uncommented)) :
    Blind g (Parse.current >>= k) (Parse.current >>= k') := by
  intro c
  rw [current_bind, current_bind, c.current_uncommented]
  exact next c.current c

theorem get {k : Cursor → Parse γ} {k' : Cursor → Parse δ} (next : ∀ c, Blind g (k c) (k' c.uncommented)) :
    Blind g (MonadState.get >>= k) (MonadState.get >>= k') := fun c => next c c

theorem check {kind : TokenKind} {k : Bool → Parse γ} {k' : Bool → Parse δ} (next : ∀ b, Blind g (k b) (k' b)) :
    Blind g (Parse.check kind >>= k) (Parse.check kind >>= k') := by
  intro c
  rw [check_bind, check_bind, c.current_uncommented]
  exact next _ c

theorem advance : Steady id Parse.advance := fun c =>
  congrArg (fun d => Except.ok ((), d)) c.advance_uncommented

theorem skipCommas : Steady id Parse.skipCommas := by
  intro c
  have dropped : (c.rest.map Token.uncommented).dropWhile (·.kind.isComma) =
      (c.rest.dropWhile (·.kind.isComma)).map Token.uncommented := List.dropWhile_map ..
  exact congrArg (fun rest => Except.ok ((), (⟨rest, c.finish.uncommented⟩ : Cursor))) dropped

theorem fail (fault : Fault) : Blind f (Parse.fail fault) (Parse.fail fault) := by
  intro c
  have here : c.uncommented.current.span = c.current.span := by rw [c.current_uncommented]; rfl
  exact congrArg (fun span => Except.error (⟨fault, span⟩ : Located)) here

theorem unexpected (wanted : Expected) : Blind f (Parse.unexpected wanted) (Parse.unexpected wanted) :=
  current fun _ => fail _

theorem expect (kind : TokenKind) : Steady id (Parse.expect kind) :=
  current fun token => by
    by_cases found : token.kind = kind
    · simp only [found, if_true, Token.uncommented]
      exact advance.bind fun _ => .pure token.span
    · simp only [found, if_false, Token.uncommented]
      exact .unexpected _

theorem separator : Steady id Parse.separator :=
  current fun token => by
    dsimp only [Token.uncommented]
    split_ifs
    · exact skipCommas
    · exact .pure ()
    · exact .unexpected _

theorem separatorOr (close : TokenKind) : Steady id (Parse.separatorOr close) :=
  current fun token => by
    dsimp only [Token.uncommented]
    split_ifs
    · exact skipCommas
    · exact .pure ()
    · exact .unexpected _

theorem items {stop : TokenKind} (each : Blind f p p') : Blind (List.map f) (Parse.items stop p) (Parse.items stop p') := by
  have upTo (count : Nat) : Blind (List.map f) (itemsUpTo stop p count) (itemsUpTo stop p' count) := by
    induction count with
    | zero => exact .unexpected _
    | succ count ih =>
      refine .current fun token => ?_
      dsimp only [Token.uncommented]
      split_ifs
      · exact .pure []
      · exact each.bind fun first => ih.bind fun others => .pure (first :: others)
  refine .get fun c => ?_
  have length : c.uncommented.rest.length = c.rest.length := List.length_map _
  rw [length]
  exact upTo _

theorem enclosed {close : TokenKind} (each : Blind f p p') :
    Blind (fun r => (r.1.map f, r.2)) (Parse.enclosed close p) (Parse.enclosed close p') := by
  refine skipCommas.bind fun _ => Blind.bind (items (f := f) ?_) fun elements => (expect close).bind fun stop => .pure (elements, stop)
  refine .current fun token => ?_
  have whole : Blind f (do
      let e ← p
      Parse.separatorOr close
      return e) (do
      let e ← p'
      Parse.separatorOr close
      return e) := each.bind fun e => (separatorOr close).bind fun _ => .pure e
  by_cases eof : token.kind = .eof
  · simp only [eof, if_true, Token.uncommented]
    exact (unexpected (f := id) _).bind fun _ => whole
  · simp only [eof, if_false, Token.uncommented]
    exact whole

end Blind

end Parse

open Parse

theorem label_steady : Steady id label := by
  refine .current fun ⟨kind, span, doc⟩ => ?_
  cases kind with
  | ident name =>
    dsimp only [Token.uncommented]
    split
    · exact (Blind.fail (f := id) _).bind fun _ => Blind.advance.bind fun _ => .pure _
    · exact Blind.advance.bind fun _ => .pure _
  | string name => exact Blind.advance.bind fun _ => .pure _
  | _ => exact .unexpected _

theorem atFieldStart_uncommented (c : Cursor) : atFieldStart c.uncommented = atFieldStart c := by
  rw [atFieldStart, atFieldStart, c.current_uncommented, c.following_uncommented]
  rfl

structure Level.Blind (level : Level) : Prop where
  disjunction : Parse.Steady Expr.uncommented level.disjunction
  disjunctionTail : ∀ left, Parse.Blind Expr.uncommented (level.disjunctionTail left) (level.disjunctionTail left.uncommented)
  unificationTail : ∀ left, Parse.Blind Expr.uncommented (level.unificationTail left) (level.unificationTail left.uncommented)
  unification : Parse.Steady Expr.uncommented level.unification
  unary : Parse.Steady Expr.uncommented level.unary
  selectorTail : ∀ base, Parse.Blind Expr.uncommented (level.selectorTail base) (level.selectorTail base.uncommented)
  field : Parse.Steady Decl.uncommented level.field

namespace Rule

variable {revision : Revision} {lower : Option Level} (below : ∀ level, lower = some level → level.Blind)

include below

theorem descend_blind {α β : Type} {f : α → β} {read : Level → Parse α} {read' : Level → Parse β}
    (each : ∀ level, level.Blind → Blind f (read level) (read' level)) :
    Blind f (descend lower read) (descend lower read') := by
  cases is : lower with
  | none => exact .fail _
  | some level => exact each level (below level is)

theorem expression_steady : Steady Expr.uncommented (expression lower) :=
  descend_blind below fun _ blind => blind.disjunction

theorem declaration_steady : Steady Decl.uncommented (declaration lower) := by
  refine .get fun c => ?_
  rw [atFieldStart_uncommented]
  split
  · exact descend_blind below fun _ blind => blind.field
  · exact (expression_steady below).bind fun value => .pure (Decl.embed value)

theorem primary_steady : Steady Expr.uncommented (primary lower) := by
  refine .current fun ⟨kind, span, doc⟩ => ?_
  have leaf (e : Expr) (same : e.uncommented = e) :
      Blind Expr.uncommented (do advance; return e : Parse Expr) (do advance; return e) :=
    Blind.advance.bind fun _ => by
      have read := Blind.pure (f := Expr.uncommented) e
      rwa [same] at read
  cases kind with
  | null | true | false | int | float | string | ident => exact leaf _ rfl
  | leftBrace =>
    refine Blind.advance.bind fun _ => (Blind.enclosed (declaration_steady below)).bind fun ⟨decls, stop⟩ => ?_
    have read := Blind.pure (f := Expr.uncommented) (.struct decls (span.merge stop))
    rwa [Expr.uncommented, Decl.uncommentedAll_eq_map] at read
  | leftBracket =>
    refine Blind.advance.bind fun _ => (Blind.enclosed (expression_steady below)).bind fun ⟨items, stop⟩ => ?_
    have read := Blind.pure (f := Expr.uncommented) (.list items (span.merge stop))
    rwa [Expr.uncommented, Expr.uncommentedAll_eq_map] at read
  | leftParen =>
    refine Blind.advance.bind fun _ => (expression_steady below).bind fun inner => ?_
    exact (Blind.expect _).bind fun stop => .pure (Expr.paren inner (span.merge stop))
  | ellipsis => exact .fail _
  | _ => exact .unexpected _

theorem selectorTail_blind (base : Expr) :
    Blind Expr.uncommented (selectorTail lower base) (selectorTail lower base.uncommented) := by
  refine .check fun dot => ?_
  split
  · refine Blind.advance.bind fun _ => descend_blind below fun level blind => .current fun ⟨kind, span, doc⟩ => ?_
    cases kind with
    | ident name | string name => exact Blind.advance.bind fun _ => blind.selectorTail (.select base ⟨name, span⟩)
    | _ => exact .unexpected _
  · exact .pure base

theorem unary_steady : Steady Expr.uncommented (unary lower) := by
  refine .current fun ⟨kind, span, doc⟩ => ?_
  have operator (op : UnaryOp) : Steady Expr.uncommented (do
      advance
      descend lower fun level => do
        let operand ← level.unary
        return .unary op operand (span.merge operand.span) : Parse Expr) := by
    refine Blind.advance.bind fun _ => descend_blind below fun level blind => blind.unary.bind fun operand => ?_
    rw [operand.span_uncommented]
    exact .pure (Expr.unary op operand (span.merge operand.span))
  cases kind with
  | minus | star => exact operator _
  | _ => exact (primary_steady below).bind fun base => selectorTail_blind below base

theorem unificationTail_blind (left : Expr) :
    Blind Expr.uncommented (unificationTail lower left) (unificationTail lower left.uncommented) := by
  refine .check fun ampersand => ?_
  split
  · refine Blind.advance.bind fun _ => descend_blind below fun level blind => ?_
    exact blind.unary.bind fun right => blind.unificationTail (.binary .unify left right)
  · exact .pure left

theorem unification_steady : Steady Expr.uncommented (unification lower) :=
  (unary_steady below).bind fun left => unificationTail_blind below left

theorem disjunctionTail_blind (left : Expr) :
    Blind Expr.uncommented (disjunctionTail lower left) (disjunctionTail lower left.uncommented) := by
  refine .check fun pipe => ?_
  split
  · refine Blind.advance.bind fun _ => descend_blind below fun level blind => ?_
    exact blind.unification.bind fun right => blind.disjunctionTail (.binary .disjoin left right)
  · exact .pure left

theorem disjunction_steady : Steady Expr.uncommented (disjunction lower) :=
  (unification_steady below).bind fun left => disjunctionTail_blind below left

omit below in
theorem colon_steady (label : Label) : Steady id (do
    match (← current).kind with
    | .colon =>
      advance
      return label.kind
    | .doubleColon =>
      if revision = .legacy then
        advance
        return .definition
      else fail .doubleColon
    | _ => unexpected .colon : Parse LabelKind) := by
  refine .current fun ⟨kind, span, doc⟩ => ?_
  cases kind with
  | colon => exact Blind.advance.bind fun _ => .pure _
  | doubleColon =>
    dsimp only [Token.uncommented]
    split
    · exact Blind.advance.bind fun _ => .pure _
    · exact .fail _
  | _ => exact .unexpected _

theorem fieldValue_steady : Steady Expr.uncommented (do
    if atFieldStart (← get) then
      let inner ← descend lower (·.field)
      return .struct [inner] inner.span
    else expression lower : Parse Expr) := by
  refine .get fun c => ?_
  rw [atFieldStart_uncommented]
  split
  · refine (descend_blind below fun _ blind => blind.field).bind fun inner => ?_
    rw [inner.span_uncommented]
    exact .pure (Expr.struct [inner] inner.span)
  · exact expression_steady below

theorem field_steady : Steady Decl.uncommented (field revision lower) := by
  refine .current fun token => label_steady.bind fun label => .check fun optional => ?_
  have whole (kind : LabelKind) (value : Expr) : Blind Decl.uncommented
      (pure (.field { label with kind } optional token.doc (label.span.merge value.span) value))
      (pure (.field { label with kind } optional [] (label.span.merge value.uncommented.span) value.uncommented)) := by
    rw [value.span_uncommented]
    exact .pure _
  dsimp only
  split
  · exact Blind.advance.bind fun _ => (colon_steady label).bind fun kind =>
      (fieldValue_steady below).bind fun value => whole kind value
  · exact (colon_steady label).bind fun kind => (fieldValue_steady below).bind fun value => whole kind value

end Rule

theorem level_blind (revision : Revision) (n : Nat) : (Level.ofHeight revision n).Blind := by
  have step (lower : Option Level) (below : ∀ level, lower = some level → level.Blind) :
      (Level.above revision lower).Blind :=
    { disjunction := Rule.disjunction_steady below
      disjunctionTail := Rule.disjunctionTail_blind below
      unificationTail := Rule.unificationTail_blind below
      unification := Rule.unification_steady below
      unary := Rule.unary_steady below
      selectorTail := Rule.selectorTail_blind below
      field := Rule.field_steady below }
  induction n with
  | zero => exact step none fun level impossible => by cases impossible
  | succ n ih => exact step (some (.ofHeight revision n)) fun level same => by cases same; exact ih

theorem importClause_steady : Steady id importClause := by
  refine .current fun start => Blind.bind (f := id) ?_ fun localAs => .current fun ⟨kind, span, doc⟩ => ?_
  · refine .current fun ⟨kind, span, doc⟩ => ?_
    cases kind with
    | ident name => exact Blind.advance.bind fun _ => .pure _
    | _ => exact .pure none
  · cases kind with
    | string path => exact Blind.advance.bind fun _ => .pure _
    | _ => exact .unexpected _

theorem importGroup_steady : Steady id importGroup := by
  have clause : Steady id (do
      let clause ← importClause
      separatorOr .rightParen
      return clause) :=
    importClause_steady.bind fun clause => (Blind.separatorOr _).bind fun _ => .pure clause
  refine .check fun paren => ?_
  split
  · refine Blind.advance.bind fun _ => Blind.skipCommas.bind fun _ => ?_
    have clauses : Steady (List.map id) (items .rightParen do
        let clause ← importClause
        separatorOr .rightParen
        return clause) := Blind.items clause
    rw [List.map_id_fun] at clauses
    exact clauses.bind fun clauses => Blind.advance.bind fun _ => .pure clauses
  · exact importClause_steady.bind fun clause => .pure [clause]

theorem imports_steady (count : Nat) : Steady id (imports count) := by
  induction count with
  | zero => exact .unexpected _
  | succ count ih =>
    refine .check fun word => ?_
    split
    · refine Blind.advance.bind fun _ => importGroup_steady.bind fun group => Blind.separator.bind fun _ => ?_
      exact ih.bind fun others => .pure (group ++ others)
    · exact .pure []

theorem packageClause_steady : Steady id packageClause := by
  refine .check fun word => ?_
  split
  · refine Blind.advance.bind fun _ => .current fun ⟨kind, span, doc⟩ => ?_
    cases kind with
    | ident name => exact Blind.advance.bind fun _ => Blind.separator.bind fun _ => .pure _
    | _ => exact .unexpected _
  · exact .pure none

theorem file_steady (revision : Revision) : Steady File.uncommented (file revision) := by
  have below : ∀ level, some (Level.ofHeight revision (nestingLimit - 1)) = some level → level.Blind :=
    fun level same => by cases same; exact level_blind revision _
  have declaration : Steady Decl.uncommented (do
      let decl ← Rule.declaration (some (Level.ofHeight revision (nestingLimit - 1)))
      separator
      return decl) := (Rule.declaration_steady below).bind fun decl => Blind.separator.bind fun _ => .pure decl
  refine Blind.skipCommas.bind fun _ => .current fun first => packageClause_steady.bind fun package => .get fun c => ?_
  have length : c.uncommented.rest.length = c.rest.length := List.length_map _
  rw [length]
  refine (imports_steady _).bind fun imports => ?_
  refine Blind.bind (Blind.items (f := Decl.uncommented) (.check fun late => ?_)) fun decls =>
    .pure (⟨package, imports, decls, first.doc, []⟩ : File)
  dsimp only
  split
  · exact (Blind.fail (f := id) _).bind fun _ => declaration
  · exact declaration

/-- The tree of some tokens, or the error in them. -/
def File.ofTokens (source : SourceText) (revision : Revision) (read : Except Located (List Token)) :
    Except SyntaxError File :=
  match read.bind fun tokens => file revision (Cursor.ofTokens tokens) with
  | .ok (tree, _) => .ok tree
  | .error e => .error (e.within source)

/-- But for comments, a text is what its tokens without comments are. -/
theorem File.ofSource_eq_ofTokens (source : SourceText) (revision : Revision) (keep : Bool) :
    (File.ofSource source revision keep).map File.uncommented =
      File.ofTokens source revision ((Scanner.ofString source.text keep).tokens.1.map (List.map Token.uncommented)) := by
  rw [File.ofSource]
  dsimp only
  rcases (Scanner.ofString source.text keep).tokens with ⟨_ | tokens, scanner⟩
  · rfl
  · have steady := file_steady revision (Cursor.ofTokens tokens)
    rw [← Cursor.ofTokens_uncommented] at steady
    simp only [File.ofTokens, Except.map, Except.bind, StateT.run, steady]
    cases file revision (Cursor.ofTokens tokens) <;> rfl

/-- A text is read the same way with comments and without: to the same tree but for comments, or to the same error. -/
theorem File.ofSource_uncommented (source : SourceText) (revision : Revision) (keep keep' : Bool) :
    (File.ofSource source revision keep).map File.uncommented =
      (File.ofSource source revision keep').map File.uncommented := by
  have abreast : (Scanner.ofString source.text keep).Abreast (Scanner.ofString source.text keep') := ⟨rfl, rfl⟩
  rw [ofSource_eq_ofTokens, ofSource_eq_ofTokens, abreast.tokens.1]

theorem ParsedFile.read_uncommented (path text : String) (revision : Revision) (keep keep' : Bool) :
    (ParsedFile.read path text revision keep).map ParsedFile.uncommented =
      (ParsedFile.read path text revision keep').map ParsedFile.uncommented := by
  have wrapped (keep : Bool) : (ParsedFile.read path text revision keep).map ParsedFile.uncommented =
      ((File.ofSource ⟨path, text⟩ revision keep).map File.uncommented).map (⟨⟨path, text⟩, ·⟩) := by
    rw [ParsedFile.read]
    cases File.ofSource ⟨path, text⟩ revision keep <;> rfl
  rw [wrapped, wrapped, File.ofSource_uncommented]

end StackLattice.Syntax
