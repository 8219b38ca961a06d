import StackLattice.Proofs.Syntax.Steps

/-!
What is derived is read: tokens that the grammar derives a tree from are read as that tree, unless the levels that
may be used are fewer than the derivation nests.
-/

namespace StackLattice.Syntax

open Parse Grammar

namespace TokenKind

/-- Whether an expression may start with the token. -/
def opens : TokenKind → Bool
  | ident _ | string _ | int _ | float _ | null | true | false => Bool.true
  | leftBrace | leftBracket | leftParen | star | minus => Bool.true
  | _ => Bool.false

/-- Whether the token ends an element of a list. -/
def ends : TokenKind → Bool
  | comma _ | rightBrace | rightBracket | rightParen | eof => Bool.true
  | _ => Bool.false

/-- Whether the token may be a label. -/
def names : TokenKind → Bool
  | ident _ | string _ => Bool.true
  | _ => Bool.false

/-- Whether the token makes a field of a name or string in front of it. -/
def marksField : TokenKind → Bool
  | colon | doubleColon | question => Bool.true
  | _ => Bool.false

theorem not_ends_of_opens {k : TokenKind} (h : k.opens = Bool.true) : k.ends = Bool.false := by
  cases k <;> first | rfl | cases h

theorem not_comma_of_opens {k : TokenKind} (h : k.opens = Bool.true) : k.isComma = Bool.false := by
  cases k <;> first | rfl | cases h

theorem ends_of_comma {k : TokenKind} (h : k.isComma = Bool.true) : k.ends = Bool.true := by
  cases k <;> first | rfl | cases h

end TokenKind

/-- A reading arrives at a result behind the tokens it takes, or finds itself too deep if it may. -/
def Arrives {α : Type} (deep : Prop) (r : Except Located (α × Cursor)) (a : α) (c : Cursor) : Prop :=
  r = .ok (a, c) ∨ deep ∧ ∃ span, r = .error ⟨.tooDeep, span⟩

namespace Arrives

variable {α β : Type} {deep : Prop} {a : α} {b : β} {c d c' : Cursor}

theorem ok {r : Except Located (α × Cursor)} (h : r = .ok (a, c)) : Arrives deep r a c := .inl h

theorem bind {p : Parse α} {k : α → Parse β} (first : Arrives deep (p c) a d)
    (second : Arrives deep (k a d) b c') : Arrives deep ((p >>= k) c) b c' := by
  rcases first with read | ⟨isDeep, span, failed⟩
  · rw [bind_of_ok read]
    exact second
  · exact .inr ⟨isDeep, span, bind_of_error failed⟩

theorem eq_ok {r : Except Located (α × Cursor)} (h : Arrives deep r a c) (shallow : ¬deep) : r = .ok (a, c) :=
  h.resolve_right fun ⟨isDeep, _⟩ => shallow isDeep

theorem descend {revision : Revision} {m k : Nat} {read : Level → Parse α}
    (h : ∀ j, m = j + 1 → Arrives (j < k) (read (.ofHeight revision j) c) a c') :
    Arrives (m < k + 1) (Rule.descend (Level.below revision m) read c) a c' := by
  cases m with
  | zero => exact .inr ⟨Nat.succ_pos k, c.current.span, rfl⟩
  | succ j => exact (h j rfl).imp_right fun ⟨less, failed⟩ => ⟨Nat.succ_lt_succ less, failed⟩

end Arrives

section Steps

variable {α : Type} {deep : Prop} {c : Cursor}

theorem dropWhile_commas {ts : List Token} (commas : Commas ts) (other : c.current.kind.isComma = false) :
    ({ c.prepend ts with rest := (c.prepend ts).rest.dropWhile (·.kind.isComma) } : Cursor) = c := by
  obtain ⟨rest, finish⟩ := c
  have rest : rest.dropWhile (·.kind.isComma) = rest := by
    cases rest with
    | nil => rfl
    | cons t rest => exact List.dropWhile_cons_of_neg (Bool.eq_false_iff.mp other)
  simp only [Cursor.prepend, List.dropWhile_append_of_pos commas, rest]

theorem separatorOr_reads {stop : TokenKind} {ts : List Token} (commas : Commas ts)
    (other : c.current.kind.isComma = false) (last : ts = [] → c.current.kind = stop) :
    separatorOr stop (c.prepend ts) = .ok ((), c) := by
  rw [separatorOr, current_bind]
  cases ts with
  | nil =>
    rw [Cursor.prepend_nil, other, last rfl]
    simp only [if_true]
    rfl
  | cons t ts =>
    rw [Cursor.current_prepend, commas t List.mem_cons_self]
    simp only [if_true]
    exact congrArg (fun c => Except.ok ((), c)) (dropWhile_commas commas other)

theorem separator_reads {ts : List Token} (commas : Commas ts) (other : c.current.kind.isComma = false)
    (last : ts = [] → c.current.kind = .eof) : separator (c.prepend ts) = .ok ((), c) := by
  rw [separator, current_bind]
  cases ts with
  | nil =>
    rw [Cursor.prepend_nil, other, last rfl]
    simp only [if_true]
    rfl
  | cons t ts =>
    rw [Cursor.current_prepend, commas t List.mem_cons_self]
    simp only [if_true]
    exact congrArg (fun c => Except.ok ((), c)) (dropWhile_commas commas other)

theorem expect_reads {t : Token} {kind : TokenKind} (is : t.kind = kind) :
    expect kind (c.prepend [t]) = .ok (t.span, c) := by
  rw [expect, current_bind, Cursor.current_prepend, if_pos is]
  rfl

/-- Tokens that start as an expression or a field does. -/
def Starts (ts : List Token) : Prop := ∃ t us, ts = t :: us ∧ t.kind.opens = true

theorem Starts.append {ts : List Token} (h : Starts ts) (us : List Token) : Starts (ts ++ us) := by
  obtain ⟨t, rest, rfl, opens⟩ := h
  exact ⟨t, rest ++ us, rfl, opens⟩

theorem Starts.ne_nil {ts : List Token} (h : Starts ts) : ts ≠ [] := by
  obtain ⟨t, rest, rfl, -⟩ := h
  exact List.cons_ne_nil t rest

theorem length_le_written {pieces : List (Piece α)} (filled : ∀ p ∈ pieces, p.tokens ≠ []) :
    pieces.length ≤ (written pieces).length := by
  induction pieces with
  | nil => exact Nat.zero_le _
  | cons p ps ih =>
    have first := List.length_pos_iff.mpr (filled p List.mem_cons_self)
    have rest := ih fun q member => filled q (List.mem_cons_of_mem p member)
    simp only [written_cons, List.length_append, List.length_cons]
    omega

/-- What stands at the start of pieces in front of a cursor ends no element and is no comma. -/
theorem current_written {pieces : List (Piece α)} (starts : ∀ p ∈ pieces, Starts p.tokens) :
    (c.prepend (written pieces)).current = c.current ∧ pieces = [] ∨
      (c.prepend (written pieces)).current.kind.opens = true ∧ pieces ≠ [] := by
  cases pieces with
  | nil => exact .inl ⟨rfl, rfl⟩
  | cons p ps =>
    obtain ⟨t, us, eq, opens⟩ := starts p List.mem_cons_self
    refine .inr ⟨?_, List.cons_ne_nil p ps⟩
    rw [written_cons, eq]
    exact opens

theorem itemsUpTo_reads {stop : TokenKind} {item : Parse α} {pieces : List (Piece α)} {count : Nat}
    (ends : stop.ends = true) (noComma : stop.isComma = false) (stopped : c.current.kind = stop)
    (starts : ∀ p ∈ pieces, Starts p.tokens)
    (each : ∀ p ∈ pieces, ∀ c', Commas p.commas → c'.current.kind.isComma = false →
      (p.commas = [] → c'.current.kind = stop) →
      Arrives deep (item (c'.prepend (p.tokens ++ p.commas))) p.tree c')
    (separated : Separated [] pieces) (enough : pieces.length < count) :
    Arrives deep (itemsUpTo stop item count (c.prepend (written pieces))) (trees pieces) c := by
  induction pieces generalizing count with
  | nil =>
    obtain ⟨count, rfl⟩ := Nat.exists_eq_succ_of_ne_zero (Nat.ne_zero_of_lt enough)
    refine .ok ?_
    rw [itemsUpTo, current_bind, show c.prepend (written []) = c from rfl, if_pos stopped]
    rfl
  | cons p ps ih =>
    obtain ⟨count, rfl⟩ := Nat.exists_eq_succ_of_ne_zero (Nat.ne_zero_of_lt enough)
    obtain ⟨⟨commas, last⟩, separated⟩ := separated
    obtain ⟨t, us, eq, opens⟩ := starts p List.mem_cons_self
    have other : ¬ (c.prepend (written (p :: ps))).current.kind = stop := by
      rw [written_cons, eq]
      intro same
      rw [show t.kind = stop from same] at opens
      rw [TokenKind.not_ends_of_opens opens] at ends
      cases ends
    have starts := fun q member => starts q (List.mem_cons_of_mem p member)
    have next := current_written (c := c) starts
    rw [itemsUpTo, current_bind, if_neg other, written_cons, Cursor.prepend_append]
    refine .bind (each p List.mem_cons_self _ commas ?_ fun none => ?_) (.bind (ih starts ?_ separated ?_) (.ok rfl))
    · rcases next with ⟨at_, -⟩ | ⟨opens, -⟩
      · rw [at_, stopped, noComma]
      · exact TokenKind.not_comma_of_opens opens
    · have nothing := last none
      rw [List.append_nil] at nothing
      rw [nothing]
      exact stopped
    · exact fun q member => each q (List.mem_cons_of_mem p member)
    · exact Nat.lt_of_succ_lt_succ enough

/-- An element of a list in brackets, with the commas behind it. -/
theorem element_reads {stop : TokenKind} {element : Parse α} {p : Piece α} {c' : Cursor} (ends : stop.ends = true)
    (starts : Starts p.tokens)
    (each : ∀ c', c'.current.kind.ends = true → Arrives deep (element (c'.prepend p.tokens)) p.tree c')
    (commas : Commas p.commas) (other : c'.current.kind.isComma = false)
    (last : p.commas = [] → c'.current.kind = stop) :
    Arrives deep ((do
      if (← current).kind = .eof then unexpected (.closing stop)
      let e ← element
      separatorOr stop
      return e : Parse α) (c'.prepend (p.tokens ++ p.commas))) p.tree c' := by
  obtain ⟨t, us, eq, opens⟩ := starts
  have more : (c'.prepend (p.tokens ++ p.commas)).current.kind ≠ .eof := by
    rw [eq]
    intro same
    rw [show t.kind = .eof from same] at opens
    cases opens
  rw [current_bind]
  dsimp only
  rw [if_neg more, Cursor.prepend_append]
  refine .bind (each _ ?_) (.bind (.ok (separatorOr_reads commas other last)) (.ok rfl))
  cases here : p.commas with
  | nil =>
    rw [Cursor.prepend_nil, last here]
    exact ends
  | cons comma others =>
    rw [here] at commas
    exact TokenKind.ends_of_comma (commas comma List.mem_cons_self)

theorem enclosed_reads {stop : TokenKind} {element : Parse α} {commas : List Token} {pieces : List (Piece α)}
    {closing : Token} (ends : stop.ends = true) (noComma : stop.isComma = false) (areCommas : Commas commas)
    (starts : ∀ p ∈ pieces, Starts p.tokens)
    (each : ∀ p ∈ pieces, ∀ c', c'.current.kind.ends = true → Arrives deep (element (c'.prepend p.tokens)) p.tree c')
    (separated : Separated [] pieces) (closes : closing.kind = stop) :
    Arrives deep (enclosed stop element (c.prepend (commas ++ written pieces ++ [closing])))
      (trees pieces, closing.span) c := by
  have stopped : (c.prepend [closing]).current.kind = stop := closes
  have other : ((c.prepend [closing]).prepend (written pieces)).current.kind.isComma = false := by
    rcases current_written (c := c.prepend [closing]) starts with ⟨at_, -⟩ | ⟨opens, -⟩
    · rw [at_, stopped, noComma]
    · exact TokenKind.not_comma_of_opens opens
  rw [enclosed, skipCommas_bind, Cursor.prepend_append, Cursor.prepend_append, dropWhile_commas areCommas other]
  refine .bind (a := trees pieces) (d := c.prepend [closing]) ?_ (.bind (.ok (expect_reads closes)) (.ok rfl))
  rw [items, get_bind]
  refine itemsUpTo_reads ends noComma stopped starts (fun p member c' => ?_) separated ?_
  · exact element_reads ends (starts p member) (each p member)
  · have fewer := length_le_written fun p member => (starts p member).ne_nil
    simp only [Cursor.prepend, List.length_append]
    omega

end Steps

section Starts

variable {revision : Revision} {n : Nat} {ts : List Token} {e : Expr} {c : Cursor}

theorem opens_of_kind {t : Token} {kind : TokenKind} {us : List Token} (is : t.kind = kind)
    (opens : kind.opens = true) : Starts (t :: us) := ⟨t, us, rfl, is ▸ opens⟩

theorem Grammar.Primary.starts (h : Primary revision n ts e) : Starts ts := by
  cases h with
  | leaf leaf => cases leaf with
    | _ is => exact opens_of_kind is rfl
  | struct is | list is | paren is => exact opens_of_kind is rfl

theorem Grammar.Primary.no_operator (h : Primary revision n ts e) :
    (c.prepend ts).current.kind ≠ .minus ∧ (c.prepend ts).current.kind ≠ .star := by
  have differs {t : Token} {kind : TokenKind} {us : List Token} (is : t.kind = kind)
      (other : kind ≠ .minus ∧ kind ≠ .star) :
      (c.prepend (t :: us)).current.kind ≠ .minus ∧ (c.prepend (t :: us)).current.kind ≠ .star := is ▸ other
  cases h with
  | leaf leaf => cases leaf with
    | _ is => exact differs is ⟨TokenKind.noConfusion, TokenKind.noConfusion⟩
  | struct is | list is | paren is => exact differs is (by decide)

theorem Grammar.Unary.starts (h : Unary revision n ts e) : Starts ts := by
  cases h with
  | negated is | marked is => exact opens_of_kind is rfl
  | postfixed primary _ => exact primary.starts.append _

theorem Grammar.Unification.starts (h : Unification revision n ts e) : Starts ts := by
  cases h with
  | unification first _ => exact first.starts.append _

theorem Grammar.Expression.starts (h : Expression revision n ts e) : Starts ts := by
  cases h with
  | disjunction first _ => exact first.starts.append _

theorem Grammar.Declaration.starts {d : Decl} (h : Declaration revision n ts d) : Starts ts := by
  cases h with
  | field field =>
    cases field with
    | field labels => cases labels with
      | name is _ | string is => exact opens_of_kind is rfl
  | embed expression => exact expression.starts

/-- A cursor at a token that makes no field of what is in front of it. -/
def Plain (c : Cursor) : Prop := c.current.kind.marksField = false

theorem plain_of_ends (h : c.current.kind.ends = true) : Plain c := by
  unfold Plain
  cases is : c.current.kind <;> rw [is] at h <;> first | rfl | cases h

theorem atFieldStart_eq (c : Cursor) :
    atFieldStart c = (c.current.kind.names && c.following.kind.marksField) := by
  rw [atFieldStart]
  congr 1

theorem not_atFieldStart_of_kind {t : Token} {kind : TokenKind} {us : List Token} (is : t.kind = kind)
    (other : kind.names = false) : atFieldStart (c.prepend (t :: us)) = false := by
  rw [atFieldStart_eq, Cursor.current_prepend, is, other, Bool.false_and]

theorem not_atFieldStart_of_plain {t : Token} (plain : Plain c) : atFieldStart (c.prepend [t]) = false := by
  have following : (c.prepend [t]).following = c.current := rfl
  rw [atFieldStart_eq, following, plain, Bool.and_false]

section Links

variable {P : TokenKind → Prop}

/-- Behind what selectors follow stands a dot, or whatever is behind the selectors. -/
theorem Grammar.Selection.current {base : Expr} (h : Selection revision n base ts e) (dot : P .dot)
    (next : P c.current.kind) : P (c.prepend ts).current.kind := by
  cases h with
  | done => exact next
  | more is => exact is ▸ dot

theorem Grammar.Unified.current {left : Expr} (h : Unified revision n left ts e) (ampersand : P .ampersand)
    (next : P c.current.kind) : P (c.prepend ts).current.kind := by
  cases h with
  | done => exact next
  | more is => exact is ▸ ampersand

theorem Grammar.Disjoined.current {left : Expr} (h : Disjoined revision n left ts e) (bar : P .pipe)
    (next : P c.current.kind) : P (c.prepend ts).current.kind := by
  cases h with
  | done => exact next
  | more is => exact is ▸ bar

end Links

theorem Grammar.Primary.not_atFieldStart (h : Primary revision n ts e) (plain : Plain c) :
    atFieldStart (c.prepend ts) = false := by
  cases h with
  | leaf => exact not_atFieldStart_of_plain plain
  | struct is | list is | paren is => exact not_atFieldStart_of_kind is rfl

theorem Grammar.Unary.not_atFieldStart (h : Unary revision n ts e) (plain : Plain c) :
    atFieldStart (c.prepend ts) = false := by
  cases h with
  | negated is | marked is => exact not_atFieldStart_of_kind is rfl
  | postfixed primary tail =>
    rw [Cursor.prepend_append]
    exact primary.not_atFieldStart (tail.current (P := (·.marksField = false)) rfl plain)

theorem Grammar.Expression.not_atFieldStart (h : Expression revision n ts e) (plain : Plain c) :
    atFieldStart (c.prepend ts) = false := by
  cases h with
  | disjunction first tail =>
    cases first with
    | unification first others =>
      rw [Cursor.prepend_append, Cursor.prepend_append]
      have plain := tail.current (P := (·.marksField = false)) rfl plain
      exact first.not_atFieldStart (others.current (P := (·.marksField = false)) rfl plain)

theorem Grammar.FieldDecl.atFieldStart {d : Decl} (h : FieldDecl revision n ts d) :
    atFieldStart (c.prepend ts) = true := by
  cases h with
  | @field _ name colon mark ts label optional kind value labels isMark isColon _ =>
    have named : name.kind.names = true := by
      cases labels with
      | name is _ | string is => exact (congrArg TokenKind.names is).trans rfl
    have marks : (c.prepend (name :: mark ++ colon :: ts)).following.kind.marksField = true := by
      cases isMark with
      | required => cases isColon with
        | single is => exact (congrArg TokenKind.marksField is).trans rfl
        | double is _ => exact (congrArg TokenKind.marksField is).trans rfl
      | optional is => exact (congrArg TokenKind.marksField is).trans rfl
    rw [atFieldStart_eq, marks, Bool.and_true]
    exact named

end Starts

section Levels

variable {revision : Revision}

/-- What the readings of a level arrive at, from derivations that may nest a number of levels further. -/
structure Level.Complete (revision : Revision) (n m : Nat) : Prop where
  disjunction : ∀ {ts e c}, Expression revision (n + 1) ts e → c.current.kind.ends = true →
    Arrives (m < n) ((ofHeight revision m).disjunction (c.prepend ts)) e c
  disjunctionTail : ∀ {left ts e c}, Disjoined revision n left ts e → c.current.kind.ends = true →
    Arrives (m < n) ((ofHeight revision m).disjunctionTail left (c.prepend ts)) e c
  unification : ∀ {ts e c}, Unification revision n ts e → c.current.kind ≠ .ampersand → c.current.kind ≠ .dot →
    Arrives (m < n) ((ofHeight revision m).unification (c.prepend ts)) e c
  unificationTail : ∀ {left ts e c}, Unified revision n left ts e → c.current.kind ≠ .ampersand →
    c.current.kind ≠ .dot → Arrives (m < n) ((ofHeight revision m).unificationTail left (c.prepend ts)) e c
  unary : ∀ {ts e c}, Unary revision n ts e → c.current.kind ≠ .dot →
    Arrives (m < n) ((ofHeight revision m).unary (c.prepend ts)) e c
  selectorTail : ∀ {base ts e c}, Selection revision n base ts e → c.current.kind ≠ .dot →
    Arrives (m < n) ((ofHeight revision m).selectorTail base (c.prepend ts)) e c
  field : ∀ {ts d c}, FieldDecl revision n ts d → c.current.kind.ends = true →
    Arrives (m < n) ((ofHeight revision m).field (c.prepend ts)) d c

namespace Rule

variable {n m : Nat} {ts : List Token} {e : Expr} {c : Cursor}
  (lower : ∀ k j, n = k + 1 → m = j + 1 → Level.Complete revision k j)
include lower

theorem expression_reads (h : Expression revision n ts e) (ends : c.current.kind.ends = true) :
    Arrives (m < n) (expression (Level.below revision m) (c.prepend ts)) e c := by
  cases h with
  | disjunction first tail =>
    exact .descend fun j same => (lower _ j rfl same).disjunction (.disjunction first tail) ends

theorem declaration_reads {d : Decl} (h : Declaration revision n ts d) (ends : c.current.kind.ends = true) :
    Arrives (m < n) (declaration (Level.below revision m) (c.prepend ts)) d c := by
  rw [declaration, get_bind]
  cases h with
  | field field =>
    rw [field.atFieldStart, if_pos rfl]
    exact .descend fun j same => (lower _ j rfl same).field field ends
  | embed expression =>
    rw [expression.not_atFieldStart (plain_of_ends ends), if_neg Bool.false_ne_true]
    exact .bind (expression_reads lower expression ends) (.ok rfl)

theorem primary_reads (h : Primary revision n ts e) :
    Arrives (m < n) (primary (Level.below revision m) (c.prepend ts)) e c := by
  rw [primary, current_bind]
  cases h with
  | leaf leaf =>
    rw [Cursor.current_prepend]
    cases leaf with
    | _ is =>
      simp only [is]
      exact .ok rfl
  | struct is commas all separated closes =>
    have starts := fun p member => (all p member).starts
    rw [List.append_assoc, List.cons_append, ← List.append_assoc, Cursor.current_prepend]
    simp only [is]
    rw [advance_bind, Cursor.advance_prepend]
    refine .bind (enclosed_reads rfl rfl commas starts (fun p member c' ends => ?_) separated closes) (.ok rfl)
    exact declaration_reads lower (all p member) ends
  | list is commas all separated closes =>
    have starts := fun p member => (all p member).starts
    rw [List.append_assoc, List.cons_append, ← List.append_assoc, Cursor.current_prepend]
    simp only [is]
    rw [advance_bind, Cursor.advance_prepend]
    refine .bind (enclosed_reads rfl rfl commas starts (fun p member c' ends => ?_) separated closes) (.ok rfl)
    exact expression_reads lower (all p member) ends
  | @paren _ opening closing ts e is inner closes =>
    rw [List.cons_append, Cursor.current_prepend]
    simp only [is]
    rw [advance_bind, Cursor.advance_prepend, Cursor.prepend_append]
    have ends : (c.prepend [closing]).current.kind.ends = true := (congrArg TokenKind.ends closes).trans rfl
    exact .bind (expression_reads lower inner ends) (.bind (.ok (expect_reads closes)) (.ok rfl))

theorem selectorTail_reads {base : Expr} (h : Selection revision n base ts e) (noDot : c.current.kind ≠ .dot) :
    Arrives (m < n) (selectorTail (Level.below revision m) base (c.prepend ts)) e c := by
  rw [selectorTail, check_bind]
  cases h with
  | done =>
    rw [Cursor.prepend_nil, if_neg (by simpa using noDot)]
    exact .ok rfl
  | more is selected tail =>
    rw [Cursor.current_prepend, is, if_pos (beq_self_eq_true _), advance_bind, Cursor.advance_prepend]
    refine .descend fun j same => ?_
    have last := (lower _ j rfl same).selectorTail tail noDot
    rw [current_bind, Cursor.current_prepend]
    cases selected with
    | _ is =>
      simp only [is]
      exact last

theorem unary_reads (h : Unary revision n ts e) (noDot : c.current.kind ≠ .dot) :
    Arrives (m < n) (unary (Level.below revision m) (c.prepend ts)) e c := by
  rw [unary, current_bind]
  cases h with
  | negated is operand =>
    rw [Cursor.current_prepend]
    simp only [is]
    rw [advance_bind, Cursor.advance_prepend]
    exact .descend fun j same => .bind ((lower _ j rfl same).unary operand noDot) (.ok rfl)
  | marked is operand =>
    rw [Cursor.current_prepend]
    simp only [is]
    rw [advance_bind, Cursor.advance_prepend]
    exact .descend fun j same => .bind ((lower _ j rfl same).unary operand noDot) (.ok rfl)
  | @postfixed _ ts us first e primary tail =>
    have read : Arrives (m < n) (selection (Level.below revision m) (c.prepend (ts ++ us))) e c := by
      rw [Cursor.prepend_append]
      exact .bind (primary_reads lower primary) (selectorTail_reads lower tail noDot)
    obtain ⟨noMinus, noStar⟩ := primary.no_operator (c := c.prepend us)
    rw [← Cursor.prepend_append] at noMinus noStar
    dsimp only
    generalize (c.prepend (ts ++ us)).current.kind = kind at noMinus noStar ⊢
    cases kind <;> first | exact read | exact absurd rfl noMinus | exact absurd rfl noStar

theorem unificationTail_reads {left : Expr} (h : Unified revision n left ts e)
    (noAmpersand : c.current.kind ≠ .ampersand) (noDot : c.current.kind ≠ .dot) :
    Arrives (m < n) (unificationTail (Level.below revision m) left (c.prepend ts)) e c := by
  rw [unificationTail, check_bind]
  cases h with
  | done =>
    rw [Cursor.prepend_nil, if_neg (by simpa using noAmpersand)]
    exact .ok rfl
  | more is operand tail =>
    rw [List.cons_append, Cursor.current_prepend, is, if_pos (beq_self_eq_true _), advance_bind,
      Cursor.advance_prepend, Cursor.prepend_append]
    have between := tail.current (P := (· ≠ .dot)) (by decide) noDot
    exact .descend fun j same => .bind ((lower _ j rfl same).unary operand between)
      ((lower _ j rfl same).unificationTail tail noAmpersand noDot)

theorem unification_reads (h : Unification revision n ts e) (noAmpersand : c.current.kind ≠ .ampersand)
    (noDot : c.current.kind ≠ .dot) :
    Arrives (m < n) (unification (Level.below revision m) (c.prepend ts)) e c := by
  cases h with
  | unification first tail =>
    rw [Cursor.prepend_append]
    have between := tail.current (P := (· ≠ .dot)) (by decide) noDot
    exact .bind (unary_reads lower first between) (unificationTail_reads lower tail noAmpersand noDot)

omit lower in
theorem not_link_of_ends (ends : c.current.kind.ends = true) :
    c.current.kind ≠ .pipe ∧ c.current.kind ≠ .ampersand ∧ c.current.kind ≠ .dot := by
  refine ⟨?_, ?_, ?_⟩ <;>
    · intro is
      rw [is] at ends
      cases ends

theorem disjunctionTail_reads {left : Expr} (h : Disjoined revision n left ts e)
    (ends : c.current.kind.ends = true) :
    Arrives (m < n) (disjunctionTail (Level.below revision m) left (c.prepend ts)) e c := by
  obtain ⟨noPipe, noAmpersand, noDot⟩ := not_link_of_ends ends
  rw [disjunctionTail, check_bind]
  cases h with
  | done =>
    rw [Cursor.prepend_nil, if_neg (by simpa using noPipe)]
    exact .ok rfl
  | more is operand tail =>
    rw [List.cons_append, Cursor.current_prepend, is, if_pos (beq_self_eq_true _), advance_bind,
      Cursor.advance_prepend, Cursor.prepend_append]
    have between := tail.current (P := (· ≠ .ampersand)) (by decide) noAmpersand
    have between' := tail.current (P := (· ≠ .dot)) (by decide) noDot
    exact .descend fun j same => .bind ((lower _ j rfl same).unification operand between between')
      ((lower _ j rfl same).disjunctionTail tail ends)

theorem disjunction_reads (h : Expression revision (n + 1) ts e) (ends : c.current.kind.ends = true) :
    Arrives (m < n) (disjunction (Level.below revision m) (c.prepend ts)) e c := by
  obtain ⟨noPipe, noAmpersand, noDot⟩ := not_link_of_ends ends
  cases h with
  | disjunction first tail =>
    rw [Cursor.prepend_append]
    have between := tail.current (P := (· ≠ .ampersand)) (by decide) noAmpersand
    have between' := tail.current (P := (· ≠ .dot)) (by decide) noDot
    exact .bind (unification_reads lower first between between') (disjunctionTail_reads lower tail ends)

theorem fieldValue_reads (h : FieldValue revision n ts e) (ends : c.current.kind.ends = true) :
    Arrives (m < n) ((do
      if atFieldStart (← get) then
        let inner ← descend (Level.below revision m) (·.field)
        return .struct [inner] inner.span
      else expression (Level.below revision m) : Parse Expr) (c.prepend ts)) e c := by
  rw [get_bind]
  cases h with
  | expression expression =>
    rw [expression.not_atFieldStart (plain_of_ends ends), if_neg Bool.false_ne_true]
    exact expression_reads lower expression ends
  | field field =>
    rw [field.atFieldStart, if_pos rfl]
    exact .bind (.descend fun j same => (lower _ j rfl same).field field ends) (.ok rfl)

omit lower in
theorem label_reads {t : Token} {l : Label} (h : Labels t l) : label (c.prepend [t]) = .ok (l, c) := by
  rw [label, current_bind, Cursor.current_prepend]
  cases h with
  | name is named =>
    simp only [is]
    rw [if_neg named]
    rfl
  | string is =>
    simp only [is]
    rfl

omit lower in
theorem colon_reads {t : Token} {kind kind' : LabelKind} (h : Colon revision kind t kind') :
    (do
      match (← current).kind with
      | .colon =>
        advance
        return kind
      | .doubleColon =>
        if revision = .legacy then
          advance
          return .definition
        else fail .doubleColon
      | _ => unexpected .colon : Parse LabelKind) (c.prepend [t]) = .ok (kind', c) := by
  rw [current_bind, Cursor.current_prepend]
  cases h with
  | single is =>
    simp only [is]
    rfl
  | double is legacy =>
    simp only [is]
    rw [if_pos legacy]
    rfl

omit lower in
theorem mark_reads {α : Type} {mark : List Token} {optional : Bool} {k : Bool → Unit → Parse α} (h : Mark mark optional)
    (next : c.current.kind ≠ .question) :
    (check .question >>= fun optional => if optional = true then advance >>= k optional else k optional ())
      (c.prepend mark) = k optional () c := by
  rw [check_bind]
  cases h with
  | required =>
    have other : (c.current.kind == .question) = false := by simpa using next
    rw [Cursor.prepend_nil, other, if_neg Bool.false_ne_true]
  | optional is =>
    rw [Cursor.current_prepend, is, beq_self_eq_true, if_pos rfl]
    rfl

theorem field_reads {d : Decl} (h : FieldDecl revision n ts d) (ends : c.current.kind.ends = true) :
    Arrives (m < n) (field revision (Level.below revision m) (c.prepend ts)) d c := by
  cases h with
  | @field _ name colon mark ts label optional kind value labels isMark isColon read =>
    have parts : c.prepend (name :: mark ++ colon :: ts) =
        (((c.prepend ts).prepend [colon]).prepend mark).prepend [name] := by
      simp only [← Cursor.prepend_append]
      rfl
    have next : ((c.prepend ts).prepend [colon]).current.kind ≠ .question := by
      rw [Cursor.current_prepend]
      cases isColon with
      | single is | double is => rw [is]; exact TokenKind.noConfusion
    rw [parts, field, current_bind]
    refine .bind (.ok (label_reads labels)) ?_
    dsimp only
    rw [mark_reads isMark next]
    exact .bind (.ok (colon_reads isColon)) (.bind (fieldValue_reads lower read ends) (.ok rfl))

end Rule

/-- At no level is anything derived that is not read, but for want of levels. -/
theorem Level.complete (revision : Revision) (n m : Nat) : Level.Complete revision n m := by
  have step (n m : Nat) (lower : ∀ k j, n = k + 1 → m = j + 1 → Level.Complete revision k j) :
      Level.Complete revision n m := by
    constructor <;> rw [Level.ofHeight_eq]
    · exact Rule.disjunction_reads lower
    · exact Rule.disjunctionTail_reads lower
    · exact Rule.unification_reads lower
    · exact Rule.unificationTail_reads lower
    · exact Rule.unary_reads lower
    · exact Rule.selectorTail_reads lower
    · exact Rule.field_reads lower
  induction n generalizing m with
  | zero => exact step 0 m fun k j impossible => absurd impossible (Nat.succ_ne_zero k).symm
  | succ n ih => exact step (n + 1) m fun k j same _ => Nat.succ.inj same ▸ ih j

end Levels

section Files

variable {revision : Revision} {deep : Prop} {c : Cursor}

theorem Grammar.ImportClause.starts {ts : List Token} {i : Import} (h : ImportClause ts i) : Starts ts := by
  cases h with
  | plain is | named is _ => exact opens_of_kind is rfl

theorem Grammar.ImportDecl.ne_nil {ts : List Token} {is : List Import} (h : ImportDecl ts is) : ts ≠ [] := by
  cases h <;> exact List.cons_ne_nil _ _

theorem importClause_reads {ts : List Token} {i : Import} (h : ImportClause ts i) :
    importClause (c.prepend ts) = .ok (i, c) := by
  rw [importClause, current_bind]
  cases h with
  | @plain path s is =>
    refine (bind_of_ok (a := none) (d := c.prepend [path]) ?_).trans ?_
    · rw [current_bind, Cursor.current_prepend]
      simp only [is]
      rfl
    · rw [current_bind, Cursor.current_prepend]
      simp only [is]
      rfl
  | @named name path s as isName isPath =>
    refine (bind_of_ok (a := some ⟨as, name.span⟩) (d := c.prepend [path]) ?_).trans ?_
    · rw [current_bind, Cursor.current_prepend]
      simp only [isName]
      rfl
    · rw [current_bind, Cursor.current_prepend, Cursor.current_prepend]
      simp only [isPath]
      rfl

theorem importGroup_reads {ts : List Token} {is : List Import} (h : ImportDecl ts is) :
    ∃ word us, ts = word :: us ∧ word.kind = .importing ∧ importGroup (c.prepend us) = .ok (is, c) := by
  cases h with
  | @single word ts i importing clause =>
    refine ⟨word, ts, rfl, importing, ?_⟩
    obtain ⟨t, us, rfl, opens⟩ := clause.starts
    have other : (t.kind == .leftParen) = false := by
      cases clause with
      | plain is | named is _ =>
        rw [is]
        rfl
    rw [importGroup, check_bind, Cursor.current_prepend, other, if_neg Bool.false_ne_true,
      bind_of_ok (importClause_reads clause)]
    rfl
  | @group word opening closing commas pieces importing opens areCommas clauses separated closes =>
    refine ⟨word, opening :: commas ++ written pieces ++ [closing], by simp, importing, ?_⟩
    have starts := fun p member => (clauses p member).starts
    have stopped : (c.prepend [closing]).current.kind = .rightParen := closes
    have other : ((c.prepend [closing]).prepend (written pieces)).current.kind.isComma = false := by
      rcases current_written (c := c.prepend [closing]) starts with ⟨at_, -⟩ | ⟨opens, -⟩
      · rw [at_, stopped]
        rfl
      · exact TokenKind.not_comma_of_opens opens
    have fewer := length_le_written fun p member => (starts p member).ne_nil
    rw [List.append_assoc, List.cons_append, ← List.append_assoc, importGroup, check_bind, Cursor.current_prepend,
      opens, beq_self_eq_true, if_pos rfl, advance_bind, Cursor.advance_prepend, skipCommas_bind,
      Cursor.prepend_append, Cursor.prepend_append, dropWhile_commas areCommas other]
    have read : Arrives False (items .rightParen (do
        let clause ← importClause
        separatorOr .rightParen
        return clause) ((c.prepend [closing]).prepend (written pieces))) (trees pieces) (c.prepend [closing]) := by
      rw [items, get_bind]
      refine itemsUpTo_reads rfl rfl stopped starts (fun p member c' commas other last => ?_) separated ?_
      · rw [Cursor.prepend_append]
        exact .bind (.ok (importClause_reads (clauses p member)))
          (.bind (.ok (separatorOr_reads commas other last)) (.ok rfl))
      · simp only [Cursor.prepend, List.length_append]
        omega
    rw [bind_of_ok (read.eq_ok not_false)]
    rfl

theorem imports_reads {pieces : List (Piece (List Import))} {follows : List Token} {count : Nat}
    (other : c.current.kind ≠ .importing) (noComma : c.current.kind.isComma = false)
    (last : follows = [] → c.current.kind = .eof) (all : ∀ p ∈ pieces, ImportDecl p.tokens p.tree)
    (separated : Separated follows pieces) (enough : pieces.length < count) :
    imports count (c.prepend (written pieces)) = .ok ((trees pieces).flatten, c) := by
  induction pieces generalizing count with
  | nil =>
    obtain ⟨count, rfl⟩ := Nat.exists_eq_succ_of_ne_zero (Nat.ne_zero_of_lt enough)
    have stop : (c.current.kind == .importing) = false := by simpa using other
    rw [imports, check_bind, show c.prepend (written []) = c from rfl, stop, if_neg Bool.false_ne_true]
    rfl
  | cons p ps ih =>
    obtain ⟨count, rfl⟩ := Nat.exists_eq_succ_of_ne_zero (Nat.ne_zero_of_lt enough)
    obtain ⟨⟨commas, ends⟩, separated⟩ := separated
    have all' := fun q member => all q (List.mem_cons_of_mem p member)
    obtain ⟨word, us, eq, importing, read⟩ :=
      importGroup_reads (c := (c.prepend (written ps)).prepend p.commas) (all p List.mem_cons_self)
    have next : (c.prepend (written ps)).current.kind.isComma = false := by
      cases ps with
      | nil => exact noComma
      | cons q qs =>
        obtain ⟨word, us, eq, importing, -⟩ := importGroup_reads (c := c) (all' q List.mem_cons_self)
        rw [written_cons, eq]
        exact (congrArg TokenKind.isComma importing).trans rfl
    have atEnd : p.commas = [] → (c.prepend (written ps)).current.kind = .eof := by
      intro none
      obtain ⟨nothing, noMore⟩ := List.append_eq_nil_iff.mp (ends none)
      rw [nothing]
      exact last noMore
    have rest := ih all' separated (Nat.lt_of_succ_lt_succ enough)
    rw [written_cons, eq, Cursor.prepend_append, Cursor.prepend_append, imports, check_bind, Cursor.current_prepend,
      importing, beq_self_eq_true, if_pos rfl, advance_bind, Cursor.advance_prepend, bind_of_ok read,
      bind_of_ok (separator_reads commas next atEnd), bind_of_ok rest]
    rfl

theorem packageClause_reads {follows ts : List Token} {name : Option Ident} (h : PackageClause follows ts name)
    (other : c.current.kind ≠ .package) (noComma : c.current.kind.isComma = false)
    (last : follows = [] → c.current.kind = .eof) : packageClause (c.prepend ts) = .ok (name, c) := by
  rw [packageClause, check_bind]
  cases h with
  | absent =>
    have stop : (c.current.kind == .package) = false := by simpa using other
    rw [Cursor.prepend_nil, stop, if_neg Bool.false_ne_true]
    rfl
  | present isWord isName separator =>
    rw [Cursor.current_prepend, isWord, beq_self_eq_true, if_pos rfl, advance_bind, Cursor.advance_prepend,
      current_bind, Cursor.current_prepend]
    simp only [isName]
    rw [advance_bind, Cursor.advance_prepend,
      bind_of_ok (separator_reads separator.1 noComma fun none => last (separator.2 none))]
    rfl

theorem declaration_item_reads {n m : Nat} {p : Piece Decl} (derived : Declaration revision n p.tokens p.tree)
    (commas : Commas p.commas) (noComma : c.current.kind.isComma = false)
    (last : p.commas = [] → c.current.kind = .eof) :
    Arrives (m < n) ((do
      if ← check .importing then fail .lateImport
      let decl ← Rule.declaration (Level.below revision m)
      separator
      return decl : Parse Decl) (c.prepend (p.tokens ++ p.commas))) p.tree c := by
  obtain ⟨t, us, eq, opens⟩ := derived.starts
  have other : ((c.prepend (p.tokens ++ p.commas)).current.kind == .importing) = false := by
    rw [eq]
    show (t.kind == .importing) = false
    cases is : t.kind <;> rw [is] at opens <;> first | rfl | cases opens
  have ends : (c.prepend p.commas).current.kind.ends = true := by
    cases here : p.commas with
    | nil =>
      rw [Cursor.prepend_nil, last here]
      rfl
    | cons comma others =>
      rw [here] at commas
      exact TokenKind.ends_of_comma (commas comma List.mem_cons_self)
  rw [check_bind]
  dsimp only
  rw [other, if_neg Bool.false_ne_true, Cursor.prepend_append]
  exact .bind (Rule.declaration_reads (fun k j _ _ => Level.complete revision k j) derived ends)
    (.bind (.ok (separator_reads commas noComma last)) (.ok rfl))

/-- What is derived starts with none of the words of the head of a file, and with no comma. -/
theorem not_head_of_opens {k : TokenKind} (h : k.opens = true) :
    k.isComma = false ∧ k ≠ .importing ∧ k ≠ .package := by
  cases k <;> first | exact ⟨rfl, TokenKind.noConfusion, TokenKind.noConfusion⟩ | cases h

/-- Behind the declarations of imports stand no comma and no package clause, if none stands behind them all. -/
theorem current_imports {pieces : List (Piece (List Import))} (all : ∀ p ∈ pieces, ImportDecl p.tokens p.tree)
    (here : c.current.kind.isComma = false ∧ c.current.kind ≠ .package) :
    (c.prepend (written pieces)).current.kind.isComma = false ∧
      (c.prepend (written pieces)).current.kind ≠ .package := by
  cases pieces with
  | nil => exact here
  | cons p ps =>
    obtain ⟨word, us, eq, importing, -⟩ := importGroup_reads (c := c) (all p List.mem_cons_self)
    rw [written_cons, eq]
    show word.kind.isComma = false ∧ word.kind ≠ .package
    rw [importing]
    exact ⟨rfl, TokenKind.noConfusion⟩

theorem current_package {follows ts : List Token} {name : Option Ident} (h : PackageClause follows ts name)
    (here : c.current.kind.isComma = false) : (c.prepend ts).current.kind.isComma = false := by
  cases h with
  | absent => exact here
  | present is _ _ => exact (congrArg TokenKind.isComma is).trans rfl

theorem declarations_read {n m : Nat} {decls : List (Piece Decl)} {finish : Token} {count : Nat}
    (derived : ∀ p ∈ decls, Declaration revision n p.tokens p.tree) (separated : Separated [] decls)
    (eof : finish.kind = .eof) (enough : decls.length < count) :
    Arrives (m < n) (itemsUpTo .eof (do
      if ← check .importing then fail .lateImport
      let decl ← Rule.declaration (Level.below revision m)
      separator
      return decl) count (Cursor.prepend (written decls) ⟨[], finish⟩)) (trees decls) ⟨[], finish⟩ :=
  itemsUpTo_reads rfl rfl eof (fun p member => (derived p member).starts)
    (fun p member _ commas other last => declaration_item_reads (derived p member) commas other last) separated enough

/-- A file that is derived is read from its tokens, the last of which is the end of the text. -/
theorem file_reads {n : Nat} {ts : List Token} {f : File} (h : Grammar.File revision n ts f) :
    ∃ body finish, ts = body ++ [finish] ∧
      Arrives (nestingLimit < n) (file revision ⟨body, finish⟩) f ⟨[], finish⟩ := by
  cases h with
  | @file commas package name groups decls finish areCommas isPackage areImports separated areDecls separated' eof =>
    refine ⟨_, finish, rfl, ?_⟩
    let ended : Cursor := ⟨[], finish⟩
    let body := ended.prepend (written decls)
    let head := body.prepend (written groups)
    have parts : (⟨commas ++ (package ++ written groups ++ written decls), finish⟩ : Cursor) =
        (head.prepend package).prepend commas := by
      simp only [head, body, ended, Cursor.prepend, List.append_assoc, List.append_nil]
    have doc : (head.prepend package).current = (package ++ written groups ++ written decls).head?.getD finish := by
      simp only [head, body, ended, Cursor.prepend, Cursor.current, List.append_assoc, List.append_nil]
    have atBody : body.current.kind.isComma = false ∧ body.current.kind ≠ .importing ∧ body.current.kind ≠ .package := by
      rcases current_written (c := ended) fun p member => (areDecls p member).starts with ⟨at_, -⟩ | ⟨opens, -⟩
      · rw [at_, show ended.current.kind = .eof from eof]
        exact ⟨rfl, by decide⟩
      · exact not_head_of_opens opens
    have atHead := current_imports areImports ⟨atBody.1, atBody.2.2⟩
    have bodyEnd : written decls = [] → body.current.kind = .eof := by
      intro none
      simp only [body, none]
      exact eof
    have headEnd : written groups ++ written decls = [] → head.current.kind = .eof := by
      intro none
      obtain ⟨noGroups, noDecls⟩ := List.append_eq_nil_iff.mp none
      simp only [head, noGroups]
      exact bodyEnd noDecls
    have fewGroups := length_le_written fun p member => (areImports p member).ne_nil
    have fewDecls := length_le_written fun p member => (areDecls p member).starts.ne_nil
    rw [parts, file, skipCommas_bind, dropWhile_commas areCommas (current_package isPackage atHead.1), current_bind]
    refine .bind (.ok (packageClause_reads isPackage atHead.2 atHead.1 headEnd)) ?_
    rw [get_bind]
    refine .bind (.ok (imports_reads atBody.2.1 atBody.1 bodyEnd areImports separated ?_)) ?_
    · simp only [body, ended, Cursor.prepend, List.length_append]
      omega
    refine .bind (a := trees decls) (d := ended) ?_ (.ok ?_)
    · rw [items, get_bind]
      refine declarations_read areDecls separated' eof ?_
      simp only [body, ended, Cursor.prepend, List.length_append]
      omega
    · rw [doc]
      rfl

end Files

end StackLattice.Syntax
