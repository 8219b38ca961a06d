import StackLattice.Proofs.Syntax.Found
import StackLattice.Proofs.Syntax.Steps

/-!
What is reported of a text that is refused. The fault is one of its characters, or of a token in front of a reader: what
was wanted in its place, or what is wrong with it.
-/

namespace StackLattice.Syntax

variable {P : Token → Prop}

/-- What is said to have been wanted has a name of its own, not one from the text. -/
def Expected.Fixed : Expected → Prop
  | closing close | separatorOr close => ∀ name, close ≠ .ident name
  | _ => True

/-- What can be reported of a token in front of a reader. -/
inductive Fault.Of (kind : TokenKind) : Fault → Prop
  | unexpected {wanted : Expected} : wanted.Fixed → Of kind (.unexpected wanted kind)
  | lateImport : Of kind .lateImport
  | doubleColon : Of kind .doubleColon
  | blankLabel : Of kind .blankLabel
  | openBody : Of kind .openBody
  | tooDeep : Of kind .tooDeep

structure Cursor.All (P : Token → Prop) (cursor : Cursor) : Prop where
  rest : ∀ token ∈ cursor.rest, P token
  finish : P cursor.finish

namespace Cursor.All

variable {cursor : Cursor} (h : cursor.All P)

include h

theorem current : P cursor.current := by
  obtain ⟨_ | ⟨token, rest⟩, finish⟩ := cursor
  · exact h.finish
  · exact h.rest token List.mem_cons_self

theorem advance : cursor.advance.All P := ⟨fun token member => h.rest token (List.mem_of_mem_tail member), h.finish⟩

end Cursor.All

/-- A token of those given is what a fault is about. -/
def Located.About (P : Token → Prop) (e : Located) : Prop :=
  ∃ token, P token ∧ e.span = token.span ∧ e.fault.Of token.kind

structure Parse.ReportsAt (P : Token → Prop) {α : Type} (r : Except Located (α × Cursor)) : Prop where
  tokens : ∀ a cursor, r = .ok (a, cursor) → cursor.All P
  faults : ∀ e, r = .error e → e.About P

def Parse.Reports (P : Token → Prop) {α : Type} (p : Parse α) : Prop := ∀ cursor, cursor.All P → ReportsAt P (p cursor)

namespace Parse.Reports

variable {α β : Type} {p : Parse α}

theorem pure (a : α) : Reports P (Pure.pure a : Parse α) := fun cursor all =>
  ⟨fun _ _ same => by cases same; exact all, fun _ impossible => by cases impossible⟩

theorem bind {k : α → Parse β} (first : Reports P p) (next : ∀ a, Reports P (k a)) : Reports P (p >>= k) := by
  intro cursor all
  obtain ⟨tokens, faults⟩ := first cursor all
  cases read : p cursor with
  | ok r =>
    rw [bind_of_ok read]
    exact next r.1 r.2 (tokens r.1 r.2 read)
  | error e =>
    rw [bind_of_error read]
    exact ⟨fun _ _ impossible => (by cases impossible), fun e' same => by cases same; exact faults e read⟩

theorem current {k : Token → Parse β} (next : ∀ token, Reports P (k token)) : Reports P (Parse.current >>= k) :=
  fun cursor all => next cursor.current cursor all

theorem get {k : Cursor → Parse β} (next : ∀ cursor, Reports P (k cursor)) : Reports P (MonadState.get >>= k) :=
  fun cursor all => next cursor cursor all

theorem check {kind : TokenKind} {k : Bool → Parse β} (next : ∀ b, Reports P (k b)) :
    Reports P (Parse.check kind >>= k) := fun cursor all => next _ cursor all

theorem advance : Reports P Parse.advance := fun _ all =>
  ⟨fun _ _ same => by cases same; exact all.advance, fun _ impossible => by cases impossible⟩

theorem skipCommas : Reports P Parse.skipCommas := fun _ all =>
  ⟨fun _ _ same => by
    cases same
    exact ⟨fun token member => all.rest token ((List.dropWhile_suffix _).mem member), all.finish⟩,
    fun _ impossible => by cases impossible⟩

theorem fail {fault : Fault} (of : ∀ kind, fault.Of kind) : Reports P (Parse.fail fault : Parse α) := fun _ all =>
  ⟨fun _ _ impossible => (by cases impossible), fun _ same => by cases same; exact ⟨_, all.current, rfl, of _⟩⟩

end Parse.Reports

namespace Parse

theorem unexpected_reports {α : Type} {wanted : Expected} (fixed : wanted.Fixed) :
    Reports P (unexpected wanted : Parse α) := fun _ all =>
  ⟨fun _ _ impossible => (by cases impossible),
    fun _ same => by cases same; exact ⟨_, all.current, rfl, .unexpected fixed⟩⟩

variable {close : TokenKind} (fixed : ∀ name, close ≠ .ident name)

include fixed

theorem expect_reports : Reports P (expect close) :=
  Reports.current fun token => by
    split
    · exact Reports.advance.bind fun _ => .pure _
    · exact unexpected_reports fixed

theorem separatorOr_reports : Reports P (separatorOr close) :=
  Reports.current fun token => by
    dsimp only
    split
    · exact Reports.skipCommas
    · split
      · exact .pure _
      · exact unexpected_reports fixed

theorem items_reports {α : Type} {item : Parse α} (each : Reports P item) : Reports P (items close item) := by
  have upTo (count : Nat) : Reports P (itemsUpTo close item count) := by
    induction count with
    | zero => exact unexpected_reports fixed
    | succ count ih =>
      refine Reports.current fun token => ?_
      split
      · exact .pure _
      · exact each.bind fun _ => ih.bind fun _ => .pure _
  exact Reports.get fun _ => upTo _

theorem enclosed_reports {α : Type} {element : Parse α} (each : Reports P element) :
    Reports P (enclosed close element) := by
  refine Reports.skipCommas.bind fun _ => ?_
  refine Reports.bind (items_reports fixed ?_) fun elements => (expect_reports fixed).bind fun _ => .pure _
  refine Reports.current fun token => ?_
  have whole : Reports P (do
      let e ← element
      separatorOr close
      return e) := each.bind fun _ => (separatorOr_reports fixed).bind fun _ => .pure _
  have missing : Reports P (unexpected (.closing close) : Parse PUnit) := unexpected_reports fixed
  split
  · exact missing.bind fun _ => whole
  · exact whole

end Parse

structure Level.Reports (P : Token → Prop) (level : Level) : Prop where
  disjunction : Parse.Reports P level.disjunction
  disjunctionTail : ∀ left, Parse.Reports P (level.disjunctionTail left)
  unificationTail : ∀ left, Parse.Reports P (level.unificationTail left)
  unification : Parse.Reports P level.unification
  unary : Parse.Reports P level.unary
  selectorTail : ∀ base, Parse.Reports P (level.selectorTail base)
  field : Parse.Reports P level.field

open Parse

theorem label_reports : Reports P label := by
  refine Reports.current fun token => ?_
  split
  · dsimp only
    split
    · exact (Reports.fail fun _ => .blankLabel).bind fun _ => Reports.advance.bind fun _ => .pure _
    · exact Reports.advance.bind fun _ => .pure _
  · exact Reports.advance.bind fun _ => .pure _
  · exact unexpected_reports trivial

namespace Rule

variable {revision : Revision} {lower : Option Level} (below : ∀ level, lower = some level → level.Reports P)

include below

theorem descend_reports {α : Type} {read : Level → Parse α} (each : ∀ level, level.Reports P → Reports P (read level)) :
    Reports P (descend lower read) := by
  cases is : lower with
  | none => exact Reports.fail fun _ => .tooDeep
  | some level => exact each level (below level is)

theorem expression_reports : Reports P (expression lower) := descend_reports below fun _ reports => reports.disjunction

theorem declaration_reports : Reports P (declaration lower) := by
  refine Reports.get fun cursor => ?_
  split
  · exact descend_reports below fun _ reports => reports.field
  · exact (expression_reports below).bind fun _ => .pure _

theorem primary_reports : Reports P (primary lower) := by
  refine Reports.current fun token => ?_
  have leaf (e : Expr) : Reports P (do advance; return e : Parse Expr) := Reports.advance.bind fun _ => .pure _
  dsimp only
  split
  case h_8 =>
    refine Reports.advance.bind fun _ => ?_
    exact (enclosed_reports (by nofun) (declaration_reports below)).bind fun _ => .pure _
  case h_9 =>
    refine Reports.advance.bind fun _ => ?_
    exact (enclosed_reports (by nofun) (expression_reports below)).bind fun _ => .pure _
  case h_10 =>
    refine Reports.advance.bind fun _ => (expression_reports below).bind fun _ => ?_
    exact (expect_reports (by nofun)).bind fun _ => .pure _
  case h_11 => exact Reports.fail fun _ => .openBody
  case h_12 => exact unexpected_reports trivial
  all_goals exact leaf _

theorem selectorTail_reports (base : Expr) : Reports P (selectorTail lower base) := by
  refine Reports.check fun dot => ?_
  split
  · refine Reports.advance.bind fun _ => descend_reports below fun level reports => Reports.current fun token => ?_
    split
    · exact Reports.advance.bind fun _ => reports.selectorTail _
    · exact Reports.advance.bind fun _ => reports.selectorTail _
    · exact unexpected_reports trivial
  · exact .pure _

theorem unary_reports : Reports P (unary lower) := by
  refine Reports.current fun token => ?_
  have operator (op : UnaryOp) : Reports P (do
      advance
      descend lower fun level => do
        let operand ← level.unary
        return .unary op operand (token.span.merge operand.span) : Parse Expr) :=
    Reports.advance.bind fun _ => descend_reports below fun level reports => reports.unary.bind fun _ => .pure _
  dsimp only
  split
  · exact operator _
  · exact operator _
  · exact (primary_reports below).bind fun _ => selectorTail_reports below _

theorem unificationTail_reports (left : Expr) : Reports P (unificationTail lower left) := by
  refine Reports.check fun ampersand => ?_
  split
  · refine Reports.advance.bind fun _ => descend_reports below fun level reports => ?_
    exact reports.unary.bind fun _ => reports.unificationTail _
  · exact .pure _

theorem unification_reports : Reports P (unification lower) :=
  (unary_reports below).bind fun _ => unificationTail_reports below _

theorem disjunctionTail_reports (left : Expr) : Reports P (disjunctionTail lower left) := by
  refine Reports.check fun pipe => ?_
  split
  · refine Reports.advance.bind fun _ => descend_reports below fun level reports => ?_
    exact reports.unification.bind fun _ => reports.disjunctionTail _
  · exact .pure _

theorem disjunction_reports : Reports P (disjunction lower) :=
  (unification_reports below).bind fun _ => disjunctionTail_reports below _

omit below in
theorem colon_reports (label : Label) : Reports P (do
    match (← current).kind with
    | .colon =>
      advance
      return label.kind
    | .doubleColon =>
      if revision = .legacy then
        advance
        return .definition
      else fail .doubleColon
    | _ => unexpected .colon : Parse LabelKind) := by
  refine Reports.current fun token => ?_
  split
  · exact Reports.advance.bind fun _ => .pure _
  · split
    · exact Reports.advance.bind fun _ => .pure _
    · exact Reports.fail fun _ => .doubleColon
  · exact unexpected_reports trivial

theorem fieldValue_reports : Reports P (do
    if atFieldStart (← get) then
      let inner ← descend lower (·.field)
      return .struct [inner] inner.span
    else expression lower : Parse Expr) := by
  refine Reports.get fun cursor => ?_
  split
  · exact (descend_reports below fun _ reports => reports.field).bind fun _ => .pure _
  · exact expression_reports below

theorem field_reports : Reports P (field revision lower) := by
  refine Reports.current fun token => label_reports.bind fun label => Reports.check fun optional => ?_
  dsimp only
  split
  · exact Reports.advance.bind fun _ => (colon_reports label).bind fun _ =>
      (fieldValue_reports below).bind fun _ => .pure _
  · exact (colon_reports label).bind fun _ => (fieldValue_reports below).bind fun _ => .pure _

end Rule

theorem level_reports (revision : Revision) (n : Nat) : (Level.ofHeight revision n).Reports P := by
  have step (lower : Option Level) (below : ∀ level, lower = some level → level.Reports P) :
      (Level.above revision lower).Reports P :=
    { disjunction := Rule.disjunction_reports below
      disjunctionTail := Rule.disjunctionTail_reports below
      unificationTail := Rule.unificationTail_reports below
      unification := Rule.unification_reports below
      unary := Rule.unary_reports below
      selectorTail := Rule.selectorTail_reports below
      field := Rule.field_reports below }
  induction n with
  | zero => exact step none fun level impossible => by cases impossible
  | succ n ih => exact step (some (.ofHeight revision n)) fun level same => by cases same; exact ih

theorem importClause_reports : Reports P importClause := by
  refine Reports.current fun start => Reports.bind ?_ fun _ => Reports.current fun token => ?_
  · refine Reports.current fun token => ?_
    split
    · exact Reports.advance.bind fun _ => .pure _
    · exact .pure _
  · split
    · exact Reports.advance.bind fun _ => .pure _
    · exact unexpected_reports trivial

theorem importGroup_reports : Reports P importGroup := by
  have clause : Reports P (do
      let clause ← importClause
      separatorOr .rightParen
      return clause) :=
    importClause_reports.bind fun _ => (separatorOr_reports (by nofun)).bind fun _ => .pure _
  refine Reports.check fun paren => ?_
  split
  · refine Reports.advance.bind fun _ => Reports.skipCommas.bind fun _ => ?_
    exact (items_reports (by nofun) clause).bind fun _ => Reports.advance.bind fun _ => .pure _
  · exact importClause_reports.bind fun _ => .pure _

theorem separator_reports : Reports P separator := by
  refine Reports.current fun token => ?_
  dsimp only
  split
  · exact Reports.skipCommas
  · split
    · exact .pure _
    · exact unexpected_reports trivial

theorem imports_reports (count : Nat) : Reports P (imports count) := by
  induction count with
  | zero => exact unexpected_reports trivial
  | succ count ih =>
    refine Reports.check fun word => ?_
    split
    · refine Reports.advance.bind fun _ => (importGroup_reports).bind fun _ => ?_
      exact separator_reports.bind fun _ => ih.bind fun _ => .pure _
    · exact .pure _

theorem packageClause_reports : Reports P packageClause := by
  refine Reports.check fun word => ?_
  split
  · refine Reports.advance.bind fun _ => Reports.current fun token => ?_
    split
    · exact Reports.advance.bind fun _ => separator_reports.bind fun _ => .pure _
    · exact unexpected_reports trivial
  · exact .pure _

theorem file_reports (revision : Revision) : Reports P (file revision) := by
  have below : ∀ level, some (Level.ofHeight revision (nestingLimit - 1)) = some level → level.Reports P :=
    fun level same => by cases same; exact level_reports revision _
  refine Reports.skipCommas.bind fun _ => Reports.current fun _ => packageClause_reports.bind fun _ => ?_
  refine Reports.get fun _ => (imports_reports _).bind fun _ => ?_
  refine Reports.bind (items_reports (by nofun) ?_) fun _ => .pure _
  have declaration : Reports P (do
      let decl ← Rule.declaration (some (Level.ofHeight revision (nestingLimit - 1)))
      separator
      return decl) := (Rule.declaration_reports below).bind fun _ => separator_reports.bind fun _ => .pure _
  refine Reports.check fun late => ?_
  dsimp only
  split
  · exact (Reports.fail fun _ => .lateImport).bind fun _ => declaration
  · exact declaration

theorem Cursor.ofTokens_all {tokens : List Token} (filled : tokens ≠ []) (all : ∀ token ∈ tokens, P token) :
    (ofTokens tokens).All P := by
  refine ⟨fun token member => all token (List.dropLast_subset _ member), ?_⟩
  rw [ofTokens, List.getLast?_eq_some_getLast filled]
  exact all _ (List.getLast_mem filled)

/-- A text is refused for its characters, or for one of its tokens. -/
theorem File.located_of_ofSource {source : SourceText} {revision : Revision} {keepComments : Bool} {e : SyntaxError}
    (refused : File.ofSource source revision keepComments = .error e) :
    ∃ located, e = Located.within located source ∧ (located.FoundIn ⟨source.text.toList, 0⟩ ∨
      ∃ tokens scanner, (Scanner.ofString source.text keepComments).tokens = (.ok tokens, scanner) ∧
        located.About (· ∈ tokens)) := by
  rcases scanned : (Scanner.ofString source.text keepComments).tokens with ⟨r, scanner⟩
  unfold File.ofSource at refused
  rw [scanned] at refused
  cases r with
  | error located =>
    cases refused
    exact ⟨located, rfl, .inl (Scanner.tokens_found (congrArg Prod.fst scanned))⟩
  | ok tokens =>
    obtain ⟨init, last, whole, _⟩ := (Scanner.run_of_tokens scanned).ends_text (.refl _)
    have filled : tokens ≠ [] := by simp [whole]
    have parsed := file_reports revision _ (Cursor.ofTokens_all filled fun _ member => member)
    cases result : file revision (Cursor.ofTokens tokens) with
    | error located =>
      simp only [Except.bind, StateT.run, result] at refused
      cases refused
      exact ⟨located, rfl, .inr ⟨tokens, scanner, rfl, parsed.faults located result⟩⟩
    | ok r =>
      simp only [Except.bind, StateT.run, result] at refused
      cases refused

theorem ParsedFile.read_eq_error {path text : String} {revision : Revision} {keep : Bool} {e : SyntaxError} :
    ParsedFile.read path text revision keep = .error e ↔ File.ofSource ⟨path, text⟩ revision keep = .error e := by
  rw [ParsedFile.read]
  cases File.ofSource ⟨path, text⟩ revision keep <;> simp [Bind.bind, Except.bind, Pure.pure, Except.pure]

end StackLattice.Syntax
