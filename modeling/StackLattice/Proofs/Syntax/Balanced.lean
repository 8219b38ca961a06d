import StackLattice.Proofs.Syntax.Follows

/-!
The parser goes on and gives back the levels it takes. Whatever its tokens are, there are turns enough for its loops; a
call that succeeds has taken a token, and none is made behind one that has failed.
-/

namespace StackLattice.Syntax.Descent

variable {tokens : List Token} {revision : Revision} {s : State}

section Pieces

variable (ends : Ended tokens)
include ends

/-- A token is taken, and nothing else. -/
theorem taken_follows {α : Type} {a : α} (more : (head tokens s).kind ≠ .eof) :
    Follows tokens (fun _ => do advance tokens; return a) (do Parse.advance; return a) s.place.Advances s :=
  .advance_bind ends more (.pure ⟨Nat.lt_succ_self _, rfl⟩)

omit ends in
/-- A piece and what separates it from the next. -/
theorem separated_follows {α : Type} {piece : Nat → Action α} {read : Parse α} {separator : Nat → Action Unit}
    {readSeparator : Parse Unit} (each : Follows tokens piece read s.place.Advances s)
    (behind : ∀ t : State, Follows tokens separator readSeparator (·.depth = t.place.depth) t) :
    Follows tokens (fun n => do
      let e ← piece n
      separator n
      return e) (do
      let e ← read
      readSeparator
      return e) s.place.Advances s := by
  refine .bind each fun e t passed further => .bind (behind t) fun _ u passed same => ?_
  exact .pure ⟨Nat.lt_of_lt_of_le further.1 passed.position, same.trans further.2⟩

theorem bracketed_follows {α : Type} {close : TokenKind} {element : Nat → Action α} {read : Parse α}
    (each : Follows tokens element read s.place.Advances s) :
    Follows tokens (fun n => bracketed tokens close n (element n)) (do
      if (← Parse.current).kind = .eof then Parse.unexpected (.closing close)
      let e ← read
      Parse.separatorOr close
      return e) s.place.Advances s := by
  refine .current_bind ends (.ite (fun _ => .unexpected ends _) fun _ => ?_)
  exact separated_follows each fun t => separatorOr_follows ends

theorem label_follows : Follows tokens (fun _ => label tokens) Syntax.label s.place.Advances s := by
  refine .current_bind ends ?_
  cases is : (head tokens s).kind
  case ident name =>
    exact .ite (fun _ => .fail ends _) fun _ => taken_follows ends (head_ne_eof is TokenKind.noConfusion)
  case string name => exact taken_follows ends (head_ne_eof is TokenKind.noConfusion)
  all_goals exact .unexpected ends _

theorem Follows.mark_bind {β : Type} {P : Place → Prop} {k : Nat → Bool → Action β} {l : Bool → Unit → Parse β}
    (next : ∀ optional t, Passed tokens s.place t.place → t.place.depth = s.place.depth →
      Follows tokens (k · optional) (l optional ()) P t) :
    Follows tokens (fun n => mark tokens >>= k n)
      (Parse.check .question >>= fun optional => if optional then Parse.advance >>= l optional else l optional ())
      P s := by
  simp only [mark, bind_assoc]
  refine .check_bind ends ?_
  cases question : (head tokens s).kind == .question
  · exact next false s (.refl _) rfl
  · have is : (head tokens s).kind = .question := eq_of_beq question
    have more := head_ne_eof is TokenKind.noConfusion
    simp only [if_true, bind_assoc]
    exact .advance_bind ends more (next true s.ahead (passed_ahead more) rfl)

theorem colon_follows {kind : LabelKind} :
    Follows tokens (fun _ => colon tokens revision kind) (do
      match (← Parse.current).kind with
      | .colon =>
        Parse.advance
        return kind
      | .doubleColon =>
        if revision = .legacy then
          Parse.advance
          return .definition
        else Parse.fail .doubleColon
      | _ => Parse.unexpected .colon) s.place.Advances s := by
  refine .current_bind ends ?_
  cases is : (head tokens s).kind
  case colon => exact taken_follows ends (head_ne_eof is TokenKind.noConfusion)
  case doubleColon =>
    exact .ite (fun _ => taken_follows ends (head_ne_eof is TokenKind.noConfusion)) fun _ => .fail ends _
  all_goals exact .unexpected ends _

/-- Brackets and what is between them, where the opening one stands. -/
theorem enclosed_follows {α : Type} {opening close : TokenKind} {loop : Place → Nat → Action (List α)} {read : Parse α}
    {wrap : List α → Span → Expr} (here : (head tokens s).kind = opening) (more : opening ≠ .eof) (last : close ≠ .eof)
    (turns : ∀ t : State, t.place.depth = s.place.depth → Follows tokens (loop t.place) (Parse.items close (do
      if (← Parse.current).kind = .eof then Parse.unexpected (.closing close)
      let e ← read
      Parse.separatorOr close
      return e)) (·.depth = t.place.depth) t) :
    Follows tokens (fun n => do
      let start ← expect tokens opening
      skipCommas tokens n
      let items ← loop (← get).place n
      let stop ← expect tokens close
      return wrap items (start.merge stop)) (do
      Parse.advance
      let (items, stop) ← Parse.enclosed close read
      return wrap items ((head tokens s).span.merge stop)) s.place.Advances s := by
  unfold Parse.enclosed
  simp only [bind_assoc, pure_bind]
  refine .expect_bind ends here more (.bind (skipCommas_follows ends) fun _ t passed same => .get_bind ?_)
  refine .bind (turns t same) fun items u passed' same' => ?_
  refine .bind (expect_follows ends last) fun stop v passed'' further => .pure ?_
  refine ⟨?_, further.2.trans (same'.trans same)⟩
  have first : s.place.position + 1 ≤ t.place.position := passed.position
  exact Nat.lt_of_lt_of_le first (Nat.le_trans passed'.position passed''.position)

end Pieces

/-- What the readings of a level come to, from a state that has a number of levels left. -/
structure Levels (tokens : List Token) (revision : Revision) (n : Nat) : Prop where
  disjunction : ∀ {s : State}, s.Spare n →
    Follows tokens (disjunction tokens revision) (Level.ofHeight revision n).disjunction s.place.Advances s
  disjunctionTail : ∀ {s : State} (left : Expr), s.Spare n →
    Follows tokens (disjunctionTail tokens revision left) ((Level.ofHeight revision n).disjunctionTail left)
      (fun _ => True) s
  unification : ∀ {s : State}, s.Spare n →
    Follows tokens (unification tokens revision) (Level.ofHeight revision n).unification s.place.Advances s
  unificationTail : ∀ {s : State} (left : Expr), s.Spare n →
    Follows tokens (unificationTail tokens revision left) ((Level.ofHeight revision n).unificationTail left)
      (fun _ => True) s
  unary : ∀ {s : State}, s.Spare n →
    Follows tokens (unary tokens revision) (Level.ofHeight revision n).unary s.place.Advances s
  selectorTail : ∀ {s : State} (base : Expr), s.Spare n →
    Follows tokens (selectorTail tokens revision base) ((Level.ofHeight revision n).selectorTail base)
      (fun _ => True) s
  field : ∀ {s : State}, s.Spare n →
    Follows tokens (fieldBody tokens revision) (Level.ofHeight revision n).field s.place.Advances s

section Rules

variable {n : Nat} (ends : Ended tokens) (lower : ∀ m, n = m + 1 → Levels tokens revision m) (spare : s.Spare n)
include ends lower spare

theorem expression_follows :
    Follows tokens (expression tokens revision) (Rule.expression (Level.below revision n)) s.place.Advances s := by
  refine .succ ?_
  simp only [expression]
  exact called_follows fun t here => nested_follows ends (spare.of_depth (by rw [here])) fun m is spare =>
     (lower m is).disjunction spare

theorem field_follows :
    Follows tokens (field tokens revision) (Rule.descend (Level.below revision n) (·.field)) s.place.Advances s := by
  refine .succ ?_
  simp only [field]
  exact called_follows fun t here => nested_follows ends (spare.of_depth (by rw [here])) fun m is spare =>
     (lower m is).field spare

theorem declaration_follows :
    Follows tokens (declaration tokens revision) (Rule.declaration (Level.below revision n)) s.place.Advances s := by
  refine .succ ?_
  simp only [declaration]
  refine .atFieldStart_ite ends (field_follows ends lower spare) ?_
  exact .bind (expression_follows ends lower spare) fun e t _ further => .pure further

theorem fieldValue_follows :
    Follows tokens (fieldValue tokens revision) (do
      if Syntax.atFieldStart (← get) then
        let inner ← Rule.descend (Level.below revision n) (·.field)
        return .struct [inner] inner.span
      else Rule.expression (Level.below revision n)) s.place.Advances s := by
  refine .succ ?_
  simp only [fieldValue]
  refine .atFieldStart_ite ends ?_ (expression_follows ends lower spare)
  exact .bind (field_follows ends lower spare) fun inner t _ further => .pure further

theorem members_follows {entry : Place} (same : s.place.depth = entry.depth) :
    Follows tokens (members tokens revision entry) (Parse.items .rightBrace (do
      if (← Parse.current).kind = .eof then Parse.unexpected (.closing .rightBrace)
      let e ← Rule.declaration (Level.below revision n)
      Parse.separatorOr .rightBrace
      return e)) (·.depth = entry.depth) s := by
  refine (items_follows ends (fun _ => rfl) (fun t depth => ?_) same).mono fun _ _ post => post.1
  exact bracketed_follows ends (declaration_follows ends lower (spare.of_depth (depth.trans same.symm)))

theorem elements_follows {entry : Place} (same : s.place.depth = entry.depth) :
    Follows tokens (elements tokens revision entry) (Parse.items .rightBracket (do
      if (← Parse.current).kind = .eof then Parse.unexpected (.closing .rightBracket)
      let e ← Rule.expression (Level.below revision n)
      Parse.separatorOr .rightBracket
      return e)) (·.depth = entry.depth) s := by
  refine (items_follows ends (fun _ => rfl) (fun t depth => ?_) same).mono fun _ _ post => post.1
  exact bracketed_follows ends (expression_follows ends lower (spare.of_depth (depth.trans same.symm)))

theorem primary_follows :
    Follows tokens (primary tokens revision) (Rule.primary (Level.below revision n)) s.place.Advances s := by
  refine .succ ?_
  simp only [primary]
  refine .current_bind ends ?_
  cases is : (head tokens s).kind
  case leftBrace =>
    refine .succ ?_
    exact enclosed_follows ends is (by decide) (by decide) fun t same =>
      members_follows ends lower (spare.of_depth same) rfl
  case leftBracket =>
    refine .succ ?_
    exact enclosed_follows ends is (by decide) (by decide) fun t same =>
      elements_follows ends lower (spare.of_depth same) rfl
  case leftParen =>
    refine .advance_bind ends (head_ne_eof is TokenKind.noConfusion) ?_
    refine .bind (expression_follows ends lower spare) fun inner t passed further => ?_
    refine .bind (expect_follows ends (by decide)) fun stop u passed' further' => .pure ?_
    have first : s.place.position + 1 ≤ t.place.position := passed.position
    exact ⟨Nat.lt_of_lt_of_le first passed'.position, further'.2.trans further.2⟩
  case ellipsis => exact .fail ends _
  case null | true | false | int | float | string | ident =>
    exact taken_follows ends (head_ne_eof is TokenKind.noConfusion)
  all_goals exact .unexpected ends _

theorem selectorTail_follows (base : Expr) :
    Follows tokens (selectorTail tokens revision base) (Rule.selectorTail (Level.below revision n) base)
      (fun _ => True) s := by
  refine .succ ?_
  simp only [selectorTail]
  refine .check_bind ends (.ite (fun dot => ?_) fun _ => .pure trivial)
  have dot : (head tokens s).kind = .dot := eq_of_beq dot
  refine .advance_bind ends (head_ne_eof dot TokenKind.noConfusion) ?_
  refine .descend_bind ends spare fun m is spare => ?_
  refine .current_bind ends ?_
  cases name : (head tokens s.ahead.deeper).kind
  case ident | string =>
    exact .advance_bind ends (head_ne_eof name TokenKind.noConfusion) ((lower m is).selectorTail _ spare)
  all_goals exact .unexpected ends _

theorem selection_follows :
    Follows tokens (selection tokens revision) (Rule.selection (Level.below revision n)) s.place.Advances s := by
  refine .succ ?_
  simp only [selection]
  exact chained_follows (primary_follows ends lower spare) fun e t same =>
    selectorTail_follows ends lower (spare.of_depth same) e

theorem operand_follows (op : UnaryOp) (more : (head tokens s).kind ≠ .eof) :
    Follows tokens (operand tokens revision op (head tokens s).span) (do
      Parse.advance
      Rule.descend (Level.below revision n) fun level => do
        let e ← level.unary
        return .unary op e ((head tokens s).span.merge e.span)) s.place.Advances s := by
  refine .succ ?_
  simp only [operand]
  have below : (Rule.descend (Level.below revision n) fun level => do
      let e ← level.unary
      return .unary op e ((head tokens s).span.merge e.span) : Parse Expr) =
      (do
        let e ← Rule.descend (Level.below revision n) (·.unary)
        return .unary op e ((head tokens s).span.merge e.span)) := by
    cases n <;> rfl
  rw [below]
  refine .advance_bind ends more (.bind (borrowed_follows (s := s.ahead) ends spare ?_) fun e t _ further => ?_)
  · exact fun m is spare => (lower m is).unary spare
  · exact .pure ⟨Nat.lt_of_succ_lt further.1, further.2⟩

theorem unary_follows :
    Follows tokens (unary tokens revision) (Rule.unary (Level.below revision n)) s.place.Advances s := by
  refine .succ ?_
  simp only [unary]
  refine .current_bind ends ?_
  cases is : (head tokens s).kind
  case minus | star => exact operand_follows ends lower spare _ (head_ne_eof is TokenKind.noConfusion)
  all_goals exact selection_follows ends lower spare

theorem unificationTail_follows (left : Expr) :
    Follows tokens (unificationTail tokens revision left) (Rule.unificationTail (Level.below revision n) left)
      (fun _ => True) s := by
  refine .succ ?_
  simp only [unificationTail]
  refine .check_bind ends (.ite (fun ampersand => ?_) fun _ => .pure trivial)
  have ampersand : (head tokens s).kind = .ampersand := eq_of_beq ampersand
  refine .advance_bind ends (head_ne_eof ampersand TokenKind.noConfusion) ?_
  refine .descend_bind ends spare fun m is spare => ?_
  refine .bind ((lower m is).unary spare) fun right t _ further => ?_
  exact (lower m is).unificationTail _ (spare.of_depth further.2)

theorem unification_follows :
    Follows tokens (unification tokens revision) (Rule.unification (Level.below revision n)) s.place.Advances s := by
  refine .succ ?_
  simp only [unification]
  exact chained_follows (unary_follows ends lower spare) fun e t same =>
    unificationTail_follows ends lower (spare.of_depth same) e

theorem disjunctionTail_follows (left : Expr) :
    Follows tokens (disjunctionTail tokens revision left) (Rule.disjunctionTail (Level.below revision n) left)
      (fun _ => True) s := by
  refine .succ ?_
  simp only [disjunctionTail]
  refine .check_bind ends (.ite (fun bar => ?_) fun _ => .pure trivial)
  have bar : (head tokens s).kind = .pipe := eq_of_beq bar
  refine .advance_bind ends (head_ne_eof bar TokenKind.noConfusion) ?_
  refine .descend_bind ends spare fun m is spare => ?_
  refine .bind ((lower m is).unification spare) fun right t _ further => ?_
  exact (lower m is).disjunctionTail _ (spare.of_depth further.2)

theorem disjunction_follows :
    Follows tokens (disjunction tokens revision) (Rule.disjunction (Level.below revision n)) s.place.Advances s := by
  refine .succ ?_
  simp only [disjunction]
  exact chained_follows (unification_follows ends lower spare) fun e t same =>
    disjunctionTail_follows ends lower (spare.of_depth same) e

theorem fieldBody_follows :
    Follows tokens (fieldBody tokens revision) (Rule.field revision (Level.below revision n)) s.place.Advances s := by
  refine .succ ?_
  simp only [fieldBody]
  refine .current_bind ends (.bind (label_follows ends) fun label t _ named => ?_)
  refine .mark_bind ends fun optional u passed marked => ?_
  refine .bind (colon_follows ends) fun kind v _ joined => ?_
  have same : v.place.depth = s.place.depth := joined.2.trans (marked.trans named.2)
  refine .bind (fieldValue_follows ends lower (spare.of_depth same)) fun value w _ further => .pure ?_
  have named : s.place.position < u.place.position := Nat.lt_of_lt_of_le named.1 passed.position
  exact ⟨Nat.lt_trans named (Nat.lt_trans joined.1 further.1), further.2.trans same⟩

end Rules

theorem levels (ends : Ended tokens) (n : Nat) : Levels tokens revision n := by
  have step (n : Nat) (lower : ∀ m, n = m + 1 → Levels tokens revision m) : Levels tokens revision n := by
    constructor <;> rw [Level.ofHeight_eq]
    · exact disjunction_follows ends lower
    · exact fun left spare => disjunctionTail_follows ends lower spare left
    · exact unification_follows ends lower
    · exact fun left spare => unificationTail_follows ends lower spare left
    · exact unary_follows ends lower
    · exact fun base spare => selectorTail_follows ends lower spare base
    · exact fieldBody_follows ends lower
  -- what stands in a level is read at the level below
  induction n with
  | zero => exact step 0 fun m impossible => absurd impossible (Nat.succ_ne_zero m).symm
  | succ n ih => exact step (n + 1) fun m same => Nat.succ.inj same ▸ ih

section Clauses

variable (ends : Ended tokens)
include ends

theorem localName_follows :
    Follows tokens (fun _ => localName tokens) (do
      match (← Parse.current).kind with
      | .ident name =>
        Parse.advance
        return some ⟨name, (head tokens s).span⟩
      | _ => return none) (·.depth = s.place.depth) s := by
  refine .current_bind ends ?_
  cases is : (head tokens s).kind
  case ident name =>
    exact .mono (taken_follows ends (head_ne_eof is TokenKind.noConfusion)) fun _ _ further => further.2
  all_goals exact .pure rfl

theorem importClause_follows :
    Follows tokens (fun _ => importClause tokens) Syntax.importClause s.place.Advances s := by
  refine called_follows fun t _ => .current_bind ends (.bind (localName_follows ends) fun localAs u passed same => ?_)
  refine .current_bind ends ?_
  cases is : (head tokens u).kind
  case string path =>
    refine .mono (taken_follows ends (head_ne_eof is TokenKind.noConfusion)) fun place _ further => ?_
    exact ⟨Nat.lt_of_le_of_lt passed.position further.1, further.2.trans same⟩
  all_goals exact .unexpected ends _

theorem importGroup_follows :
    Follows tokens (importGroup tokens) Syntax.importGroup s.place.Advances s := by
  refine .check_bind ends (.ite (fun paren => ?_) fun _ => ?_)
  · have paren : (head tokens s).kind = .leftParen := eq_of_beq paren
    refine .advance_bind ends (head_ne_eof paren TokenKind.noConfusion) ?_
    refine .bind (skipCommas_follows ends) fun _ t passed same => .get_bind ?_
    refine .bind (items_follows ends (fun _ => rfl) (fun u depth => ?_) rfl)
      fun clauses u passed' ⟨still, closing⟩ => ?_
    · exact separated_follows (importClause_follows ends) fun v => separatorOr_follows ends
    · refine .advance_bind ends (head_ne_eof closing TokenKind.noConfusion) (.pure ⟨?_, still.trans same⟩)
      exact Nat.lt_succ_of_le (Nat.le_trans (Nat.le_of_succ_le passed.position) passed'.position)
  · exact .bind (importClause_follows ends) fun clause t _ further => .pure further

theorem imports_follows (entry : Place) (count : Nat) (same : s.place.depth = entry.depth)
    (bound : tokens.length - 1 - s.place.position < count) :
    Follows tokens (imports tokens entry) (Syntax.imports count) (·.depth = entry.depth) s := by
  induction count generalizing s with
  | zero => cases bound
  | succ count ih =>
    refine .succ ?_
    rw [Syntax.imports]
    refine .check_bind ends (.ite (fun word => ?_) fun _ => .pure same)
    have word : (head tokens s).kind = .importing := eq_of_beq word
    have more := head_ne_eof word TokenKind.noConfusion
    have within := ends.lt_of_more more
    refine .turned_bind same (.advance_bind ends more ?_)
    refine .bind (importGroup_follows ends) fun group t passed further => ?_
    refine .bind (separator_follows ends) fun _ u passed' still => ?_
    have on : s.place.position + 1 ≤ u.place.position := Nat.le_trans passed.position passed'.position
    exact .bind (ih (still.trans (further.2.trans same)) (by omega)) fun others v _ post => .pure post

theorem packageClause_follows :
    Follows tokens (packageClause tokens) Syntax.packageClause (·.depth = s.place.depth) s := by
  refine .check_bind ends (.ite (fun word => ?_) fun _ => .pure rfl)
  have word : (head tokens s).kind = .package := eq_of_beq word
  refine .advance_bind ends (head_ne_eof word TokenKind.noConfusion) (.current_bind ends ?_)
  cases name : (head tokens s.ahead).kind
  case ident =>
    refine .advance_bind ends (head_ne_eof name TokenKind.noConfusion) ?_
    exact .bind (separator_follows ends) fun _ t _ same => .pure same
  all_goals exact .unexpected ends _

theorem declarations_follows (entry : Place) (first : s.place.depth = 0) (same : s.place.depth = entry.depth) :
    Follows tokens (declarations tokens revision entry) (Parse.items .eof do
      if ← Parse.check .importing then Parse.fail .lateImport
      let decl ← Rule.declaration (Level.below revision nestingLimit)
      Parse.separator
      return decl) (·.depth = entry.depth) s := by
  refine (items_follows ends (fun _ => rfl) (fun t depth => ?_) same).mono
    fun _ _ post => post.1
  refine .check_bind ends (.ite (fun _ => .fail ends _) fun _ => ?_)
  have spare : t.Spare nestingLimit := by
    rw [State.Spare, depth, ← same, first]
    rfl
  exact separated_follows (declaration_follows ends (fun m _ => levels ends m) spare) fun u => separator_follows ends

theorem file_follows (revision : Revision) :
    Follows tokens (file tokens revision) (Syntax.file revision) (·.depth = 0) .initial := by
  refine .bind (skipCommas_follows ends) fun _ s _ first => .current_bind ends ?_
  refine .bind (packageClause_follows ends) fun package t _ same => .get_bind (.cursor_bind ?_)
  have fresh : t.place.depth = 0 := same.trans first
  rw [length_rest]
  refine .bind (imports_follows ends t.place _ rfl (Nat.lt_succ_self _)) fun imports u _ same => .get_bind ?_
  have fresh : u.place.depth = 0 := same.trans fresh
  refine .bind (declarations_follows ends u.place fresh rfl) fun decls v _ same => .pure (same.trans fresh)

end Clauses

/-- Goes on by a token at least and not behind an end of the text, and uses as many levels as before. -/
def Place.Takes (tokens : List Token) (a b : Place) : Prop :=
  a.position < b.position ∧ b.position < tokens.length ∧
  (∀ token ∈ (tokens.take b.position).drop a.position, token.kind ≠ .eof) ∧ b.depth = a.depth

theorem Passed.takes {a b : Place} (h : Passed tokens a b) (ends : Ended tokens) (advances : a.Advances b) :
    a.Takes tokens b := by
  have within := h.within ends advances.1
  refine ⟨advances.1, within, fun token member => ?_, advances.2⟩
  obtain ⟨n, bound, rfl⟩ := List.mem_iff_getElem.mp member
  have before : a.position + n < b.position := by
    rw [List.length_drop, List.length_take] at bound
    omega
  have here := ends.getElem? (a.position + n)
  rw [Nat.min_eq_left (by omega), List.getElem?_eq_getElem (by omega), Option.some_inj] at here
  rw [List.getElem_drop, List.getElem_take, here]
  exact h.text _ (Nat.le_add_right _ _) before

/-- A reading ends, and has taken tokens where it succeeds. -/
def Balanced {α : Type} (tokens : List Token) (p : Nat → Action α) (s : State) : Prop :=
  ∃ outcome t, Comes p s (some (outcome, t)) ∧ ∀ a, outcome = .ok a → s.place.Takes tokens t.place

theorem Follows.balanced {α : Type} {p : Nat → Action α} {q : Parse α}
    (h : Follows tokens p q s.place.Advances s) (ends : Ended tokens) : Balanced tokens p s := by
  obtain ⟨r, beside, run⟩ := h
  generalize q (cursor tokens s.place.position) = read at beside
  cases beside with
  | ok passed advances _ => exact ⟨_, _, run, fun _ _ => passed.takes ends advances⟩
  | error => exact ⟨_, _, run, fun _ impossible => by cases impossible⟩

/-- What has failed stands behind all that is fair, and so does what follows it. -/
theorem mem_of_unfair {before after events rest : List Event} {event : Event}
    (split : before ++ after = events ++ event :: rest) (fair : ∀ event ∈ before, event.Fair tokens)
    (unfair : ¬event.Fair tokens) : ∀ e ∈ event :: rest, e ∈ after := by
  rcases List.append_eq_append_iff.mp split with ⟨between, -, rfl⟩ | ⟨_ | ⟨first, between⟩, rfl, same⟩
  · exact fun e member => List.mem_append_right _ member
  · rw [same]
    exact fun e member => member
  · obtain ⟨rfl, -⟩ := List.cons.inj same
    exact absurd (fair _ (List.mem_append_right _ List.mem_cons_self)) unfair

/-- From every place, reading a field, an expression or an import clause ends, and where it succeeds it has taken a
    token at least, none of them the end of the text, and has given back its levels. So reading a file ends whatever
    its tokens are, as the parser says: each call noted on the way has done so, each turn of a loop begins with as many
    levels in use as the first, and behind a call that fails there is nothing but to hand on its fault. -/
theorem file_balanced (tokens : List Token) (revision : Revision) (ends : Ended tokens) :
    (∀ s, Balanced tokens (field tokens revision) s ∧ Balanced tokens (expression tokens revision) s ∧
      Balanced tokens (fun _ => importClause tokens) s) ∧
    ∃ outcome final, Comes (file tokens revision) .initial (some (outcome, final)) ∧
      outcome = ((Syntax.file revision).run (.ofTokens tokens)).map Prod.fst ∧
      (∀ part start stop, .finished part start stop ∈ final.trace → start.Takes tokens stop) ∧
      (∀ entry here, .turned entry here ∈ final.trace → here.depth = entry.depth) ∧
      (∀ before part start stop fault after, final.trace = before ++ .failed part start stop fault :: after →
        outcome = .error fault ∧ final.place.position = stop.position ∧
        ∀ event ∈ after, event.HandsOn fault stop.position) := by
  have lower (n : Nat) : ∀ m, n = m + 1 → Levels tokens revision m := fun m _ => levels ends m
  obtain ⟨_, follows, run⟩ := file_follows ends revision
  obtain ⟨outcome, final, before, after, rfl, agrees, trace, fair, handed⟩ := follows.noted
  change final.trace = before ++ after at trace
  have fair_or_handed {event : Event} (noted : event ∈ final.trace) :
      event.Fair tokens ∨ ∃ fault, outcome = .error fault ∧ event.HandsOn fault final.place.position := by
    rw [trace, List.mem_append] at noted
    exact noted.imp (fair event) (handed event)
  refine ⟨fun s => ⟨?_, ?_, ?_⟩, outcome, final, run, agrees, ?_, ?_, ?_⟩
  · exact (field_follows ends (lower _) rfl).balanced ends
  · exact (expression_follows ends (lower _) rfl).balanced ends
  · exact (importClause_follows ends).balanced ends
  · intro part start stop noted
    obtain ⟨passed, advances⟩ | ⟨_, _, impossible⟩ := fair_or_handed noted
    · exact passed.takes ends advances
    · exact impossible.elim
  · intro entry here noted
    obtain same | ⟨_, _, impossible⟩ := fair_or_handed noted
    · exact same
    · exact impossible.elim
  · intro earlier part start stop fault later split
    have behind : ∀ event ∈ Event.failed part start stop fault :: later, event ∈ after :=
      mem_of_unfair (trace.symm.trans split) fair id
    obtain ⟨_, is, rfl, same⟩ := handed _ (behind _ List.mem_cons_self)
    refine ⟨is, same.symm, fun event member => ?_⟩
    obtain ⟨_, is', hands⟩ := handed _ (behind _ (List.mem_cons_of_mem _ member))
    rw [same, Except.error.inj (is.symm.trans is')]
    exact hands

/-- A brace that nothing closes: the loop over what would stand in it ends with a fault. -/
theorem file_balanced_open_brace :
    let tokens : List Token := [⟨.leftBrace, ⟨0, 1⟩, []⟩, ⟨.eof, .point 1, []⟩]
    Ended tokens ∧ ∃ final, Comes (file tokens .current) .initial
      (some (.error ⟨.unexpected (.closing .rightBrace) .eof, .point 1⟩, final)) := by
  intro tokens
  have ends : Ended tokens := by decide
  obtain ⟨-, outcome, final, run, rfl, -⟩ := file_balanced tokens .current ends
  exact ⟨ends, final, run⟩

/-- Elements behind each other, after which all levels are given back. -/
example : (file [⟨.leftBracket, ⟨0, 1⟩, []⟩, ⟨.int 1, ⟨1, 2⟩, []⟩, ⟨.comma false, ⟨2, 3⟩, []⟩, ⟨.int 2, ⟨3, 4⟩, []⟩,
    ⟨.rightBracket, ⟨4, 5⟩, []⟩, ⟨.eof, .point 5, []⟩] .current 20 .initial).map (·.2.place) = some ⟨5, 0⟩ := by
  decide +kernel

end StackLattice.Syntax.Descent
