import StackLattice.Proofs.Syntax.Steps

/-!
What is read is derived: a reading that succeeds has passed over tokens that the grammar derives its result from.
-/

namespace StackLattice.Syntax

open Parse Grammar

/-- Whether a reading passes over tokens that are in a relation with its result. -/
def Derives {α : Type} (p : Parse α) (R : List Token → α → Prop) : Prop :=
  ∀ {c a c'}, p c = .ok (a, c') → c.finish.kind = .eof → ∃ ts, c = c'.prepend ts ∧ R ts a

section Steps

variable {α : Type} {revision : Revision} {c c' : Cursor}

/-- A token other than the end of the text, and what is read behind it. -/
theorem taken {ts : List Token} (eof : c.finish.kind = .eof) (more : c.current.kind ≠ .eof)
    (rest : c.advance = c'.prepend ts) : c = c'.prepend (c.current :: ts) := by
  rw [Cursor.prepend_cons, ← rest]
  exact Cursor.eq_prepend_current eof more

theorem ended {ts : List Token} (after : c = c'.prepend ts) (eof : c.finish.kind = .eof) : c'.finish.kind = .eof := by
  subst after
  exact eof

theorem descend_eq_ok {n : Nat} {read : Level → Parse α} {a : α}
    (h : Rule.descend (Level.below revision n) read c = .ok (a, c')) :
    ∃ k, n = k + 1 ∧ read (.ofHeight revision k) c = .ok (a, c') := by
  cases n with
  | zero => cases h
  | succ k => exact ⟨k, rfl, h⟩

theorem commas_taken (c : Cursor) : ∃ ts, Commas ts ∧
    c = ({ c with rest := c.rest.dropWhile (·.kind.isComma) } : Cursor).prepend ts ∧
    (c.finish.kind = .eof → c.current.kind.isComma = true → ts ≠ []) := by
  refine ⟨c.rest.takeWhile (·.kind.isComma), fun t member => ?_, ?_, fun eof comma => ?_⟩
  · exact List.all_eq_true.mp List.all_takeWhile t member
  · simp only [Cursor.prepend, List.takeWhile_append_dropWhile]
  · obtain ⟨rest, finish⟩ := c
    cases rest with
    | nil =>
      rw [show Cursor.current ⟨[], finish⟩ = finish from rfl, eof] at comma
      cases comma
    | cons t rest =>
      have first : t.kind.isComma = true := comma
      simp [first]

theorem expect_eq_ok {kind : TokenKind} {span : Span} (h : expect kind c = .ok (span, c'))
    (eof : c.finish.kind = .eof) (more : kind ≠ .eof) : ∃ t, t.kind = kind ∧ span = t.span ∧ c = c'.prepend [t] := by
  rw [expect, current_bind] at h
  split at h
  · rename_i is
    cases h
    exact ⟨_, is, rfl, taken eof (is ▸ more) rfl⟩
  · cases h

/-- Commas, or none in front of a token that ends the list. -/
theorem separatorOr_eq_ok {stop : TokenKind} (h : separatorOr stop c = .ok ((), c')) (eof : c.finish.kind = .eof) :
    ∃ commas, c = c'.prepend commas ∧ Commas commas ∧ (commas = [] → c'.current.kind = stop) := by
  rw [separatorOr, current_bind] at h
  split at h
  · rename_i comma
    obtain ⟨ts, commas, eq, some⟩ := commas_taken c
    cases h
    exact ⟨ts, eq, commas, fun none => absurd none (some eof comma)⟩
  · split at h
    · rename_i is
      cases h
      exact ⟨[], rfl, fun _ member => (by cases member), fun _ => is⟩
    · cases h

theorem separator_eq_ok (h : separator c = .ok ((), c')) (eof : c.finish.kind = .eof) :
    ∃ commas, c = c'.prepend commas ∧ Commas commas ∧ (commas = [] → c'.current.kind = .eof) := by
  rw [separator, current_bind] at h
  split at h
  · rename_i comma
    obtain ⟨ts, commas, eq, some⟩ := commas_taken c
    cases h
    exact ⟨ts, eq, commas, fun none => absurd none (some eof comma)⟩
  · split at h
    · rename_i is
      cases h
      exact ⟨[], rfl, fun _ member => (by cases member), fun _ => is⟩
    · cases h

/-- Tokens of an element and the commas behind it, of which there are some unless a token that ends the list is
    next. -/
def Item (stop : TokenKind) (R : List Token → α → Prop) (item : Parse α) : Prop :=
  ∀ {c a c'}, item c = .ok (a, c') → c.finish.kind = .eof → ∃ ts commas, c = c'.prepend (ts ++ commas) ∧ R ts a ∧
    Commas commas ∧ (commas = [] → c'.current.kind = stop)

/-- Items that are read one after the other are pieces of a list that the stop token ends. -/
theorem itemsUpTo_eq_ok {stop : TokenKind} {R : List Token → α → Prop} {item : Parse α} (each : Item stop R item)
    {count : Nat} {as : List α} (h : itemsUpTo stop item count c = .ok (as, c')) (eof : c.finish.kind = .eof) :
    ∃ pieces, c = c'.prepend (written pieces) ∧ trees pieces = as ∧ (∀ p ∈ pieces, R p.tokens p.tree) ∧
      Separated [] pieces ∧ c'.current.kind = stop ∧ (c.current.kind = stop → pieces = []) := by
  induction count generalizing c as with
  | zero => cases h
  | succ count ih =>
    rw [itemsUpTo, current_bind] at h
    split at h
    · rename_i is
      cases h
      exact ⟨[], rfl, rfl, fun _ member => (by cases member), trivial, is, fun _ => rfl⟩
    · rename_i other
      obtain ⟨first, c₁, read, h⟩ := bind_eq_ok h
      obtain ⟨others, c₂, readOthers, h⟩ := bind_eq_ok h
      cases h
      obtain ⟨ts, commas, rfl, derived, areCommas, last⟩ := each read eof
      obtain ⟨pieces, rfl, rfl, all, separated, stopped, none⟩ := ih readOthers eof
      refine ⟨⟨ts, commas, first⟩ :: pieces, ?_, rfl, ?_, ⟨⟨areCommas, fun nothing => ?_⟩, separated⟩, stopped,
        fun is => absurd is other⟩
      · exact (Cursor.prepend_append _ _ _).symm
      · exact List.forall_mem_cons.mpr ⟨derived, all⟩
      · rw [none (last nothing)]
        rfl

theorem item_of_element {stop : TokenKind} {R : List Token → α → Prop} {element : Parse α}
    (each : Derives element R) :
    Item stop R (do
      if (← current).kind = .eof then unexpected (.closing stop)
      let e ← element
      separatorOr stop
      return e) := by
  intro c a c' h eof
  rw [current_bind] at h
  split at h
  · cases h
  · obtain ⟨e, c₁, read, h⟩ := bind_eq_ok h
    obtain ⟨_, c₂, ended, h⟩ := bind_eq_ok h
    cases h
    obtain ⟨ts, rfl, derived⟩ := each read eof
    obtain ⟨commas, rfl, areCommas, last⟩ := separatorOr_eq_ok ended eof
    exact ⟨ts, commas, (Cursor.prepend_append _ _ _).symm, derived, areCommas, last⟩

/-- A list in brackets, from behind the opening one. -/
theorem enclosed_eq_ok {stop : TokenKind} {R : List Token → α → Prop} {element : Parse α} (each : Derives element R)
    {as : List α} {span : Span} (h : enclosed stop element c = .ok ((as, span), c')) (eof : c.finish.kind = .eof)
    (more : stop ≠ .eof) :
    ∃ commas pieces closing, c = c'.prepend (commas ++ written pieces ++ [closing]) ∧ trees pieces = as ∧
      Commas commas ∧ (∀ p ∈ pieces, R p.tokens p.tree) ∧ Separated [] pieces ∧ closing.kind = stop ∧
      span = closing.span := by
  rw [enclosed, skipCommas_bind] at h
  obtain ⟨commas, areCommas, eq, -⟩ := commas_taken c
  generalize ({ c with rest := c.rest.dropWhile (·.kind.isComma) } : Cursor) = c₀ at eq h
  subst eq
  obtain ⟨elements, c₁, read, h⟩ := bind_eq_ok h
  obtain ⟨_, c₂, closed, h⟩ := bind_eq_ok h
  cases h
  rw [items, get_bind] at read
  obtain ⟨pieces, rfl, trees, all, separated, -, -⟩ := itemsUpTo_eq_ok (item_of_element each) read eof
  obtain ⟨closing, is, rfl, rfl⟩ := expect_eq_ok closed eof more
  refine ⟨commas, pieces, closing, ?_, trees, areCommas, all, separated, is, rfl⟩
  simp only [Cursor.prepend_append]

end Steps

section Levels

variable {revision : Revision}

/-- What the readings of a level derive. -/
structure Level.Sound (revision : Revision) (n : Nat) : Prop where
  disjunction : Derives (ofHeight revision n).disjunction (Expression revision (n + 1))
  disjunctionTail : ∀ left, Derives ((ofHeight revision n).disjunctionTail left) (Disjoined revision n left)
  unification : Derives (ofHeight revision n).unification (Unification revision n)
  unificationTail : ∀ left, Derives ((ofHeight revision n).unificationTail left) (Unified revision n left)
  unary : Derives (ofHeight revision n).unary (Unary revision n)
  selectorTail : ∀ base, Derives ((ofHeight revision n).selectorTail base) (Selection revision n base)
  field : Derives (ofHeight revision n).field (FieldDecl revision n)

namespace Rule

variable {n : Nat} {c c' : Cursor} (lower : ∀ k, n = k + 1 → Level.Sound revision k)
include lower

theorem expression_derives : Derives (expression (Level.below revision n)) (Expression revision n) := by
  intro c e c' h eof
  obtain ⟨k, rfl, h⟩ := descend_eq_ok h
  exact (lower k rfl).disjunction h eof

theorem declaration_derives : Derives (declaration (Level.below revision n)) (Declaration revision n) := by
  intro c d c' h eof
  rw [declaration, get_bind] at h
  split at h
  · obtain ⟨k, rfl, h⟩ := descend_eq_ok h
    obtain ⟨ts, eq, derived⟩ := (lower k rfl).field h eof
    exact ⟨ts, eq, .field derived⟩
  · obtain ⟨e, c₁, read, h⟩ := bind_eq_ok h
    cases h
    obtain ⟨ts, eq, derived⟩ := expression_derives lower read eof
    exact ⟨ts, eq, .embed derived⟩

omit lower in
theorem leaf_derives {e e' : Expr} (h : (do advance; return e : Parse Expr) c = .ok (e', c'))
    (eof : c.finish.kind = .eof) (leaf : Leaf c.current e) :
    ∃ ts, c = c'.prepend ts ∧ Primary revision n ts e' := by
  rw [advance_bind] at h
  cases h
  refine ⟨_, taken eof ?_ rfl, .leaf leaf⟩
  cases leaf with
  | _ is => rw [is]; exact TokenKind.noConfusion

theorem primary_derives : Derives (primary (Level.below revision n)) (Primary revision n) := by
  intro c e c' h eof
  rw [primary, current_bind] at h
  cases is : c.current.kind <;> simp only [is] at h
  case null => exact leaf_derives h eof (.null is)
  case true => exact leaf_derives h eof (.true is)
  case false => exact leaf_derives h eof (.false is)
  case int => exact leaf_derives h eof (.int is)
  case float => exact leaf_derives h eof (.float is)
  case string => exact leaf_derives h eof (.string is)
  case ident => exact leaf_derives h eof (.ident is)
  case leftBrace =>
    rw [advance_bind] at h
    obtain ⟨⟨decls, stop⟩, c₁, read, h⟩ := bind_eq_ok h
    cases h
    obtain ⟨commas, pieces, closing, after, rfl, areCommas, all, separated, isClosing, rfl⟩ :=
      enclosed_eq_ok (declaration_derives lower) read eof (by decide)
    exact ⟨_, taken eof (by rw [is]; decide) after, .struct is areCommas all separated isClosing⟩
  case leftBracket =>
    rw [advance_bind] at h
    obtain ⟨⟨items, stop⟩, c₁, read, h⟩ := bind_eq_ok h
    cases h
    obtain ⟨commas, pieces, closing, after, rfl, areCommas, all, separated, isClosing, rfl⟩ :=
      enclosed_eq_ok (expression_derives lower) read eof (by decide)
    exact ⟨_, taken eof (by rw [is]; decide) after, .list is areCommas all separated isClosing⟩
  case leftParen =>
    rw [advance_bind] at h
    obtain ⟨inner, c₁, read, h⟩ := bind_eq_ok h
    obtain ⟨stop, c₂, closed, h⟩ := bind_eq_ok h
    cases h
    obtain ⟨ts, after, derived⟩ := expression_derives lower read eof
    obtain ⟨closing, isClosing, rfl, rfl⟩ := expect_eq_ok closed (ended after eof) (by decide)
    rw [← Cursor.prepend_append] at after
    exact ⟨_, taken eof (by rw [is]; decide) after, .paren is derived isClosing⟩
  all_goals cases h

theorem selectorTail_derives (base : Expr) :
    Derives (selectorTail (Level.below revision n) base) (Selection revision n base) := by
  intro c e c' h eof
  rw [selectorTail, check_bind] at h
  split at h
  · rename_i dot
    have dot : c.current.kind = .dot := eq_of_beq dot
    rw [advance_bind] at h
    obtain ⟨k, same, read⟩ := descend_eq_ok h
    subst same
    rw [current_bind] at read
    have named {label : String} (is : Selected c.advance.current label)
        (h : (do advance; (Level.ofHeight revision k).selectorTail (.select base ⟨label, c.advance.current.span⟩) :
          Parse Expr) c.advance = .ok (e, c')) :
        ∃ ts, c = c'.prepend ts ∧ Selection revision (k + 1) base ts e := by
      rw [advance_bind] at h
      obtain ⟨us, after, tail⟩ := (lower k rfl).selectorTail _ h eof
      refine ⟨_, taken eof (by rw [dot]; decide) (taken eof ?_ after), .more dot is tail⟩
      cases is with
      | _ is => rw [is]; exact TokenKind.noConfusion
    cases is : c.advance.current.kind <;> simp only [is] at read
    case ident => exact named (.ident is) read
    case string => exact named (.string is) read
    all_goals cases read
  · cases h
    exact ⟨[], rfl, .done⟩

theorem unary_derives : Derives (unary (Level.below revision n)) (Unary revision n) := by
  intro c e c' h eof
  rw [unary, current_bind] at h
  cases is : c.current.kind <;> simp only [is] at h
  case minus =>
    rw [advance_bind] at h
    obtain ⟨k, same, h⟩ := descend_eq_ok h
    subst same
    obtain ⟨operand, c₁, read, h⟩ := bind_eq_ok h
    cases h
    obtain ⟨ts, after, derived⟩ := (lower k rfl).unary read eof
    exact ⟨_, taken eof (by rw [is]; decide) after, .negated is derived⟩
  case star =>
    rw [advance_bind] at h
    obtain ⟨k, same, h⟩ := descend_eq_ok h
    subst same
    obtain ⟨operand, c₁, read, h⟩ := bind_eq_ok h
    cases h
    obtain ⟨ts, after, derived⟩ := (lower k rfl).unary read eof
    exact ⟨_, taken eof (by rw [is]; decide) after, .marked is derived⟩
  all_goals
    obtain ⟨first, c₁, read, h⟩ := bind_eq_ok h
    obtain ⟨ts, after, derived⟩ := primary_derives lower read eof
    obtain ⟨us, rfl, tail⟩ := selectorTail_derives lower first h (ended after eof)
    rw [← Cursor.prepend_append] at after
    exact ⟨_, after, .postfixed derived tail⟩

theorem unificationTail_derives (left : Expr) :
    Derives (unificationTail (Level.below revision n) left) (Unified revision n left) := by
  intro c e c' h eof
  rw [unificationTail, check_bind] at h
  split at h
  · rename_i ampersand
    have ampersand : c.current.kind = .ampersand := eq_of_beq ampersand
    rw [advance_bind] at h
    obtain ⟨k, same, h⟩ := descend_eq_ok h
    subst same
    obtain ⟨right, c₁, read, h⟩ := bind_eq_ok h
    obtain ⟨ts, after, operand⟩ := (lower k rfl).unary read eof
    obtain ⟨us, rfl, tail⟩ := (lower k rfl).unificationTail _ h (ended after eof)
    rw [← Cursor.prepend_append] at after
    exact ⟨_, taken eof (by rw [ampersand]; decide) after, .more ampersand operand tail⟩
  · cases h
    exact ⟨[], rfl, .done⟩

theorem unification_derives : Derives (unification (Level.below revision n)) (Unification revision n) := by
  intro c e c' h eof
  obtain ⟨first, c₁, read, h⟩ := bind_eq_ok h
  obtain ⟨ts, after, derived⟩ := unary_derives lower read eof
  obtain ⟨us, rfl, tail⟩ := unificationTail_derives lower first h (ended after eof)
  rw [← Cursor.prepend_append] at after
  exact ⟨_, after, .unification derived tail⟩

theorem disjunctionTail_derives (left : Expr) :
    Derives (disjunctionTail (Level.below revision n) left) (Disjoined revision n left) := by
  intro c e c' h eof
  rw [disjunctionTail, check_bind] at h
  split at h
  · rename_i bar
    have bar : c.current.kind = .pipe := eq_of_beq bar
    rw [advance_bind] at h
    obtain ⟨k, same, h⟩ := descend_eq_ok h
    subst same
    obtain ⟨right, c₁, read, h⟩ := bind_eq_ok h
    obtain ⟨ts, after, operand⟩ := (lower k rfl).unification read eof
    obtain ⟨us, rfl, tail⟩ := (lower k rfl).disjunctionTail _ h (ended after eof)
    rw [← Cursor.prepend_append] at after
    exact ⟨_, taken eof (by rw [bar]; decide) after, .more bar operand tail⟩
  · cases h
    exact ⟨[], rfl, .done⟩

theorem disjunction_derives : Derives (disjunction (Level.below revision n)) (Expression revision (n + 1)) := by
  intro c e c' h eof
  obtain ⟨first, c₁, read, h⟩ := bind_eq_ok h
  obtain ⟨ts, after, derived⟩ := unification_derives lower read eof
  obtain ⟨us, rfl, tail⟩ := disjunctionTail_derives lower first h (ended after eof)
  rw [← Cursor.prepend_append] at after
  exact ⟨_, after, .disjunction derived tail⟩

omit lower in
theorem label_eq_ok {l : Label} (h : label c = .ok (l, c')) (eof : c.finish.kind = .eof) :
    Labels c.current l ∧ c = c'.prepend [c.current] := by
  rw [label, current_bind] at h
  cases is : c.current.kind <;> simp only [is] at h
  case ident name =>
    split at h
    · cases h
    · rename_i named
      cases h
      exact ⟨.name is named, taken eof (by rw [is]; exact TokenKind.noConfusion) rfl⟩
  case string name =>
    cases h
    exact ⟨.string is, taken eof (by rw [is]; exact TokenKind.noConfusion) rfl⟩
  all_goals cases h

omit lower in
theorem mark_eq_ok {α : Type} {a : α} {k : Bool → Unit → Parse α}
    (h : (check .question >>= fun optional => if optional = true then advance >>= k optional else k optional ()) c =
      .ok (a, c')) (eof : c.finish.kind = .eof) :
    ∃ mark optional c₁, c = c₁.prepend mark ∧ Mark mark optional ∧ k optional () c₁ = .ok (a, c') := by
  rw [check_bind] at h
  split at h
  · rename_i question
    have is : c.current.kind = .question := eq_of_beq question
    rw [question] at h
    exact ⟨[c.current], true, c.advance, taken eof (by rw [is]; decide) rfl, .optional is, h⟩
  · rename_i other
    rw [Bool.not_eq_true] at other
    rw [other] at h
    exact ⟨[], false, c, rfl, .required, h⟩

omit lower in
theorem colon_eq_ok {kind kind' : LabelKind}
    (h : (do
      match (← current).kind with
      | .colon =>
        advance
        return kind
      | .doubleColon =>
        if revision = .legacy then
          advance
          return .definition
        else fail .doubleColon
      | _ => unexpected .colon : Parse LabelKind) c = .ok (kind', c')) (eof : c.finish.kind = .eof) :
    Colon revision kind c.current kind' ∧ c = c'.prepend [c.current] := by
  rw [current_bind] at h
  cases is : c.current.kind <;> simp only [is] at h
  case colon =>
    cases h
    exact ⟨.single is, taken eof (by rw [is]; decide) rfl⟩
  case doubleColon =>
    split at h
    · rename_i legacy
      cases h
      exact ⟨.double is legacy, taken eof (by rw [is]; decide) rfl⟩
    · cases h
  all_goals cases h

theorem fieldValue_derives :
    Derives (do
      if atFieldStart (← get) then
        let inner ← descend (Level.below revision n) (·.field)
        return .struct [inner] inner.span
      else expression (Level.below revision n) : Parse Expr) (FieldValue revision n) := by
  intro c e c' h eof
  rw [get_bind] at h
  split at h
  · obtain ⟨inner, c₁, read, h⟩ := bind_eq_ok h
    cases h
    obtain ⟨k, same, read⟩ := descend_eq_ok read
    subst same
    obtain ⟨ts, after, derived⟩ := (lower k rfl).field read eof
    exact ⟨ts, after, .field derived⟩
  · obtain ⟨ts, after, derived⟩ := expression_derives lower h eof
    exact ⟨ts, after, .expression derived⟩

theorem field_derives : Derives (field revision (Level.below revision n)) (FieldDecl revision n) := by
  intro c d c' h eof
  rw [field, current_bind] at h
  obtain ⟨l, c₁, read, h⟩ := bind_eq_ok h
  obtain ⟨labels, first⟩ := label_eq_ok read eof
  dsimp only at h
  obtain ⟨mark, optional, c₂, afterLabel, isMark, h⟩ := mark_eq_ok h (ended first eof)
  obtain ⟨kind, c₃, readColon, h⟩ := bind_eq_ok h
  obtain ⟨value, c₄, readValue, h⟩ := bind_eq_ok h
  cases h
  have eof₂ : c₂.finish.kind = .eof := ended afterLabel (ended first eof)
  obtain ⟨isColon, afterMark⟩ := colon_eq_ok readColon eof₂
  obtain ⟨ts, afterColon, derived⟩ := fieldValue_derives lower readValue (ended afterMark eof₂)
  refine ⟨c.current :: mark ++ c₂.current :: ts, ?_, .field labels isMark isColon derived⟩
  calc c = (((c'.prepend ts).prepend [c₂.current]).prepend mark).prepend [c.current] := by
        rw [← afterColon, ← afterMark, ← afterLabel, ← first]
    _ = _ := by simp only [← Cursor.prepend_append]; rfl

end Rule

theorem Level.sound (revision : Revision) (n : Nat) : Level.Sound revision n := by
  have step (n : Nat) (lower : ∀ k, n = k + 1 → Level.Sound revision k) : Level.Sound revision n := by
    constructor <;> rw [Level.ofHeight_eq]
    · exact Rule.disjunction_derives lower
    · exact Rule.disjunctionTail_derives lower
    · exact Rule.unification_derives lower
    · exact Rule.unificationTail_derives lower
    · exact Rule.unary_derives lower
    · exact Rule.selectorTail_derives lower
    · exact Rule.field_derives lower
  induction n with
  | zero => exact step 0 fun k impossible => absurd impossible (Nat.succ_ne_zero k).symm
  | succ n ih => exact step (n + 1) fun k same => Nat.succ.inj same ▸ ih

end Levels

section Files

variable {revision : Revision} {c c' : Cursor}

theorem importClause_derives : Derives importClause ImportClause := by
  intro c i c' h eof
  rw [importClause, current_bind] at h
  obtain ⟨name, c₁, read, h⟩ := bind_eq_ok h
  rw [current_bind] at read h
  cases isPath : c₁.current.kind <;> simp only [isPath] at h
  case string s =>
    cases h
    have more : c₁.current.kind ≠ .eof := by
      rw [isPath]
      exact TokenKind.noConfusion
    cases is : c.current.kind <;> simp only [is] at read
    case ident as =>
      cases read
      refine ⟨_, taken eof ?_ (taken eof more rfl), .named is isPath⟩
      rw [is]
      exact TokenKind.noConfusion
    all_goals
      cases read
      exact ⟨_, taken eof more rfl, .plain isPath⟩
  all_goals cases h

theorem item_importClause : Item .rightParen ImportClause (do
    let clause ← importClause
    separatorOr .rightParen
    return clause) := by
  intro c i c' h eof
  obtain ⟨clause, c₁, read, h⟩ := bind_eq_ok h
  obtain ⟨_, c₂, last, h⟩ := bind_eq_ok h
  cases h
  obtain ⟨ts, rfl, derived⟩ := importClause_derives read eof
  obtain ⟨commas, rfl, areCommas, closed⟩ := separatorOr_eq_ok last eof
  exact ⟨ts, commas, (Cursor.prepend_append _ _ _).symm, derived, areCommas, closed⟩

theorem importGroup_derives {word : Token} (importing : word.kind = .importing) :
    Derives importGroup fun ts is => ImportDecl (word :: ts) is := by
  intro c is c' h eof
  rw [importGroup, check_bind] at h
  split at h
  · rename_i paren
    have paren : c.current.kind = .leftParen := eq_of_beq paren
    rw [advance_bind, skipCommas_bind] at h
    obtain ⟨commas, areCommas, eq, -⟩ := commas_taken c.advance
    generalize ({ c.advance with rest := c.advance.rest.dropWhile (·.kind.isComma) } : Cursor) = c₀ at eq h
    obtain ⟨clauses, c₁, read, h⟩ := bind_eq_ok h
    rw [advance_bind] at h
    cases h
    rw [items, get_bind] at read
    have eof₀ : c₀.finish.kind = .eof := ended eq eof
    obtain ⟨pieces, after, rfl, all, separated, closed, -⟩ := itemsUpTo_eq_ok item_importClause read eof₀
    have closing : c₁ = c₁.advance.prepend [c₁.current] := taken (ended after eof₀) (by rw [closed]; decide) rfl
    refine ⟨c.current :: (commas ++ written pieces ++ [c₁.current]), ?_,
      .group importing paren areCommas all separated closed⟩
    refine taken eof (by rw [paren]; decide) ?_
    rw [eq, after]
    simp only [Cursor.prepend_append, ← closing]
  · obtain ⟨clause, c₁, read, h⟩ := bind_eq_ok h
    cases h
    obtain ⟨ts, after, derived⟩ := importClause_derives read eof
    exact ⟨ts, after, .single importing derived⟩

theorem imports_eq_ok {count : Nat} {is : List Import} (h : imports count c = .ok (is, c'))
    (eof : c.finish.kind = .eof) :
    ∃ pieces, c = c'.prepend (written pieces) ∧ (trees pieces).flatten = is ∧
      (∀ p ∈ pieces, ImportDecl p.tokens p.tree) ∧ (c.current.kind = .eof → pieces = []) ∧
      ∀ follows, (c'.current.kind = .eof → follows = []) → Separated follows pieces := by
  induction count generalizing c is with
  | zero => cases h
  | succ count ih =>
    rw [imports, check_bind] at h
    split at h
    · rename_i word
      have word : c.current.kind = .importing := eq_of_beq word
      rw [advance_bind] at h
      obtain ⟨group, c₁, read, h⟩ := bind_eq_ok h
      obtain ⟨_, c₂, last, h⟩ := bind_eq_ok h
      obtain ⟨others, c₃, readOthers, h⟩ := bind_eq_ok h
      cases h
      obtain ⟨ts, after, derived⟩ := importGroup_derives word read eof
      have eof₁ := ended after eof
      obtain ⟨commas, afterGroup, areCommas, ends⟩ := separator_eq_ok last eof₁
      obtain ⟨pieces, rfl, rfl, all, none, separated⟩ := ih readOthers (ended afterGroup eof₁)
      refine ⟨⟨c.current :: ts, commas, group⟩ :: pieces, ?_, rfl, List.forall_mem_cons.mpr ⟨derived, all⟩,
        fun is => ?_, fun follows atEnd => ⟨⟨areCommas, fun nothing => ?_⟩, separated follows atEnd⟩⟩
      · have rest : c.advance = c'.prepend (ts ++ (commas ++ written pieces)) := by
          rw [after, afterGroup]
          simp only [Cursor.prepend_append]
        have all : written (⟨c.current :: ts, commas, group⟩ :: pieces) =
            c.current :: (ts ++ (commas ++ written pieces)) := by simp [written]
        rw [all]
        exact taken eof (by rw [word]; decide) rest
      · rw [word] at is
        cases is
      · have stopped := ends nothing
        have last := none stopped
        subst last
        rw [atEnd stopped]
        rfl
    · rename_i other
      cases h
      exact ⟨[], rfl, rfl, fun _ member => (by cases member), fun _ => rfl, fun _ _ => trivial⟩

theorem packageClause_eq_ok {name : Option Ident} (h : packageClause c = .ok (name, c')) (eof : c.finish.kind = .eof) :
    ∃ ts, c = c'.prepend ts ∧ ∀ follows, (c'.current.kind = .eof → follows = []) → PackageClause follows ts name := by
  rw [packageClause, check_bind] at h
  split at h
  · rename_i word
    have word : c.current.kind = .package := eq_of_beq word
    rw [advance_bind, current_bind] at h
    cases is : c.advance.current.kind <;> simp only [is] at h
    case ident s =>
      rw [advance_bind] at h
      obtain ⟨_, c₁, last, h⟩ := bind_eq_ok h
      cases h
      obtain ⟨commas, after, areCommas, ends⟩ := separator_eq_ok last eof
      refine ⟨_, taken eof (by rw [word]; decide) (taken eof ?_ after), fun follows atEnd => ?_⟩
      · rw [is]
        exact TokenKind.noConfusion
      · exact .present word is ⟨areCommas, fun none => atEnd (ends none)⟩
    all_goals cases h
  · cases h
    exact ⟨[], rfl, fun _ _ => .absent⟩

theorem item_declaration (n : Nat) : Item .eof (Declaration revision n) (do
    if ← check .importing then fail .lateImport
    let decl ← Rule.declaration (Level.below revision n)
    separator
    return decl) := by
  intro c d c' h eof
  rw [check_bind] at h
  dsimp only at h
  split at h
  · cases h
  · obtain ⟨decl, c₁, read, h⟩ := bind_eq_ok h
    obtain ⟨_, c₂, last, h⟩ := bind_eq_ok h
    cases h
    obtain ⟨ts, rfl, derived⟩ := Rule.declaration_derives (fun k _ => Level.sound revision k) read eof
    obtain ⟨commas, rfl, areCommas, ends⟩ := separator_eq_ok last eof
    exact ⟨ts, commas, (Cursor.prepend_append _ _ _).symm, derived, areCommas, ends⟩

/-- A file that is read is derived from all of its tokens. -/
theorem file_derives {body : List Token} {finish : Token} {f : File} (inside : ∀ t ∈ body, t.kind ≠ .eof)
    (eof : finish.kind = .eof) (h : file revision ⟨body, finish⟩ = .ok (f, c')) :
    Grammar.File revision nestingLimit (body ++ [finish]) f := by
  rw [file, skipCommas_bind] at h
  obtain ⟨commas, areCommas, eq, -⟩ := commas_taken ⟨body, finish⟩
  generalize ({ (⟨body, finish⟩ : Cursor) with rest := body.dropWhile (·.kind.isComma) } : Cursor) = c₀ at eq h
  rw [current_bind] at h
  obtain ⟨name, c₁, readPackage, h⟩ := bind_eq_ok h
  rw [get_bind] at h
  obtain ⟨is, c₂, readImports, h⟩ := bind_eq_ok h
  dsimp only at h
  obtain ⟨decls, c₃, readDecls, h⟩ := bind_eq_ok h
  cases h
  have eof₀ : c₀.finish.kind = .eof := ended eq eof
  obtain ⟨package, rfl, isPackage⟩ := packageClause_eq_ok readPackage eof₀
  obtain ⟨imports, rfl, rfl, areImports, none, separated⟩ := imports_eq_ok readImports eof₀
  rw [items, get_bind] at readDecls
  obtain ⟨pieces, rfl, rfl, areDecls, separatedDecls, stopped, noDecls⟩ :=
    itemsUpTo_eq_ok (item_declaration nestingLimit) readDecls eof₀
  obtain ⟨rest, last⟩ := c'
  have whole := congrArg Cursor.rest eq
  cases congrArg Cursor.finish eq
  cases rest with
  | cons t rest =>
    -- A token that is left would be the end of the text.
    refine absurd stopped (inside t ?_)
    simp only [Cursor.prepend] at whole
    rw [whole]
    simp
  | nil =>
    simp only [Cursor.prepend, List.append_nil] at whole
    have derived := Grammar.File.file areCommas
      (isPackage (written imports ++ written pieces) fun atEnd => by
        cases none atEnd
        cases noDecls atEnd
        rfl)
      areImports (separated (written pieces) fun atEnd => by
        cases noDecls atEnd
        rfl)
      areDecls separatedDecls eof
    rw [whole, ← List.append_assoc package]
    simpa [Cursor.current, Cursor.prepend] using derived

end Files

end StackLattice.Syntax
