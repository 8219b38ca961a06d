import StackLattice.Proofs.Evaluation.Chain

/-!
Declarations that stand in a body among others which say nothing of their labels.
-/

namespace StackLattice.Evaluation

open Syntax (Expr Decl Label LabelKind ParsedFile)
open Value

variable {kinds : String → LabelKind} {file : ParsedFile}

/-- Nothing is said of a label in the body at a trail, nor in the body of the label. -/
def Avoids (here : Trail) (name : String) (ms : List (Trail × Mention)) : Prop :=
  ∀ m ∈ ms, m.2.about name = false ∧ ∀ inside, m.1 ≠ inside ++ name :: here

namespace Avoids

variable {here : Trail} {name : String} {ms ms' : List (Trail × Mention)}

theorem append : Avoids here name (ms ++ ms') ↔ Avoids here name ms ∧ Avoids here name ms' := List.forall_mem_append

theorem filter_eq_nil (h : Avoids here name ms) (trail : Trail) :
    (mentionsAt trail ms).filter (·.about name) = [] := by
  refine List.filter_eq_nil_iff.mpr fun m said => ?_
  rw [(h _ (mem_mentionsAt.mp said)).1]
  exact Bool.false_ne_true

theorem mentionsAt_eq_nil (h : Avoids here name ms) (inside : Trail) : mentionsAt (inside ++ name :: here) ms = [] :=
  List.eq_nil_iff_forall_not_mem.mpr fun _ said => (h _ (mem_mentionsAt.mp said)).2 inside rfl

end Avoids

/-- These declarations stand in the body at a trail of a block, and the others say nothing of some labels. -/
def Hosts (b : Block) (here : Trail) (file : ParsedFile) (names : Set String) (decls : List Decl) : Prop :=
  ∃ before after, b.mentions = before ++ declsMentions here file decls ++ after ∧
    ∀ name ∈ names, Avoids here name before ∧ Avoids here name after

namespace Hosts

variable {b : Block} {here : Trail} {names : Set String} {decls : List Decl} (h : Hosts b here file names decls)
  {name : String} (fresh : name ∈ names)

include h fresh

theorem filter_about (trail : Trail) : (b.mentionsAt trail).filter (·.about name) =
    (mentionsAt trail (declsMentions here file decls)).filter (·.about name) := by
  obtain ⟨before, after, split, avoids⟩ := h
  show (mentionsAt trail b.mentions).filter _ = _
  rw [split, mentionsAt_append, mentionsAt_append, List.filter_append, List.filter_append,
    (avoids name fresh).1.filter_eq_nil, (avoids name fresh).2.filter_eq_nil, List.nil_append, List.append_nil]

theorem mentionsAt_inside (inside : Trail) :
    b.mentionsAt (inside ++ name :: here) = mentionsAt (inside ++ name :: here) (declsMentions here file decls) := by
  obtain ⟨before, after, split, avoids⟩ := h
  show mentionsAt _ b.mentions = _
  rw [split, mentionsAt_append, mentionsAt_append, (avoids name fresh).1.mentionsAt_eq_nil,
    (avoids name fresh).2.mentionsAt_eq_nil, List.nil_append, List.append_nil]

end Hosts

/-- The fields `a: e` and `l: [e]`. -/
def twice (a l : Label) (docs docs' : List Syntax.Comment) (span span' listSpan : Span) (e : Expr) : List Decl :=
  [.field a false docs span e, .field l false docs' span' (.list [e] listSpan)]

section Twice

variable {a l : Label} {docs docs' : List Syntax.Comment} {span span' listSpan : Span} {e : Expr} {here : Trail}

theorem declsMentions_twice : declsMentions here file (twice a l docs docs' span span' listSpan e) =
    (here, .label a false file) :: valueMentions here a.name file e ++
      [(here, .label l false file), (here, .conjunct l.name (.list [e] listSpan) file)] := by
  simp [twice, declsMentions, declMentions, valueMentions]

theorem mentionsAt_twice_here : mentionsAt here (declsMentions here file (twice a l docs docs' span span' listSpan e)) =
    .label a false file :: e.conjuncts.map (operandMention a.name file) ++
      [.label l false file, .conjunct l.name (.list [e] listSpan) file] := by
  rw [declsMentions_twice, mentionsAt_append, mentionsAt_cons_self, mentionsAt_value_here, mentionsAt_cons_self,
    mentionsAt_cons_self]
  rfl

variable {b : Block} {names : Set String} (h : Hosts b here file names (twice a l docs docs' span span' listSpan e))
  (fresh : a.name ∈ names) (fresh' : l.name ∈ names) (apart : a.name ≠ l.name)

include h

include fresh in
/-- In the body of the one field are the declarations of the struct literals. -/
theorem mentionsAt_field (trail : Trail) : b.mentionsAt (trail ++ a.name :: here) =
    mentionsAt trail (e.literals.map (declsMentions [] file)).flatten := by
  have longer : here ≠ trail ++ a.name :: here := by
    intro same
    have lengths := congrArg List.length same
    rw [List.length_append, List.length_cons] at lengths
    omega
  rw [h.mentionsAt_inside fresh, declsMentions_twice, mentionsAt_append, mentionsAt_cons_of_ne longer,
    mentionsAt_cons_of_ne longer, mentionsAt_cons_of_ne longer, mentionsAt_value_inside]
  exact List.append_nil _

include fresh apart in
theorem filter_field : (b.mentionsAt here).filter (·.about a.name) =
    .label a false file :: e.conjuncts.map (operandMention a.name file) := by
  have other : (l.name == a.name) = false := beq_eq_false_iff_ne.mpr apart.symm
  have own : (e.conjuncts.map (operandMention a.name file)).filter (·.about a.name) =
      e.conjuncts.map (operandMention a.name file) := by
    refine List.filter_eq_self.mpr fun m member => ?_
    obtain ⟨c, _, rfl⟩ := List.mem_map.mp member
    exact about_operandMention.trans (beq_self_eq_true _)
  rw [h.filter_about fresh, mentionsAt_twice_here, List.cons_append, List.filter_cons_of_pos, List.filter_append, own]
  · simp [Mention.about, other]
  · exact beq_self_eq_true _

include fresh' apart in
theorem filter_list : (b.mentionsAt here).filter (·.about l.name) =
    [.label l false file, .conjunct l.name (.list [e] listSpan) file] := by
  have other : (a.name == l.name) = false := beq_eq_false_iff_ne.mpr apart
  have others : (e.conjuncts.map (operandMention a.name file)).filter (·.about l.name) = [] := by
    refine List.filter_eq_nil_iff.mpr fun m member => ?_
    obtain ⟨c, _, rfl⟩ := List.mem_map.mp member
    rw [about_operandMention, other]
    exact Bool.false_ne_true
  rw [h.filter_about fresh', mentionsAt_twice_here, List.cons_append, List.filter_cons_of_neg, List.filter_append, others]
  · simp [Mention.about]
  · simp [Mention.about, other]

end Twice

section Gathered

variable {name : String} (ms : List Mention)

/-- What is said of a label is found among the mentions of it. -/
theorem filterMap_conjunct?_about :
    (ms.filter (·.about name)).filterMap (Mention.conjunct? name) = ms.filterMap (Mention.conjunct? name) := by
  rw [List.filterMap_filter]
  refine List.filterMap_congr fun m _ => ?_
  cases said : m.about name with
  | true => rfl
  | false => exact (Mention.silent said).2.1.symm

theorem any_opens_about : (ms.filter (·.about name)).any (Mention.opens name) = ms.any (Mention.opens name) := by
  rw [List.any_filter]
  congr 1
  funext m
  cases said : m.about name with
  | true => rfl
  | false => exact (Mention.silent said).2.2.symm

end Gathered

section Classes

variable {a l : Label} {docs docs' : List Syntax.Comment} {span span' listSpan : Span} {e : Expr} {b : Block}
  {here : Trail} {outer : Env} {names : Set String}
  (h : Hosts b here file names (twice a l docs docs' span span' listSpan e))
  (fresh : a.name ∈ names) (fresh' : l.name ∈ names) (apart : a.name ≠ l.name)
  (alike : Env.Alike kinds (⟨b, here⟩ :: outer) (⟨b, here⟩ :: outer))

include h

include fresh apart in
theorem any_opens_field : (b.mentionsAt here).any (Mention.opens a.name) = e.conjuncts.any (·.literal?.isSome) := by
  rw [← any_opens_about, filter_field h fresh apart, List.any_cons, List.any_map]
  show (false || e.conjuncts.any _) = _
  rw [Bool.false_or]
  exact congrArg e.conjuncts.any (funext fun c => opens_operandMention)

include fresh apart alike in
/-- The field is the product of the operands that are no literals, and of the body in which those join that are. -/
theorem fieldClass_field : fieldClass kinds (⟨b, here⟩ :: outer) a.name =
    ((e.conjuncts.filter (·.literal?.isNone)).map fun c => exprClass kinds (⟨b, here⟩ :: outer) ⟨c, file⟩).prod *
      if e.conjuncts.any (·.literal?.isSome) then bodyClass kinds (joined b a.name here outer []) else 1 := by
  have conjuncts : (b.mentionsAt here).filterMap (Mention.conjunct? a.name) =
      (e.conjuncts.filter (·.literal?.isNone)).map fun c => ⟨c, file⟩ := by
    rw [← filterMap_conjunct?_about, filter_field h fresh apart, List.filterMap_cons_none rfl, List.filterMap_map,
      ← List.filterMap_eq_map, List.filterMap_filter]
    refine List.filterMap_congr fun c _ => ?_
    rw [Function.comp, conjunct?_operandMention]
    cases c.literal? <;> rfl
  rw [fieldClass_said ((rearranged_block alike).led _ _), conjuncts, any_opens_field h fresh apart,
    List.map_map]
  rfl

include fresh' apart in
theorem find?_list : Env.find? (⟨b, here⟩ :: outer) l.name =
    some ⟨l.name, l.kind, false, file.source.position l.span, [⟨.list [e] listSpan, file⟩], false⟩ := by
  show Declared.find? ((b.mentionsAt here).foldl Mention.apply []) l.name = _
  rw [Declared.find?_foldl_filter _ rfl, filter_list h fresh' apart]
  simp [Mention.apply, Declared.find?, Declared.update]

include fresh' apart in
/-- The other field is a list of one element. -/
theorem value_of_list {n : Nat} {y : Value}
    (comes : Closure.fieldValue (Closure.meaning n) (⟨b, here⟩ :: outer) l.name = some (.ok y)) :
    ∃ m path w, y = .list [w] ∧ Closure.meaning m (.expr e ⟨⟨b, here⟩ :: outer, file, path⟩) = some (.ok w) := by
  unfold Closure.fieldValue at comes
  rw [find?_list h fresh' apart] at comes
  obtain ⟨u, conjuncts, comes⟩ | ⟨_, _, impossible⟩ := Meaning.bind_eq_some comes
  · cases comes
    obtain ⟨v, value, joined⟩ | ⟨_, _, impossible⟩ := Meaning.bind_eq_some conjuncts
    · obtain _ | n := n
      · cases value
      obtain ⟨items, found, same⟩ | ⟨_, _, impossible⟩ := Meaning.bind_eq_some value
      · cases same
        obtain _ | ⟨element, rest⟩ := Meaning.mapM_eq_some found
        cases rest
        rw [Closure.unifyAt, top_unify] at joined
        cases joined
        exact ⟨n, _, _, rfl, element⟩
      · cases impossible
    · cases impossible
  · cases impossible

include fresh alike in
/-- The struct literals of the field join in a body that is the product of what they are by themselves. -/
theorem class_literals (tame : e.Tame kinds)
    (separate : (e.literals.map (declsMentions [] file)).Pairwise fun ms ms' => Apart ms ms' ∧ Apart ms' ms)
    (live : (e.literals.map fun decls => bodyClass kinds (Env.literal (⟨b, here⟩ :: outer) "" file decls)).prod ≠ 0)
    {n : Nat} {u : Value} (comes : Closure.meaning n (.body (joined b a.name here outer [])) = some (.ok u))
    (some : e.literals ≠ []) : bodyClass kinds (joined b a.name here outer []) =
      (e.literals.map fun decls => bodyClass kinds (Env.literal (⟨b, here⟩ :: outer) "" file decls)).prod := by
  have merges : Merges b a.name here (e.literals.map (declsMentions [] file)) := by
    refine ⟨mentionsAt_field h fresh, fun ms member => ?_, separate⟩
    obtain ⟨decls, _, rfl⟩ := List.mem_map.mp member
    exact grown_declsMentions file [] decls
  have rearranged (ms : List (Trail × Mention)) (member : ms ∈ e.literals.map (declsMentions [] file)) :
      Block.Rearranged kinds ⟨"", ms⟩ ⟨"", ms⟩ := by
    obtain ⟨decls, inside, rfl⟩ := List.mem_map.mp member
    obtain ⟨c, operand, literal⟩ := List.mem_filterMap.mp inside
    have tameC := Expr.everywhere_of_mem tame operand
    cases c <;> cases literal
    exact Block.rearranged_literal tameC.2 "" "" file
  have parts : ((e.literals.map (declsMentions [] file)).map (partClass kinds b here outer [])).prod =
      (e.literals.map fun decls => bodyClass kinds (Env.literal (⟨b, here⟩ :: outer) "" file decls)).prod := by
    rw [List.map_map]
    exact congrArg List.prod (List.map_congr_left fun decls _ => partClass_nil outer _)
  obtain ⟨first, others, split⟩ := List.exists_cons_of_ne_nil some
  rw [← parts] at live ⊢
  exact class_joined merges alike rearranged comes ⟨_, List.mem_map_of_mem (split ▸ List.mem_cons_self), .inl rfl⟩ live

include fresh fresh' apart alike in
/-- The value of the one field is the element of the other. -/
theorem matches_of_hosts (tame : e.Tame kinds)
    (separate : (e.literals.map (declsMentions [] file)).Pairwise fun ms ms' => Apart ms ms' ∧ Apart ms' ms)
    {n : Nat} {x y : Value} (first : Closure.fieldValue (Closure.meaning n) (⟨b, here⟩ :: outer) a.name = some (.ok x))
    (second : Closure.fieldValue (Closure.meaning n) (⟨b, here⟩ :: outer) l.name = some (.ok y)) :
    ∃ w, y = .list [w] ∧ x.Matches w := by
  obtain ⟨m, path, w, rfl, comes⟩ := value_of_list h fresh' apart second
  refine ⟨w, rfl, ?_⟩
  obtain ⟨tameW, ofW⟩ := class_conjuncts alike tame comes
  have live := ofW ▸ Class.of_ne_zero tameW
  have literals (c : Expr) (member : c ∈ e.conjuncts) (decls : List Decl) (literal : c.literal? = some decls) :
      exprClass kinds (⟨b, here⟩ :: outer) ⟨c, file⟩ =
        bodyClass kinds (Env.literal (⟨b, here⟩ :: outer) "" file decls) :=
    exprClass_literal literal (Class.ne_zero_of_mem live (List.mem_map_of_mem member))
  rw [prod_operands literals] at ofW live
  obtain ⟨d, found⟩ : ∃ d, Env.find? (⟨b, here⟩ :: outer) a.name = some d := by
    refine Option.ne_none_iff_exists'.mp fun none => ?_
    rw [Closure.fieldValue, none] at first
    cases first
  obtain ⟨tameX, ofX⟩ := class_fieldValue alike found first
  rw [fieldClass_field h fresh apart alike] at ofX
  show x.Matches w
  refine Class.of_eq_of_iff.mp (?_ : Class.of tameX = Class.of tameW)
  rw [← ofX, ofW]
  congr 1
  cases opens : e.conjuncts.any (·.literal?.isSome) with
  | false =>
    have none : e.conjuncts.filterMap Expr.literal? = [] := by
      refine List.filterMap_eq_nil_iff.mpr fun c member => ?_
      simpa using List.any_eq_false.mp opens c member
    rw [none]
    rfl
  | true =>
    have some : e.literals ≠ [] := by
      obtain ⟨c, member, literal⟩ := List.any_eq_true.mp opens
      obtain ⟨decls, same⟩ := Option.isSome_iff_exists.mp literal
      exact List.ne_nil_of_mem (List.mem_filterMap.mpr ⟨c, member, same⟩)
    obtain ⟨d, found, opened⟩ : ∃ d, Env.find? (⟨b, here⟩ :: outer) a.name = Option.some d ∧ d.opened = true :=
      exists_opened ((rearranged_block alike).led here a.name) ((any_opens_field h fresh apart).trans opens)
    obtain ⟨u, body⟩ := exists_opened_body found opened first
    exact class_literals h fresh alike tame separate (right_ne_zero_of_mul live) body some

end Classes

end StackLattice.Evaluation
