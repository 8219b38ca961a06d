import StackLattice.Proofs.Evaluation.Described

/-!
What is gathered for a label, as a function of the mentions of it. Their order shows in nothing but the order
of conjuncts and the position, as long as a declaration comes before whatever else is said of its label.
-/

namespace StackLattice.Evaluation

open Syntax (Expr Decl Label LabelKind ParsedFile)

namespace Mention

def about (name : String) : Mention → Bool
  | label l _ _ => l.name == name
  | conjunct l _ _ | literal l => l == name
  | embed _ _ => false

def isLabel : Mention → Bool
  | label _ _ _ => true
  | _ => false

/-- Whether the label is declared optional, if it is declared. -/
def flag? (name : String) : Mention → Option Bool
  | label l optional _ => if l.name == name then some optional else none
  | _ => none

def conjunct? (name : String) : Mention → Option Written
  | conjunct l expr file => if l == name then some ⟨expr, file⟩ else none
  | _ => none

def opens (name : String) : Mention → Bool
  | literal l => l == name
  | _ => false

theorem silent {name : String} {m : Mention} (other : m.about name = false) :
    m.flag? name = none ∧ m.conjunct? name = none ∧ m.opens name = false := by
  cases m with
  | embed expr file => exact ⟨rfl, rfl, rfl⟩
  | _ =>
    simp only [about] at other
    simp [flag?, conjunct?, opens, other]

end Mention

namespace Declared

variable {ms : List Mention} {name : String}

/-- What is declared for a label, with what mentions say of the label. -/
def extend (name : String) (d : Declared) (ms : List Mention) : Declared :=
  { d with
    optional := d.optional && (ms.filterMap (Mention.flag? name)).all id
    conjuncts := d.conjuncts ++ ms.filterMap (Mention.conjunct? name)
    opened := d.opened || ms.any (Mention.opens name) }

theorem find?_update_of_ne {ds : List Declared} {l : String} {f : Declared → Declared}
    (keeps : ∀ d, (f d).label = d.label) (other : l ≠ name) : find? (update ds l f) name = find? ds name := by
  rw [find?_update keeps]
  cases found : find? ds name with
  | none => rfl
  | some d =>
    have here : d.label ≠ l := by
      rw [label_of_find? found]
      exact other.symm
    rw [Option.map_some, if_neg (by simpa using here)]

theorem find?_update_self {ds : List Declared} {f : Declared → Declared} {d : Declared}
    (keeps : ∀ d, (f d).label = d.label) (found : find? ds name = some d) :
    find? (update ds name f) name = some (f d) := by
  rw [find?_update keeps, found, Option.map_some, label_of_find? found, if_pos (beq_self_eq_true name)]

theorem find?_apply_of_not_about {ds : List Declared} {m : Mention} (other : m.about name = false) :
    find? (m.apply ds) name = find? ds name := by
  cases m with
  | label l optional file =>
    have ne : l.name ≠ name := by simpa [Mention.about] using other
    rw [Mention.apply]
    split
    · exact find?_update_of_ne (fun _ => rfl) ne
    · rw [find?, List.find?_append, ← find?]
      simp [ne]
  | conjunct l expr file => exact find?_update_of_ne (fun _ => rfl) (by simpa [Mention.about] using other)
  | literal l => exact find?_update_of_ne (fun _ => rfl) (by simpa [Mention.about] using other)
  | embed expr file => rfl

theorem extend_of_not_about {m : Mention} (other : m.about name = false) (d : Declared) (ms : List Mention) :
    extend name d (m :: ms) = extend name d ms := by
  obtain ⟨flag, conjunct, opens⟩ := Mention.silent other
  simp [extend, flag, conjunct, opens]

theorem find?_apply_of_about {ds : List Declared} {d : Declared} {m : Mention} (found : find? ds name = some d)
    (here : m.about name = true) : find? (m.apply ds) name = some (extend name d [m]) := by
  cases m with
  | label l optional file =>
    have same : l.name = name := by simpa [Mention.about] using here
    subst same
    rw [Mention.apply, found, Option.isSome_some, if_pos rfl]
    refine (find?_update_self ?_ found).trans ?_
    · exact fun _ => rfl
    simp [extend, Mention.flag?, Mention.conjunct?, Mention.opens, List.filterMap_cons]
  | conjunct l expr file =>
    have same : l = name := by simpa [Mention.about] using here
    subst same
    refine (find?_update_self ?_ found).trans ?_
    · exact fun _ => rfl
    simp [extend, Mention.flag?, Mention.conjunct?, Mention.opens, List.filterMap_cons]
  | literal l =>
    have same : l = name := by simpa [Mention.about] using here
    subst same
    refine (find?_update_self ?_ found).trans ?_
    · exact fun _ => rfl
    simp [extend, Mention.flag?, Mention.conjunct?, Mention.opens, List.filterMap_cons]
  | embed expr file => exact absurd here Bool.false_ne_true

theorem extend_extend (d : Declared) (m : Mention) (ms : List Mention) :
    extend name (extend name d [m]) ms = extend name d (m :: ms) := by
  have flags : ([m] ++ ms).filterMap (Mention.flag? name) = _ := List.filterMap_append
  have conjuncts : ([m] ++ ms).filterMap (Mention.conjunct? name) = _ := List.filterMap_append
  rw [List.singleton_append] at flags conjuncts
  simp only [extend, flags, conjuncts, List.all_append, List.any_cons, List.any_nil, Bool.or_false,
    Bool.and_assoc, Bool.or_assoc, List.append_assoc]

theorem find?_foldl_of_some {ds : List Declared} {d : Declared} (found : find? ds name = some d) :
    find? (ms.foldl Mention.apply ds) name = some (extend name d ms) := by
  induction ms generalizing ds d with
  | nil => simpa [extend] using found
  | cons m ms ih =>
    rw [List.foldl_cons]
    cases here : m.about name with
    | true => rw [ih (find?_apply_of_about found here), extend_extend]
    | false =>
      rw [extend_of_not_about here]
      exact ih ((find?_apply_of_not_about here).trans found)

/-- A declaration is the first that is said of a label. -/
def Led (name : String) (ms : List Mention) : Prop :=
  ∀ m, ms.find? (·.about name) = some m → m.isLabel = true

/-- What is said of a label is gathered when it is declared first. -/
theorem find?_foldl {ds : List Declared} (led : Led name ms) (absent : find? ds name = none) :
    match find? (ms.foldl Mention.apply ds) name with
    | none => ∀ m ∈ ms, m.about name = false
    | some d => (∃ m ∈ ms, m.about name = true) ∧ d.optional = (ms.filterMap (Mention.flag? name)).all id ∧
        d.conjuncts = ms.filterMap (Mention.conjunct? name) ∧ d.opened = ms.any (Mention.opens name) := by
  induction ms generalizing ds with
  | nil =>
    rw [List.foldl_nil, absent]
    simp
  | cons m ms ih =>
    rw [List.foldl_cons]
    cases here : m.about name with
    | false =>
      have rest : Led name ms := fun first found => led first (by rwa [List.find?_cons, here])
      have gathered := ih rest ((find?_apply_of_not_about here).trans absent)
      obtain ⟨flag, conjunct, opens⟩ := Mention.silent here
      simpa [List.filterMap_cons, flag, conjunct, opens, here] using gathered
    | true =>
      have first : m.isLabel = true := led m (by rw [List.find?_cons, here])
      cases m with
      | label l optional file =>
        have same : l.name = name := by simpa [Mention.about] using here
        subst same
        have declared : find? (Mention.apply ds (.label l optional file)) l.name =
            some ⟨l.name, l.kind, optional, file.source.position l.span, [], false⟩ := by
          rw [Mention.apply, absent, Option.isSome_none, if_neg Bool.false_ne_true, find?, List.find?_append, ← find?,
            absent]
          simp
        rw [find?_foldl_of_some declared]
        refine ⟨⟨_, List.mem_cons_self, here⟩, ?_⟩
        simp [extend, Mention.flag?, Mention.conjunct?, Mention.opens, List.filterMap_cons]
      | _ => exact absurd first Bool.false_ne_true

theorem Led.append {ms' : List Mention} (first : Led name ms) (last : Led name ms') : Led name (ms ++ ms') := by
  intro m found
  rw [List.find?_append] at found
  cases here : ms.find? (·.about name) with
  | some m' =>
    rw [here, Option.some_or] at found
    cases found
    exact first m here
  | none =>
    rw [here, Option.none_or] at found
    exact last m found

theorem led_of_silent (silent : ∀ m ∈ ms, m.about name = false) : Led name ms := by
  intro m found
  have here := List.find?_some found
  rw [silent m (List.mem_of_find?_eq_some found)] at here
  cases here

theorem Led.cons_label {l : Label} (optional : Bool) (file : ParsedFile)
    (rest : l.name ≠ name → Led name ms) : Led name (.label l optional file :: ms) := by
  intro m found
  by_cases same : l.name = name
  · rw [List.find?_cons, Mention.about, same, beq_self_eq_true] at found
    cases found
    rfl
  · rw [List.find?_cons, Mention.about, beq_eq_false_iff_ne.mpr same] at found
    exact rest same m found

/-- The same is declared, in another order. -/
structure Alike (d d' : Declared) : Prop where
  optional : d.optional = d'.optional
  opened : d.opened = d'.opened
  conjuncts : d.conjuncts.Perm d'.conjuncts

/-- Mentions in another order gather the same for each label. -/
theorem rel_of_perm {ms' : List Mention} (perm : ms.Perm ms') (led : Led name ms) (led' : Led name ms') :
    Option.Rel Alike (find? (ms.foldl Mention.apply []) name) (find? (ms'.foldl Mention.apply []) name) := by
  have empty : find? [] name = none := rfl
  have left := find?_foldl led empty
  have right := find?_foldl led' empty
  generalize find? (ms.foldl Mention.apply []) name = d, find? (ms'.foldl Mention.apply []) name = d' at left right
  cases d with
  | none =>
    cases d' with
    | none => exact .none
    | some d' =>
      obtain ⟨⟨m, member, here⟩, _⟩ := right
      rw [left m (perm.mem_iff.mpr member)] at here
      cases here
  | some d =>
    obtain ⟨⟨m, member, here⟩, optional, conjuncts, opened⟩ := left
    cases d' with
    | none =>
      rw [right m (perm.mem_iff.mp member)] at here
      cases here
    | some d' =>
      obtain ⟨_, optional', conjuncts', opened'⟩ := right
      refine .some ⟨?_, ?_, ?_⟩
      · rw [optional, optional', (perm.filterMap _).all_eq]
      · rw [opened, opened', perm.any_eq]
      · rw [conjuncts, conjuncts']
        exact perm.filterMap _

end Declared

def mentionsAt (trail : Trail) (ms : List (Trail × Mention)) : List Mention :=
  (ms.filter (·.1 == trail)).map (·.2)

theorem mentionsAt_append (trail : Trail) (ms ms' : List (Trail × Mention)) :
    mentionsAt trail (ms ++ ms') = mentionsAt trail ms ++ mentionsAt trail ms' := by
  rw [mentionsAt, List.filter_append, List.map_append]
  rfl

theorem mentionsAt_cons_self (trail : Trail) (m : Mention) (ms : List (Trail × Mention)) :
    mentionsAt trail ((trail, m) :: ms) = m :: mentionsAt trail ms := by
  simp [mentionsAt]

theorem mentionsAt_cons_of_ne {trail other : Trail} (h : other ≠ trail) (m : Mention) (ms : List (Trail × Mention)) :
    mentionsAt trail ((other, m) :: ms) = mentionsAt trail ms := by
  simp [mentionsAt, h]

theorem mentionsAt_eq_nil {trail : Trail} {ms : List (Trail × Mention)} (other : ∀ m ∈ ms, m.1 ≠ trail) :
    mentionsAt trail ms = [] := by
  have none : ms.filter (·.1 == trail) = [] := by simpa using other
  rw [mentionsAt, none, List.map_nil]

section Leading

open Declared (Led)

/-- What is said of a label other than the one a value is for, or in another body, is led by a declaration. -/
theorem led_cons {trail here : Trail} {name : String} {m : Mention} {ms : List (Trail × Mention)}
    (apart : here ≠ trail ∨ m.about name = false) (rest : Led name (mentionsAt trail ms)) :
    Led name (mentionsAt trail ((here, m) :: ms)) := by
  by_cases same : here = trail
  · subst same
    have silent : m.about name = false := apart.resolve_left fun ne => ne rfl
    rw [mentionsAt_cons_self]
    intro first found
    rw [List.find?_cons, silent] at found
    exact rest first found
  · rwa [mentionsAt_cons_of_ne same]

variable (file : ParsedFile) (trail : Trail) (name : String)

mutual

theorem led_declsMentions (here : Trail) (decls : List Decl) :
    Led name (mentionsAt trail (declsMentions here file decls)) := by
  match decls with
  | [] =>
    rw [declsMentions]
    exact fun m found => by cases found
  | decl :: decls =>
    rw [declsMentions, mentionsAt_append]
    exact (led_declMentions here decl).append (led_declsMentions here decls)

theorem led_declMentions (here : Trail) (decl : Decl) :
    Led name (mentionsAt trail (declMentions here file decl)) := by
  match decl with
  | .field label optional _ _ value =>
    rw [declMentions]
    by_cases same : here = trail
    · rw [same, mentionsAt_cons_self]
      exact Led.cons_label optional file fun other => led_valueMentions trail label.name (.inr other) value
    · rw [mentionsAt_cons_of_ne same]
      exact led_valueMentions here label.name (.inl same) value
  | .embed value =>
    rw [declMentions]
    exact led_embedMentions here value

theorem led_valueMentions (here : Trail) (label : String) (apart : here ≠ trail ∨ label ≠ name) (value : Expr) :
    Led name (mentionsAt trail (valueMentions here label file value)) := by
  match value with
  | .binary .unify left right =>
    rw [valueMentions, mentionsAt_append]
    exact (led_valueMentions here label apart left).append (led_valueMentions here label apart right)
  | .paren inner _ =>
    rw [valueMentions]
    exact led_valueMentions here label apart inner
  | .struct decls _ =>
    rw [valueMentions]
    exact led_cons (apart.imp_right beq_eq_false_iff_ne.mpr) (led_declsMentions (label :: here) decls)
  | .null _ | .bool _ _ | .int _ _ | .float _ _ | .string _ _ | .ident _ | .select _ _ | .list _ _
  | .unary _ _ _ | .binary .disjoin _ _ =>
    rw [valueMentions]
    · exact led_cons (apart.imp_right beq_eq_false_iff_ne.mpr) fun m found => by cases found
    all_goals simp

theorem led_embedMentions (here : Trail) (value : Expr) :
    Led name (mentionsAt trail (embedMentions here file value)) := by
  match value with
  | .binary .unify left right =>
    rw [embedMentions, mentionsAt_append]
    exact (led_embedMentions here left).append (led_embedMentions here right)
  | .paren inner _ =>
    rw [embedMentions]
    exact led_embedMentions here inner
  | .struct decls _ =>
    rw [embedMentions]
    exact led_declsMentions here decls
  | .null _ | .bool _ _ | .int _ _ | .float _ _ | .string _ _ | .ident _ | .select _ _ | .list _ _
  | .unary _ _ _ | .binary .disjoin _ _ =>
    rw [embedMentions]
    · exact led_cons (.inr rfl) fun m found => by cases found
    all_goals simp

end

end Leading

end StackLattice.Evaluation
