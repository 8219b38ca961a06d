import StackLattice.Proofs.Evaluation.Gathering
import StackLattice.Proofs.Syntax.Trees

/-!
What declarations mention, and where: inside the body of a label only if they declare the label, and the same
wherever the declarations stand.
-/

namespace StackLattice.Evaluation

open Syntax (Expr Decl Label ParsedFile)

section Induction

variable {file : ParsedFile} {D : Trail → List (Trail × Mention) → Prop}
  {V : Trail → String → List (Trail × Mention) → Prop}

/-- What holds of the mentions of declarations and of values, if it holds of a single mention and is kept as they
    are put together. -/
structure Composes (file : ParsedFile) (D : Trail → List (Trail × Mention) → Prop)
    (V : Trail → String → List (Trail × Mention) → Prop) : Prop where
  nil (here : Trail) : D here []
  append {here : Trail} {ms ms' : List (Trail × Mention)} : D here ms → D here ms' → D here (ms ++ ms')
  field {here : Trail} {l : Label} {ms : List (Trail × Mention)} (optional : Bool) :
    V here l.name ms → D here ((here, .label l optional file) :: ms)
  embed (here : Trail) (e : Expr) : D here [(here, .embed e file)]
  both {here : Trail} {label : String} {ms ms' : List (Trail × Mention)} :
    V here label ms → V here label ms' → V here label (ms ++ ms')
  literal {here : Trail} {label : String} {ms : List (Trail × Mention)} :
    D (label :: here) ms → V here label ((here, .literal label) :: ms)
  conjunct (here : Trail) (label : String) (e : Expr) : V here label [(here, .conjunct label e file)]

mutual

theorem Composes.ofDecls (h : Composes file D V) (here : Trail) (decls : List Decl) :
    D here (declsMentions here file decls) := by
  match decls with
  | [] =>
    rw [declsMentions]
    exact h.nil here
  | decl :: decls =>
    rw [declsMentions]
    exact h.append (h.ofDecl here decl) (h.ofDecls here decls)

theorem Composes.ofDecl (h : Composes file D V) (here : Trail) (decl : Decl) : D here (declMentions here file decl) := by
  match decl with
  | .field label optional _ _ value =>
    rw [declMentions]
    exact h.field optional (h.ofValue here label.name value)
  | .embed value =>
    rw [declMentions]
    exact h.ofEmbed here value

theorem Composes.ofValue (h : Composes file D V) (here : Trail) (label : String) (value : Expr) :
    V here label (valueMentions here label file value) := by
  match value with
  | .binary .unify left right =>
    rw [valueMentions]
    exact h.both (h.ofValue here label left) (h.ofValue here label right)
  | .paren inner _ =>
    rw [valueMentions]
    exact h.ofValue here label inner
  | .struct decls _ =>
    rw [valueMentions]
    exact h.literal (h.ofDecls (label :: here) decls)
  | .null _ | .bool _ _ | .int _ _ | .float _ _ | .string _ _ | .ident _ | .select _ _ | .list _ _
  | .unary _ _ _ | .binary .disjoin _ _ =>
    rw [valueMentions]
    · exact h.conjunct here label _
    all_goals simp

theorem Composes.ofEmbed (h : Composes file D V) (here : Trail) (value : Expr) :
    D here (embedMentions here file value) := by
  match value with
  | .binary .unify left right =>
    rw [embedMentions]
    exact h.append (h.ofEmbed here left) (h.ofEmbed here right)
  | .paren inner _ =>
    rw [embedMentions]
    exact h.ofEmbed here inner
  | .struct decls _ =>
    rw [embedMentions]
    exact h.ofDecls here decls
  | .null _ | .bool _ _ | .int _ _ | .float _ _ | .string _ _ | .ident _ | .select _ _ | .list _ _
  | .unary _ _ _ | .binary .disjoin _ _ =>
    rw [embedMentions]
    · exact h.embed here _
    all_goals simp

end

end Induction

theorem declsMentions_append (here : Trail) (file : ParsedFile) (first last : List Decl) :
    declsMentions here file (first ++ last) = declsMentions here file first ++ declsMentions here file last := by
  induction first with
  | nil => rfl
  | cons decl first ih => rw [List.cons_append, declsMentions, declsMentions, ih, List.append_assoc]

/-- What is mentioned in a body is mentioned there or further inside. -/
theorem suffix_mentions (file : ParsedFile) :
    (∀ here decls, ∀ m ∈ declsMentions here file decls, here <:+ m.1) ∧
      ∀ here label value, ∀ m ∈ valueMentions here label file value, here <:+ m.1 := by
  have composes : Composes file (fun here ms => ∀ m ∈ ms, here <:+ m.1) fun here _ ms => ∀ m ∈ ms, here <:+ m.1 := {
    nil := fun _ => List.forall_mem_nil _
    append := fun first last => List.forall_mem_append.mpr ⟨first, last⟩
    field := fun _ inside => List.forall_mem_cons.mpr ⟨List.suffix_rfl, inside⟩
    embed := fun _ _ => List.forall_mem_singleton.mpr List.suffix_rfl
    both := fun first last => List.forall_mem_append.mpr ⟨first, last⟩
    literal := fun inside =>
      List.forall_mem_cons.mpr ⟨List.suffix_rfl, fun m member => (List.suffix_cons _ _).trans (inside m member)⟩
    conjunct := fun _ _ _ => List.forall_mem_singleton.mpr List.suffix_rfl }
  exact ⟨composes.ofDecls, composes.ofValue⟩

section Everywhere

variable {p : Expr → Prop} {q : Label → Prop} {file : ParsedFile}

def Mention.Everywhere (p : Expr → Prop) (q : Label → Prop) : Mention → Prop
  | label l _ _ => q l
  | conjunct _ e _ | embed e _ => e.Everywhere p q
  | literal _ => True

mutual

theorem everywhere_declsMentions {trail : Trail} {decls : List Decl} (h : Decl.EverywhereAll p q decls) :
    ∀ m ∈ declsMentions trail file decls, m.2.Everywhere p q := by
  match decls with
  | [] => simp [declsMentions]
  | decl :: decls =>
    rw [declsMentions, List.forall_mem_append]
    exact ⟨everywhere_declMentions h.1, everywhere_declsMentions h.2⟩

theorem everywhere_declMentions {trail : Trail} {decl : Decl} (h : decl.Everywhere p q) :
    ∀ m ∈ declMentions trail file decl, m.2.Everywhere p q := by
  match decl with
  | .field label _ _ _ value =>
    rw [declMentions, List.forall_mem_cons]
    exact ⟨h.1, everywhere_valueMentions h.2⟩
  | .embed value =>
    rw [declMentions]
    exact everywhere_embedMentions h

theorem everywhere_valueMentions {trail : Trail} {label : String} {value : Expr} (h : value.Everywhere p q) :
    ∀ m ∈ valueMentions trail label file value, m.2.Everywhere p q := by
  match value with
  | .binary .unify left right =>
    rw [valueMentions, List.forall_mem_append]
    exact ⟨everywhere_valueMentions h.2.1, everywhere_valueMentions h.2.2⟩
  | .paren inner _ =>
    rw [valueMentions]
    exact everywhere_valueMentions h.2
  | .struct decls _ =>
    rw [valueMentions, List.forall_mem_cons]
    exact ⟨trivial, everywhere_declsMentions h.2⟩
  | .null _ | .bool _ _ | .int _ _ | .float _ _ | .string _ _ | .ident _ | .select _ _ | .list _ _
  | .unary _ _ _ | .binary .disjoin _ _ =>
    rw [valueMentions]
    · simpa [Mention.Everywhere] using h
    all_goals simp

theorem everywhere_embedMentions {trail : Trail} {value : Expr} (h : value.Everywhere p q) :
    ∀ m ∈ embedMentions trail file value, m.2.Everywhere p q := by
  match value with
  | .binary .unify left right =>
    rw [embedMentions, List.forall_mem_append]
    exact ⟨everywhere_embedMentions h.2.1, everywhere_embedMentions h.2.2⟩
  | .paren inner _ =>
    rw [embedMentions]
    exact everywhere_embedMentions h.2
  | .struct decls _ =>
    rw [embedMentions]
    exact everywhere_declsMentions h.2
  | .null _ | .bool _ _ | .int _ _ | .float _ _ | .string _ _ | .ident _ | .select _ _ | .list _ _
  | .unary _ _ _ | .binary .disjoin _ _ =>
    rw [embedMentions]
    · simpa [Mention.Everywhere] using h
    all_goals simp

end

theorem Mention.everywhere_of_family {ι : Type} {P : ι → Expr → Prop} {m : Mention}
    (expr : ∀ e, (∀ i, P i e) → p e) (label : ∀ l, q l) (h : ∀ i, m.Everywhere (P i) q) : m.Everywhere p q := by
  cases m with
  | label l _ _ => exact label l
  | conjunct _ _ _ | embed _ _ => exact Syntax.Expr.everywhere_of_family expr (fun l _ => label l) h
  | literal _ => trivial

end Everywhere

section Growth

def Declares (ms : List (Trail × Mention)) (trail : Trail) (name : String) : Prop :=
  ∃ l optional file, (trail, Mention.label l optional file) ∈ ms ∧ l.name = name

/-- There is a struct literal for the body at a trail. -/
def Opens (ms : List (Trail × Mention)) : Trail → Prop
  | [] => False
  | label :: trail => (trail, Mention.literal label) ∈ ms

def Silent (ms : List (Trail × Mention)) (trail : Trail) (name : String) : Prop :=
  ∀ m ∈ mentionsAt trail ms, m.about name = false

variable {ms ms' : List (Trail × Mention)} {trail : Trail} {name : String}

theorem mem_mentionsAt {m : Mention} : m ∈ mentionsAt trail ms ↔ (trail, m) ∈ ms := by
  simp [mentionsAt]

theorem Declares.mono (h : Declares ms trail name) (more : ms ⊆ ms') : Declares ms' trail name := by
  obtain ⟨l, optional, file, member, same⟩ := h
  exact ⟨l, optional, file, more member, same⟩

theorem Opens.mono (h : Opens ms trail) (more : ms ⊆ ms') : Opens ms' trail := by
  cases trail with
  | nil => exact h
  | cons label trail => exact more h

/-- What is said of a label comes with a declaration of it, and what is said in the body of a label with a struct
    literal for it; but the body that all of this stands in has none, and a free label needs no declaration there. -/
structure Grown (here : Trail) (free : String → Prop) (ms : List (Trail × Mention)) : Prop where
  declared : ∀ m ∈ ms, ∀ name, m.2.about name = true → Declares ms m.1 name ∨ m.1 = here ∧ free name
  opened : ∀ m ∈ ms, m.1 = here ∨ Opens ms m.1

namespace Grown

variable {here : Trail} {free : String → Prop}

theorem append (h : Grown here free ms) (h' : Grown here free ms') : Grown here free (ms ++ ms') := by
  constructor
  · intro m member name about
    rcases List.mem_append.mp member with member | member
    · exact (h.declared m member name about).imp_left fun declares => declares.mono (List.subset_append_left _ _)
    · exact (h'.declared m member name about).imp_left fun declares => declares.mono (List.subset_append_right _ _)
  · intro m member
    rcases List.mem_append.mp member with member | member
    · exact (h.opened m member).imp_right fun opens => opens.mono (List.subset_append_left _ _)
    · exact (h'.opened m member).imp_right fun opens => opens.mono (List.subset_append_right _ _)

theorem single {m : Mention} (about : ∀ name, m.about name = true → free name) : Grown here free [(here, m)] := by
  constructor
  · intro _ member name said
    cases List.mem_singleton.mp member
    exact .inr ⟨rfl, about name said⟩
  · intro _ member
    cases List.mem_singleton.mp member
    exact .inl rfl

/-- The declarations of a body say nothing of labels that they do not declare. -/
theorem composes (file : ParsedFile) :
    Composes file (fun here ms => Grown here (fun _ => False) ms) fun here label ms => Grown here (· = label) ms where
  nil here := ⟨by simp, by simp⟩
  append := append
  field {here l ms} optional h := by
    constructor
    · intro m member name said
      have own : Declares ((here, .label l optional file) :: ms) here l.name :=
        ⟨l, optional, file, List.mem_cons_self, rfl⟩
      rcases List.mem_cons.mp member with rfl | member
      · rw [Mention.about, beq_iff_eq] at said
        exact .inl (said ▸ own)
      · rcases h.declared m member name said with declares | ⟨same, same'⟩
        · exact .inl (declares.mono (List.subset_cons_self _ _))
        · rw [same, same']
          exact .inl own
    · intro m member
      rcases List.mem_cons.mp member with rfl | member
      · exact .inl rfl
      · exact (h.opened m member).imp_right fun opens => opens.mono (List.subset_cons_self _ _)
  embed here e := single fun name said => by cases said
  both := append
  literal {here label ms} h := by
    constructor
    · intro m member name said
      rcases List.mem_cons.mp member with rfl | member
      · exact .inr ⟨rfl, (beq_iff_eq.mp said).symm⟩
      · exact (h.declared m member name said).imp (fun declares => declares.mono (List.subset_cons_self _ _))
          fun impossible => impossible.2.elim
    · intro m member
      rcases List.mem_cons.mp member with rfl | member
      · exact .inl rfl
      · rcases h.opened m member with same | opens
        · exact .inr (same ▸ List.mem_cons_self)
        · exact .inr (opens.mono (List.subset_cons_self _ _))
  conjunct here label e := single fun name said => (beq_iff_eq.mp said).symm

end Grown

theorem grown_declsMentions (file : ParsedFile) (here : Trail) (decls : List Decl) :
    Grown here (fun _ => False) (declsMentions here file decls) := (Grown.composes file).ofDecls here decls

variable (h : Grown [] (fun _ => False) ms)

include h

theorem Grown.declares {m : Mention} (member : (trail, m) ∈ ms) (said : m.about name = true) :
    Declares ms trail name := (h.declared _ member name said).resolve_right fun impossible => impossible.2

theorem Grown.silent (undeclared : ¬ Declares ms trail name) : Silent ms trail name := by
  intro m member
  rw [← Bool.not_eq_true]
  exact fun said => undeclared (h.declares (mem_mentionsAt.mp member) said)

/-- Inside the body of a label only if the label is declared. -/
theorem Grown.declares_around {m : Mention} {inside : Trail} (member : (inside ++ name :: trail, m) ∈ ms) :
    Declares ms trail name := by
  induction inside generalizing m with
  | nil =>
    have literal : Opens ms (name :: trail) := (h.opened _ member).resolve_left (List.cons_ne_nil _ _)
    exact h.declares literal (beq_self_eq_true name)
  | cons label inside ih =>
    have literal : Opens ms (label :: (inside ++ name :: trail)) := (h.opened _ member).resolve_left (List.cons_ne_nil _ _)
    exact ih literal

theorem Grown.mentionsAt_eq_nil (some : trail ≠ []) (closed : ¬ Opens ms trail) : mentionsAt trail ms = [] := by
  rw [List.eq_nil_iff_forall_not_mem]
  intro m member
  exact closed ((h.opened _ (mem_mentionsAt.mp member)).resolve_left some)

end Growth

section Placement

variable (file : ParsedFile)

/-- The same mention where the body around it stands at a trail. -/
def shifted (base : Trail) (m : Trail × Mention) : Trail × Mention := (m.1 ++ base, m.2)

/-- Declarations mention the same wherever they stand. -/
theorem mentions_shifted (base : Trail) :
    (∀ here decls, declsMentions (here ++ base) file decls = (declsMentions here file decls).map (shifted base)) ∧
      ∀ here label value,
        valueMentions (here ++ base) label file value = (valueMentions here label file value).map (shifted base) := by
  have cases := declsMentions.mutual_induct
    (fun here decls => declsMentions (here ++ base) file decls = (declsMentions here file decls).map (shifted base))
    (fun here decl => declMentions (here ++ base) file decl = (declMentions here file decl).map (shifted base))
    (fun here value => embedMentions (here ++ base) file value = (embedMentions here file value).map (shifted base))
    (fun here label value =>
      valueMentions (here ++ base) label file value = (valueMentions here label file value).map (shifted base))
    (fun here left right first last => by rw [embedMentions, embedMentions, List.map_append, first, last])
    (fun here inner span inside => by rwa [embedMentions, embedMentions])
    (fun here decls span inside => by rwa [embedMentions, embedMentions])
    (fun here e notUnify notParen notStruct => by
      rw [embedMentions, embedMentions]
      · rfl
      all_goals assumption)
    (fun here label left right first last => by rw [valueMentions, valueMentions, List.map_append, first, last])
    (fun here label inner span inside => by rwa [valueMentions, valueMentions])
    (fun here label decls span inside => by
      rw [valueMentions, valueMentions, List.map_cons, ← inside]
      rfl)
    (fun here label e notUnify notParen notStruct => by
      rw [valueMentions, valueMentions]
      · rfl
      all_goals assumption)
    (fun here label optional doc span value inside => by
      rw [declMentions, declMentions, List.map_cons, ← inside]
      rfl)
    (fun here value inside => by rwa [declMentions, declMentions])
    (fun here => by rw [declsMentions, declsMentions]; rfl)
    (fun here decl decls first rest => by rw [declsMentions, declsMentions, List.map_append, first, rest])
  exact ⟨cases.1, cases.2.2.2⟩

theorem mentionsAt_shifted (base trail : Trail) (ms : List (Trail × Mention)) :
    mentionsAt (trail ++ base) (ms.map (shifted base)) = mentionsAt trail ms := by
  induction ms with
  | nil => rfl
  | cons m ms ih =>
    obtain ⟨here, m⟩ := m
    rw [List.map_cons]
    by_cases same : here = trail
    · subst same
      rw [mentionsAt_cons_self, ← ih]
      exact mentionsAt_cons_self _ _ _
    · rw [mentionsAt_cons_of_ne same, ← ih]
      exact mentionsAt_cons_of_ne (fun equal => same (List.append_cancel_right equal)) _ _

end Placement

end StackLattice.Evaluation
