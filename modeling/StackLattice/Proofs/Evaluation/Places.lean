import StackLattice.Proofs.Evaluation.Likeness
import StackLattice.Proofs.Evaluation.Mentions

/-!
Environments that are alike: the same bodies at other paths, and a struct literal by itself, among others that are
declared for the same field. The literal alone is like all of them together to whoever mentions no name that the
others declare.
-/

namespace StackLattice.Evaluation

open Syntax (Expr Decl Label ParsedFile)

theorem Block.lookup_path (path path' : String) (ms : List (Trail × Mention)) (name : String) (trail : Trail) :
    (⟨path, ms⟩ : Block).lookup name trail = (⟨path', ms⟩ : Block).lookup name trail := by
  induction trail with
  | nil => rfl
  | cons label trail ih =>
    rw [Block.lookup, Block.lookup, ih]
    rfl

namespace Declared

variable {name : String} {ds ds' : List Declared}

theorem find?_append : find? (ds ++ ds') name = (find? ds name).or (find? ds' name) := List.find?_append

theorem find?_apply_congr (same : find? ds name = find? ds' name) (m : Mention) :
    find? (m.apply ds) name = find? (m.apply ds') name := by
  cases said : m.about name with
  | false => rw [find?_apply_of_not_about said, find?_apply_of_not_about said, same]
  | true =>
    cases found : find? ds name with
    | some d => rw [find?_apply_of_about found said, find?_apply_of_about (same ▸ found) said]
    | none =>
      have found' : find? ds' name = none := same ▸ found
      cases m with
      | label l optional file =>
        have here : l.name = name := beq_iff_eq.mp said
        subst here
        rw [Mention.apply, Mention.apply, found, found', Option.isSome_none, if_neg Bool.false_ne_true,
          if_neg Bool.false_ne_true, find?_append, find?_append, found, found']
      | conjunct l e file | literal l =>
        rw [Mention.apply, Mention.apply, find?_update, find?_update, found, found'] <;> exact fun _ => rfl
      | embed e file => cases said

/-- What is declared for a label depends on nothing but what is said of it. -/
theorem find?_foldl_filter (ms : List Mention) (same : find? ds name = find? ds' name) :
    find? (ms.foldl Mention.apply ds) name = find? ((ms.filter (·.about name)).foldl Mention.apply ds') name := by
  induction ms generalizing ds ds' with
  | nil => exact same
  | cons m ms ih =>
    cases said : m.about name with
    | false =>
      rw [List.filter_cons_of_neg (by simp [said])]
      exact ih ((find?_apply_of_not_about said).trans same)
    | true =>
      rw [List.filter_cons_of_pos said]
      exact ih (find?_apply_congr same m)

theorem exists_of_mem_update {f : Declared → Declared} {d : Declared} (member : d ∈ update ds name f)
    (keeps : ∀ d, (f d).label = d.label ∧ (f d).conjuncts = d.conjuncts) :
    ∃ d₀ ∈ ds, d.label = d₀.label ∧ d.conjuncts = d₀.conjuncts := by
  obtain ⟨d₀, inside, rfl⟩ := List.mem_map.mp member
  refine ⟨d₀, inside, ?_⟩
  split
  · exact keeps d₀
  · exact ⟨rfl, rfl⟩

/-- A conjunct of a label stands in a mention of it. -/
theorem mention_of_conjunct {ms : List Mention} {d : Declared} (member : d ∈ ms.foldl Mention.apply [])
    {w : Written} (inside : w ∈ d.conjuncts) : .conjunct d.label w.expr w.file ∈ ms := by
  induction ms using List.reverseRecOn generalizing d with
  | nil => cases member
  | append_singleton ms m ih =>
    have old {d₀ : Declared} (member : d₀ ∈ ms.foldl Mention.apply []) (label : d.label = d₀.label)
        (inside : w ∈ d₀.conjuncts) : .conjunct d.label w.expr w.file ∈ ms ++ [m] :=
      List.mem_append_left _ (label ▸ ih member inside)
    rw [List.foldl_append, List.foldl_cons, List.foldl_nil] at member
    cases m with
    | label l optional file =>
      rw [Mention.apply] at member
      split at member
      · obtain ⟨d₀, member, label, conjuncts⟩ := exists_of_mem_update member fun _ => ⟨rfl, rfl⟩
        exact old member label (conjuncts ▸ inside)
      · rcases List.mem_append.mp member with member | member
        · exact old member rfl inside
        · rw [List.mem_singleton.mp member] at inside
          cases inside
    | conjunct name e file =>
      obtain ⟨d₀, before, rfl⟩ := List.mem_map.mp member
      split at inside
      · rename_i here
        rcases List.mem_append.mp inside with inside | inside
        · exact old before (by rw [if_pos here]) inside
        · rw [if_pos here, List.mem_singleton.mp inside, beq_iff_eq.mp here]
          exact List.mem_append_right _ (List.mem_singleton_self _)
      · rename_i other
        exact old before (by rw [if_neg other]) inside
    | literal name =>
      obtain ⟨d₀, member, label, conjuncts⟩ := exists_of_mem_update member fun _ => ⟨rfl, rfl⟩
      exact old member label (conjuncts ▸ inside)
    | embed e file => exact old member rfl inside

end Declared

theorem Block.mention_of_conjunct {b : Block} {trail : Trail} {name : String} {d : Declared}
    (found : Declared.find? (b.declared trail) name = some d) {w : Written} (member : w ∈ d.conjuncts) :
    (trail, .conjunct name w.expr w.file) ∈ b.mentions := by
  rw [← Declared.label_of_find? found]
  exact mem_mentionsAt.mp (Declared.mention_of_conjunct (List.mem_of_find?_eq_some found) member)

theorem Block.mention_of_embed {b : Block} {trail : Trail} {w : Written} (member : w ∈ b.embeds trail) :
    (trail, .embed w.expr w.file) ∈ b.mentions := by
  obtain ⟨m, said, same⟩ := List.mem_filterMap.mp member
  cases m <;> cases same
  exact mem_mentionsAt.mp said

/-- The same bodies, at other paths. -/
def Env.Elsewhere : Env → Env → Prop := List.Forall₂ fun s s' => s.block.mentions = s'.block.mentions ∧ s.trail = s'.trail

namespace Env.Elsewhere

variable {env env' : Env}

theorem refl (env : Env) : env.Elsewhere env := List.forall₂_same.mpr fun _ _ => ⟨rfl, rfl⟩

theorem cases (h : env.Elsewhere env') : (env = [] ∧ env' = []) ∨ ∃ path path' ms trail rest rest',
    env = ⟨⟨path, ms⟩, trail⟩ :: rest ∧ env' = ⟨⟨path', ms⟩, trail⟩ :: rest' ∧ Env.Elsewhere rest rest' := by
  cases h with
  | nil => exact .inl ⟨rfl, rfl⟩
  | @cons s s' rest rest' first others =>
    obtain ⟨⟨path, ms⟩, trail⟩ := s
    obtain ⟨⟨path', ms'⟩, trail'⟩ := s'
    obtain ⟨mentions, trails⟩ := first
    cases mentions
    cases trails
    exact .inr ⟨path, path', ms, trail, rest, rest', rfl, rfl, others⟩

theorem declared (h : env.Elsewhere env') : env.declared = env'.declared := by
  obtain ⟨rfl, rfl⟩ | ⟨_, _, _, _, _, _, rfl, rfl, _⟩ := h.cases <;> rfl

theorem embeds (h : env.Elsewhere env') : env.embeds = env'.embeds := by
  obtain ⟨rfl, rfl⟩ | ⟨_, _, _, _, _, _, rfl, rfl, _⟩ := h.cases <;> rfl

theorem inner (h : env.Elsewhere env') (name : String) : (env.inner name).Elsewhere (env'.inner name) := by
  obtain ⟨rfl, rfl⟩ | ⟨_, _, _, _, _, _, rfl, rfl, rest⟩ := h.cases
  · exact .nil
  · exact .cons ⟨rfl, rfl⟩ rest

theorem literal (h : env.Elsewhere env') (path path' : String) (file : ParsedFile) (decls : List Decl) :
    (env.literal path file decls).Elsewhere (env'.literal path' file decls) := .cons ⟨rfl, rfl⟩ h

theorem lookup (h : env.Elsewhere env') (name : String) :
    Option.Rel Elsewhere (env.lookup name) (env'.lookup name) := by
  induction h with
  | nil => exact .none
  | @cons s s' rest rest' first others ih =>
    obtain ⟨⟨path, ms⟩, trail⟩ := s
    obtain ⟨⟨path', ms'⟩, trail'⟩ := s'
    obtain ⟨mentions, trails⟩ := first
    cases mentions
    cases trails
    rw [Env.lookup, Env.lookup, Block.lookup_path path path']
    cases (⟨path', ms⟩ : Block).lookup name trail with
    | some trail => exact .some (.cons ⟨rfl, rfl⟩ others)
    | none => exact ih

end Env.Elsewhere

theorem names_univ (e : Expr) : e.Names Set.univ := by
  have nothing (i : Empty) : e.Everywhere (fun _ => False) fun _ => False := i.elim
  refine Syntax.Expr.everywhere_of_family (fun e _ => ?_) (fun _ _ => trivial) nothing
  cases e <;> trivial

def elsewhere : Likeness where
  env _ := Env.Elsewhere
  field _ := Env.Elsewhere
  body := Env.Elsewhere
  lookup h _ := h.lookup _
  literal path path' file h _ := h.literal path path' file _
  found h := congrArg (Declared.find? · _) h.declared
  conjunct h _ _ := ⟨Set.univ, h, names_univ _⟩
  inner h _ _ := h.inner _
  declared h := h.declared
  embeds h := h.embeds
  fields _ h := h
  embed h _ := ⟨Set.univ, h, names_univ _⟩

/-- Every name means the same in a body of a package, wherever. -/
theorem meaning_elsewhere {n n' : Nat} (enough : n ≤ n') {t t' : Closure.Task} (alike : elsewhere.Task t t')
    {v : Value} (h : Closure.meaning n t = some (.ok v)) : Closure.meaning n' t' = some (.ok v) := by
  obtain ⟨r, found, agreeing⟩ := elsewhere.meaning_carries enough t t' alike _ h
  cases agreeing with
  | ok same => exact same ▸ found

section Literal

variable {block : Block} {label : String} {base : Trail} {outer : Env}

/-- One of the struct literals that are declared for a label of the body at a trail. -/
structure Among (block : Block) (label : String) (base : Trail) where
  before : List (Trail × Mention)
  own : List (Trail × Mention)
  after : List (Trail × Mention)
  merged : ∀ trail, block.mentionsAt (trail ++ label :: base) = mentionsAt trail (before ++ own ++ after)

namespace Among

variable (A : Among block label base)

/-- The others say nothing of a label in the body at a trail. -/
def Alone (trail : Trail) (name : String) : Prop := Silent A.before trail name ∧ Silent A.after trail name

/-- Names that mean the same in the literal by itself as among the others, to what stands at a trail. -/
def Seen (trail : Trail) : Set String := {name | ∀ around, around <:+ trail → A.Alone around name}

/-- The others say nothing in the body at a trail, and in the bodies inside. -/
def Closed (trail : Trail) : Prop := ∀ inside,
  mentionsAt (inside ++ trail) A.before = [] ∧ mentionsAt (inside ++ trail) A.after = []

/-- What a literal mentions means the same among the others, and the others say nothing in the body of a label that
    they say nothing of. -/
structure Sound : Prop where
  seen : ∀ m ∈ A.own, m.2.Everywhere (Expr.NamesHere (A.Seen m.1)) fun _ => True
  closed : ∀ trail name, A.Alone trail name → A.Closed (name :: trail)

theorem find? {trail : Trail} {name : String} (alone : A.Alone trail name) (path : String) :
    Declared.find? (block.declared (trail ++ label :: base)) name =
      Declared.find? ((⟨path, A.own⟩ : Block).declared trail) name := by
  have quiet {ms : List Mention} (silent : ∀ m ∈ ms, m.about name = false) : ms.filter (·.about name) = [] := by
    simpa using silent
  rw [Block.declared, Block.declared, A.merged, Declared.find?_foldl_filter _ rfl,
    Declared.find?_foldl_filter ((⟨path, A.own⟩ : Block).mentionsAt trail) rfl]
  rw [mentionsAt_append, mentionsAt_append, List.filter_append, List.filter_append, quiet alone.1, quiet alone.2,
    List.nil_append, List.append_nil]
  rfl

theorem mentionsAt_of_closed {trail : Trail} (closed : A.Closed trail) (inside : Trail) :
    block.mentionsAt (inside ++ trail ++ label :: base) = mentionsAt (inside ++ trail) A.own := by
  rw [A.merged, mentionsAt_append, mentionsAt_append, (closed inside).1, (closed inside).2, List.nil_append,
    List.append_nil]

/-- The literals together, or the one by itself, at a trail inside. -/
inductive Beside (outer : Env) : Set String → Env → Env → Prop
  | within {names : Set String} {trail : Trail} (path : String) (seen : names ⊆ A.Seen trail) :
      Beside outer names (⟨block, trail ++ label :: base⟩ :: outer) (⟨⟨path, A.own⟩, trail⟩ :: ⟨block, base⟩ :: outer)
  | front {names : Set String} {env env' : Env} {path path' : String} {ms : List (Trail × Mention)} {trail : Trail}
      (inside : ∀ m ∈ ms, m.2.Everywhere (Expr.NamesHere names) fun _ => True) (rest : Beside outer names env env') :
      Beside outer names (⟨⟨path, ms⟩, trail⟩ :: env) (⟨⟨path', ms⟩, trail⟩ :: env')
  | elsewhere {names : Set String} {env env' : Env} (same : env.Elsewhere env') : Beside outer names env env'

/-- A place in which what is said of a label is the same. -/
inductive Field (outer : Env) (name : String) : Env → Env → Prop
  | within {trail : Trail} (path : String) (alone : A.Alone trail name) :
      Field outer name (⟨block, trail ++ label :: base⟩ :: outer) (⟨⟨path, A.own⟩, trail⟩ :: ⟨block, base⟩ :: outer)
  | front {names : Set String} {env env' : Env} {path path' : String} {ms : List (Trail × Mention)} {trail : Trail}
      (inside : ∀ m ∈ ms, m.2.Everywhere (Expr.NamesHere names) fun _ => True) (rest : A.Beside outer names env env') :
      Field outer name (⟨⟨path, ms⟩, trail⟩ :: env) (⟨⟨path', ms⟩, trail⟩ :: env')
  | elsewhere {env env' : Env} (same : env.Elsewhere env') : Field outer name env env'

/-- A place in which all is the same. -/
inductive Body (outer : Env) : Env → Env → Prop
  | within {trail : Trail} (path : String) (closed : A.Closed trail) :
      Body outer (⟨block, trail ++ label :: base⟩ :: outer) (⟨⟨path, A.own⟩, trail⟩ :: ⟨block, base⟩ :: outer)
  | front {names : Set String} {env env' : Env} {path path' : String} {ms : List (Trail × Mention)} {trail : Trail}
      (inside : ∀ m ∈ ms, m.2.Everywhere (Expr.NamesHere names) fun _ => True) (rest : A.Beside outer names env env') :
      Body outer (⟨⟨path, ms⟩, trail⟩ :: env) (⟨⟨path', ms⟩, trail⟩ :: env')
  | elsewhere {env env' : Env} (same : env.Elsewhere env') : Body outer env env'

variable {A}

theorem rel_refl {env env' : Option Env} (same : env = env') {name : String} :
    Option.Rel (A.Field outer name) env env' := by
  subst same
  cases env with
  | none => exact .none
  | some env => exact .some (.elsewhere (.refl env))

theorem lookup_within {name : String} {trail : Trail} (path : String) (seen : name ∈ A.Seen trail) :
    Option.Rel (A.Field outer name) (Env.lookup name (⟨block, trail ++ label :: base⟩ :: outer))
      (Env.lookup name (⟨⟨path, A.own⟩, trail⟩ :: ⟨block, base⟩ :: outer)) := by
  rw [Env.lookup, Env.lookup]
  induction trail with
  | nil =>
    have alone := seen [] List.suffix_rfl
    have found := A.find? alone path
    rw [List.nil_append] at found ⊢
    rw [Block.lookup, Block.lookup, ← found]
    cases (Declared.find? (block.declared (label :: base)) name).isSome with
    | true => exact .some (.within path alone)
    | false => exact rel_refl rfl
  | cons l trail ih =>
    have alone := seen (l :: trail) List.suffix_rfl
    have found := A.find? alone path
    rw [List.cons_append] at found ⊢
    rw [Block.lookup, Block.lookup, ← found]
    cases (Declared.find? (block.declared (l :: (trail ++ label :: base))) name).isSome with
    | true => exact .some (.within path alone)
    | false => exact ih fun around suffix => seen around (suffix.trans (List.suffix_cons l trail))

theorem lookup {names : Set String} {env env' : Env} (h : A.Beside outer names env env') {name : String}
    (inside : name ∈ names) : Option.Rel (A.Field outer name) (env.lookup name) (env'.lookup name) := by
  induction h with
  | within path seen => exact lookup_within path (seen inside)
  | @elsewhere env env' same =>
    have found := same.lookup name
    generalize env.lookup name = r, env'.lookup name = r' at found
    cases found with
    | none => exact .none
    | some same => exact .some (.elsewhere same)
  | @front env env' path path' ms trail within rest ih =>
    rw [Env.lookup, Env.lookup, Block.lookup_path path path']
    cases (⟨path', ms⟩ : Block).lookup name trail with
    | some trail => exact .some (.front within rest)
    | none => exact ih

namespace Field

variable {name : String} {env env' : Env}

theorem found (h : A.Field outer name env env') : env.find? name = env'.find? name := by
  cases h with
  | within path alone => exact A.find? alone path
  | front => rfl
  | elsewhere same => exact congrArg (Declared.find? · name) same.declared

theorem conjunct (sound : A.Sound) (h : A.Field outer name env env') {d : Declared} (found : env.find? name = some d)
    {w : Written} (member : w ∈ d.conjuncts) : ∃ names, A.Beside outer names env env' ∧ w.expr.Names names := by
  rw [h.found] at found
  cases h with
  | within path alone => exact ⟨_, .within path subset_rfl, sound.seen _ (Block.mention_of_conjunct found member)⟩
  | front inside rest => exact ⟨_, .front inside rest, inside _ (Block.mention_of_conjunct found member)⟩
  | elsewhere same => exact ⟨Set.univ, .elsewhere same, names_univ _⟩

theorem inner (sound : A.Sound) (h : A.Field outer name env env') : A.Body outer (env.inner name) (env'.inner name) := by
  cases h with
  | @within trail path alone => exact .within path (sound.closed trail name alone)
  | front inside rest => exact .front inside rest
  | elsewhere same => exact .elsewhere (same.inner name)

end Field

namespace Body

variable {env env' : Env}

theorem declared (h : A.Body outer env env') : env.declared = env'.declared := by
  cases h with
  | within path closed => exact congrArg (List.foldl Mention.apply []) (A.mentionsAt_of_closed closed [])
  | front => rfl
  | elsewhere same => exact same.declared

theorem embeds (h : A.Body outer env env') : env.embeds = env'.embeds := by
  cases h with
  | within path closed => exact congrArg (List.filterMap Mention.embed?) (A.mentionsAt_of_closed closed [])
  | front => rfl
  | elsewhere same => exact same.embeds

theorem field (h : A.Body outer env env') (name : String) : A.Field outer name env env' := by
  cases h with
  | @within trail path closed =>
    have nothing {ms : List (Trail × Mention)} (none : mentionsAt ([] ++ trail) ms = []) : Silent ms trail name := by
      intro m member
      rw [List.nil_append] at none
      rw [none] at member
      cases member
    exact .within path ⟨nothing (closed []).1, nothing (closed []).2⟩
  | front inside rest => exact .front inside rest
  | elsewhere same => exact .elsewhere same

theorem embed (sound : A.Sound) (h : A.Body outer env env') {w : Written} (member : w ∈ env.embeds) :
    ∃ names, A.Beside outer names env env' ∧ w.expr.Names names := by
  rw [h.embeds] at member
  cases h with
  | @within trail path closed =>
    exact ⟨_, .within path subset_rfl, sound.seen _ (Block.mention_of_embed member)⟩
  | front inside rest => exact ⟨_, .front inside rest, inside _ (Block.mention_of_embed member)⟩
  | elsewhere same => exact ⟨Set.univ, .elsewhere same, names_univ _⟩

end Body

variable (outer)

/-- A literal among others is like the literal by itself. -/
def likeness (sound : A.Sound) : Likeness where
  env := A.Beside outer
  field := A.Field outer
  body := A.Body outer
  lookup h inside := lookup h inside
  literal _ _ _ h inside := .front (everywhere_declsMentions inside) h
  found h := h.found
  conjunct h found member := h.conjunct sound found member
  inner h _ _ := h.inner sound
  declared h := h.declared
  embeds h := h.embeds
  fields name h := h.field name
  embed h member := h.embed sound member

end Among

end Literal

end StackLattice.Evaluation
