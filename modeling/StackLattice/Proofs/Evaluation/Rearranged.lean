import StackLattice.Proofs.Evaluation.Denotation
import StackLattice.Proofs.Evaluation.Gathering
import StackLattice.Proofs.Syntax.Trees

/-!
Bodies whose declarations stand in another order. Whatever is evaluated in the one denotes the same branches as
in the other, for any amount of fuel.
-/

namespace StackLattice

namespace Syntax

/-- Neither a default mark nor a float that is no number. -/
def Expr.TameHere : Expr → Prop
  | .unary .mark _ _ => False
  | .float x _ => x.isNaN = false
  | _ => True

/-- No default marks, every label of its kind, and no float that is no number. -/
def Expr.Tame (kinds : String → LabelKind) (e : Expr) : Prop :=
  e.Everywhere Expr.TameHere fun l => l.kind = kinds l.name

def Decl.TameAll (kinds : String → LabelKind) (decls : List Decl) : Prop :=
  Decl.EverywhereAll Expr.TameHere (fun l => l.kind = kinds l.name) decls

end Syntax

namespace Evaluation

open Syntax (Expr Decl Label LabelKind ParsedFile)
open Value

variable {kinds : String → LabelKind}

def Mention.Tame (kinds : String → LabelKind) : Mention → Prop
  | label l _ _ => l.kind = kinds l.name
  | conjunct _ e _ | embed e _ => e.Tame kinds
  | literal _ => True

section Mentions

variable {file : ParsedFile}

mutual

theorem tame_declsMentions {trail : Trail} {decls : List Decl} (tame : Decl.TameAll kinds decls) :
    ∀ m ∈ declsMentions trail file decls, m.2.Tame kinds := by
  match decls with
  | [] => simp [declsMentions]
  | decl :: decls =>
    rw [declsMentions, List.forall_mem_append]
    exact ⟨tame_declMentions tame.1, tame_declsMentions tame.2⟩

theorem tame_declMentions {trail : Trail} {decl : Decl}
    (tame : decl.Everywhere Expr.TameHere fun l => l.kind = kinds l.name) :
    ∀ m ∈ declMentions trail file decl, m.2.Tame kinds := by
  match decl with
  | .field label _ _ _ value =>
    rw [declMentions, List.forall_mem_cons]
    exact ⟨tame.1, tame_valueMentions tame.2⟩
  | .embed value =>
    rw [declMentions]
    exact tame_embedMentions tame

theorem tame_valueMentions {trail : Trail} {label : String} {value : Expr} (tame : value.Tame kinds) :
    ∀ m ∈ valueMentions trail label file value, m.2.Tame kinds := by
  match value with
  | .binary .unify left right =>
    rw [valueMentions, List.forall_mem_append]
    exact ⟨tame_valueMentions tame.2.1, tame_valueMentions tame.2.2⟩
  | .paren inner _ =>
    rw [valueMentions]
    exact tame_valueMentions tame.2
  | .struct decls _ =>
    rw [valueMentions, List.forall_mem_cons]
    exact ⟨trivial, tame_declsMentions tame.2⟩
  | .null _ | .bool _ _ | .int _ _ | .float _ _ | .string _ _ | .ident _ | .select _ _ | .list _ _
  | .unary _ _ _ | .binary .disjoin _ _ =>
    rw [valueMentions]
    · simpa [Mention.Tame] using tame
    all_goals simp

theorem tame_embedMentions {trail : Trail} {value : Expr} (tame : value.Tame kinds) :
    ∀ m ∈ embedMentions trail file value, m.2.Tame kinds := by
  match value with
  | .binary .unify left right =>
    rw [embedMentions, List.forall_mem_append]
    exact ⟨tame_embedMentions tame.2.1, tame_embedMentions tame.2.2⟩
  | .paren inner _ =>
    rw [embedMentions]
    exact tame_embedMentions tame.2
  | .struct decls _ =>
    rw [embedMentions]
    exact tame_declsMentions tame.2
  | .null _ | .bool _ _ | .int _ _ | .float _ _ | .string _ _ | .ident _ | .select _ _ | .list _ _
  | .unary _ _ _ | .binary .disjoin _ _ =>
    rw [embedMentions]
    · simpa [Mention.Tame] using tame
    all_goals simp

end

end Mentions

theorem Mention.kind_apply {m : Mention} {ds : List Declared} (each : ∀ d ∈ ds, d.kind = kinds d.label)
    (tame : m.Tame kinds) : ∀ d ∈ m.apply ds, d.kind = kinds d.label := by
  have updated (name : String) {f : Declared → Declared} (keeps : ∀ d, (f d).label = d.label ∧ (f d).kind = d.kind) :
      ∀ d ∈ Declared.update ds name f, d.kind = kinds d.label := by
    intro d member
    obtain ⟨d, inside, rfl⟩ := List.mem_map.mp member
    split
    · rw [(keeps d).1, (keeps d).2, each d inside]
    · exact each d inside
  cases m with
  | label l optional file =>
    rw [apply]
    split
    · exact updated _ fun _ => ⟨rfl, rfl⟩
    · rw [List.forall_mem_append]
      exact ⟨each, List.forall_mem_singleton.mpr tame⟩
  | conjunct name expr file => exact updated _ fun _ => ⟨rfl, rfl⟩
  | literal name => exact updated _ fun _ => ⟨rfl, rfl⟩
  | embed expr file => exact each

/-- A block with the same mentions in another order, in which declarations come first too. -/
structure Block.Rearranged (kinds : String → LabelKind) (b b' : Block) : Prop where
  perm : b.mentions.Perm b'.mentions
  led : ∀ trail name, Declared.Led name (b.mentionsAt trail)
  led' : ∀ trail name, Declared.Led name (b'.mentionsAt trail)
  tame : ∀ m ∈ b.mentions, m.2.Tame kinds

namespace Block.Rearranged

variable {b b' : Block}

theorem symm (h : Rearranged kinds b b') : Rearranged kinds b' b :=
  ⟨h.perm.symm, h.led', h.led, fun m member => h.tame m (h.perm.mem_iff.mpr member)⟩

theorem mentionsAt (h : Rearranged kinds b b') (trail : Trail) :
    (b.mentionsAt trail).Perm (b'.mentionsAt trail) := (h.perm.filter _).map _

theorem find? (h : Rearranged kinds b b') (trail : Trail) (name : String) :
    Option.Rel Declared.Alike (Declared.find? (b.declared trail) name) (Declared.find? (b'.declared trail) name) :=
  Declared.rel_of_perm (h.mentionsAt trail) (h.led trail name) (h.led' trail name)

theorem embeds (h : Rearranged kinds b b') (trail : Trail) : (b.embeds trail).Perm (b'.embeds trail) :=
  (h.mentionsAt trail).filterMap _

theorem tame_at (h : Rearranged kinds b b') {trail : Trail} {m : Mention} (member : m ∈ b.mentionsAt trail) :
    m.Tame kinds := by
  obtain ⟨m, inside, rfl⟩ := List.mem_map.mp member
  exact h.tame m (List.mem_filter.mp inside).1

theorem tame_embeds (h : Rearranged kinds b b') {trail : Trail} {w : Written} (member : w ∈ b.embeds trail) :
    w.expr.Tame kinds := by
  obtain ⟨m, inside, same⟩ := List.mem_filterMap.mp member
  cases m <;> cases same
  exact h.tame_at inside

theorem tame_conjuncts (h : Rearranged kinds b b') {trail : Trail} {name : String} {d : Declared}
    (found : Declared.find? (b.declared trail) name = some d) {w : Written} (member : w ∈ d.conjuncts) :
    w.expr.Tame kinds := by
  have gathered := Declared.find?_foldl (h.led trail name) (show Declared.find? [] name = none from rfl)
  rw [show Declared.find? ((b.mentionsAt trail).foldl Mention.apply []) name = some d from found] at gathered
  rw [gathered.2.2.1] at member
  obtain ⟨m, inside, same⟩ := List.mem_filterMap.mp member
  cases m with
  | conjunct l expr file =>
    rw [Mention.conjunct?] at same
    split at same <;> cases same
    exact h.tame_at inside
  | _ => cases same

theorem kind_declared (h : Rearranged kinds b b') (trail : Trail) : ∀ d ∈ b.declared trail, d.kind = kinds d.label := by
  rw [Block.declared]
  refine List.foldlRecOn (motive := fun ds => ∀ d ∈ ds, Declared.kind d = kinds d.label) _ _ ?_ ?_
  · exact fun d member => by cases member
  · exact fun ds each m member => Mention.kind_apply each (h.tame_at member)

end Block.Rearranged

/-- The block of a struct literal is no other whatever order the bodies around it are in. -/
theorem Block.rearranged_literal {decls : List Decl} (tame : Decl.TameAll kinds decls) (path path' : String)
    (file : ParsedFile) :
    Rearranged kinds ⟨path, declsMentions [] file decls⟩ ⟨path', declsMentions [] file decls⟩ :=
  ⟨.refl _, fun trail name => led_declsMentions file trail name [] decls,
    fun trail name => led_declsMentions file trail name [] decls, tame_declsMentions tame⟩

def Spot.Alike (kinds : String → LabelKind) (s s' : Spot) : Prop :=
  s.trail = s'.trail ∧ s.block.Rearranged kinds s'.block

def Env.Alike (kinds : String → LabelKind) : Env → Env → Prop := List.Forall₂ (Spot.Alike kinds)

namespace Env.Alike

variable {env env' : Env}

theorem symm (h : Alike kinds env env') : Alike kinds env' env :=
  h.flip.imp fun _ _ same => ⟨same.1.symm, same.2.symm⟩

theorem find? (h : Alike kinds env env') (label : String) :
    Option.Rel Declared.Alike (env.find? label) (env'.find? label) := by
  cases h with
  | nil => exact .none
  | @cons s s' _ _ first _ =>
    obtain ⟨b, trail⟩ := s
    obtain ⟨b', trail'⟩ := s'
    obtain ⟨same, rearranged⟩ := first
    cases same
    exact rearranged.find? trail label

theorem embeds (h : Alike kinds env env') : env.embeds.Perm env'.embeds := by
  cases h with
  | nil => exact .refl _
  | @cons s s' _ _ first _ =>
    obtain ⟨b, trail⟩ := s
    obtain ⟨b', trail'⟩ := s'
    obtain ⟨same, rearranged⟩ := first
    cases same
    exact rearranged.embeds trail

theorem inner (h : Alike kinds env env') (label : String) : Alike kinds (env.inner label) (env'.inner label) := by
  cases h with
  | nil => exact .nil
  | @cons s s' _ _ first rest =>
    obtain ⟨b, trail⟩ := s
    obtain ⟨b', trail'⟩ := s'
    obtain ⟨same, rearranged⟩ := first
    cases same
    exact .cons ⟨rfl, rearranged⟩ rest

theorem literal (h : Alike kinds env env') {decls : List Decl} (tame : Decl.TameAll kinds decls)
    (path path' : String) (file : ParsedFile) :
    Alike kinds (env.literal path file decls) (env'.literal path' file decls) :=
  .cons ⟨rfl, Block.rearranged_literal tame path path' file⟩ h

theorem tame_conjuncts (h : Alike kinds env env') {label : String} {d : Declared} (found : env.find? label = some d)
    {w : Written} (member : w ∈ d.conjuncts) : w.expr.Tame kinds := by
  cases h with
  | nil => cases found
  | cons first _ => exact first.2.tame_conjuncts found member

theorem tame_embeds (h : Alike kinds env env') {w : Written} (member : w ∈ env.embeds) : w.expr.Tame kinds := by
  cases h with
  | nil => cases member
  | cons first _ => exact first.2.tame_embeds member

theorem kind_declared (h : Alike kinds env env') : ∀ d ∈ env.declared, d.kind = kinds d.label := by
  cases h with
  | nil => exact fun d member => by cases member
  | @cons s _ _ _ first _ => exact first.2.kind_declared s.trail

theorem declaredSignature_eq (h : Alike kinds env env') :
    declaredSignature env.declared = declaredSignature env'.declared := by
  funext label
  have related := h.find? label
  unfold Env.find? at related
  unfold declaredSignature
  generalize Declared.find? env.declared label = d, Declared.find? env'.declared label = d' at related
  cases related with
  | none => rfl
  | some agree => exact congrArg some agree.optional

theorem declared_nonempty (h : Alike kinds env env') (some : env.declared ≠ []) : env'.declared ≠ [] := by
  intro empty
  obtain ⟨d, member⟩ := List.exists_mem_of_ne_nil _ some
  have related := h.find? d.label
  unfold Env.find? at related
  rw [empty] at related
  cases found : Declared.find? env.declared d.label with
  | none => exact absurd (List.mem_map_of_mem member) (Declared.find?_eq_none.mp found)
  | some d' =>
    rw [found] at related
    cases related

theorem bodyBranches_eq (h : Alike kinds env env') (F : String → Set (Set Value)) (S : Written → Set (Set Value)) :
    bodyBranches F S env.declared env.embeds = bodyBranches F S env'.declared env'.embeds := by
  have declared : env.declared.isEmpty = env'.declared.isEmpty := by
    rw [Bool.eq_iff_iff, List.isEmpty_iff, List.isEmpty_iff, ← not_iff_not]
    exact ⟨h.declared_nonempty, h.symm.declared_nonempty⟩
  unfold bodyBranches
  rw [h.declaredSignature_eq, declared, h.embeds.isEmpty_eq, meetAll_perm h.embeds]

theorem lookup_block {b b' : Block} (h : b.Rearranged kinds b') (label : String) (trail : Trail) :
    b.lookup label trail = b'.lookup label trail := by
  have present (trail : Trail) : (Declared.find? (b.declared trail) label).isSome =
      (Declared.find? (b'.declared trail) label).isSome := by
    have related := h.find? trail label
    generalize Declared.find? (b.declared trail) label = d, Declared.find? (b'.declared trail) label = d' at related
    cases related <;> rfl
  induction trail with
  | nil => rw [Block.lookup, Block.lookup, present]
  | cons l trail ih => rw [Block.lookup, Block.lookup, present, ih]

theorem lookup (h : Alike kinds env env') (label : String) :
    Option.Rel (Alike kinds) (env.lookup label) (env'.lookup label) := by
  induction h with
  | nil => exact .none
  | @cons s s' env env' first rest ih =>
    obtain ⟨b, trail⟩ := s
    obtain ⟨b', trail'⟩ := s'
    obtain ⟨same, rearranged⟩ := first
    cases same
    rw [Env.lookup, Env.lookup, lookup_block rearranged]
    cases b'.lookup label trail with
    | some trail => exact .some (.cons ⟨rfl, rearranged⟩ rest)
    | none => exact ih

theorem isSome_find? (h : Alike kinds env env') (label : String) :
    (env.find? label).isSome = (env'.find? label).isSome := by
  have related := h.find? label
  generalize env.find? label = d, env'.find? label = d' at related
  cases related <;> rfl

/-- Selectors that follow declared bodies lead to the same place. -/
theorem reference (h : Alike kinds env env') (e : Expr) :
    Option.Rel (fun r r' => Alike kinds r.1 r'.1 ∧ r.2 = r'.2) (Closure.reference? env e)
      (Closure.reference? env' e) := by
  match e with
  | .ident name =>
    have found := h.lookup name.name
    rw [Closure.reference?, Closure.reference?]
    generalize env.lookup name.name = r, env'.lookup name.name = r' at found
    cases found with
    | none => exact .none
    | some alike => exact .some ⟨alike, rfl⟩
  | .paren inner _ =>
    rw [Closure.reference?, Closure.reference?]
    exact h.reference inner
  | .select base field =>
    have related := h.reference base
    rw [Closure.reference?, Closure.reference?]
    generalize Closure.reference? env base = r, Closure.reference? env' base = r' at related
    cases related with
    | none => exact .none
    | @some r r' alike =>
      obtain ⟨env, label⟩ := r
      obtain ⟨env', label'⟩ := r'
      obtain ⟨alike, same⟩ := alike
      cases same
      have found := alike.find? label
      have inside := alike.inner label
      show Option.Rel _ ((env.find? label).bind _) ((env'.find? label).bind _)
      generalize env.find? label = d, env'.find? label = d' at found
      cases found with
      | none => exact .none
      | some agree =>
        rw [Option.bind_some, Option.bind_some]
        have conjuncts := agree.conjuncts.isEmpty_eq
        have embeds := inside.embeds.isEmpty_eq
        simp only [agree.opened, conjuncts, embeds, inside.isSome_find?]
        split
        · exact .some ⟨inside, rfl⟩
        · exact .none
  | .null _ | .bool _ _ | .int _ _ | .float _ _ | .string _ _ | .struct _ _ | .list _ _ | .unary _ _ _
  | .binary _ _ _ => exact .none

end Env.Alike

end Evaluation

end StackLattice
