import StackLattice.Proofs.Evaluation.Building
import StackLattice.Proofs.Evaluation.Recast
import StackLattice.Proofs.Evaluation.Simulation
import StackLattice.Proofs.Value.Matching

/-!
Tables of scopes whose bodies are written in different ways. Their nodes are numbered differently; a relation tells
which node of the one stands for which of the other. It is one to one, and look-up leads from related nodes to
related nodes.
-/

namespace StackLattice

open Syntax (Expr Decl ParsedFile)
open Evaluation
open Value (forall₂_trans)

/-- Which scopes of one table stand for which of another. -/
abbrev Links := Nat → Nat → Prop

/-- The files at two places refer to the same imports. -/
def FilesLinked (fs fs' : Array ParsedFile) (index index' : Nat) : Prop :=
  ∃ f f', fs[index]? = some f ∧ fs'[index']? = some f' ∧ f.ImportsAs f'

section Tables

variable (fs fs' : Array ParsedFile) (R : Links)

structure Conjunct.Linked (c c' : Conjunct) : Prop where
  expr : c.expr.Recast c'.expr
  scope : R c.scope c'.scope
  file : FilesLinked fs fs' c.file c'.file

structure Entry.Linked (e e' : Entry) : Prop where
  label : e.label = e'.label
  kind : e.kind = e'.kind
  optional : e.optional = e'.optional
  conjuncts : List.Forall₂ (Conjunct.Linked fs fs' R) e.conjuncts e'.conjuncts
  inner : Option.Rel R e.inner e'.inner

structure Scope.Linked (s s' : Scope) : Prop where
  path : s.path = s'.path
  entries : List.Forall₂ (Entry.Linked fs fs' R) s.entries s'.entries
  embeds : List.Forall₂ (Conjunct.Linked fs fs' R) s.embeds s'.embeds

end Tables

structure Scopes.Linked (R : Links) (s s' : Scopes) : Prop where
  inside {i i' : Nat} : R i i' → i < s.nodes.size ∧ i' < s'.nodes.size
  unique {i i' j j' : Nat} : R i i' → R j j' → (i = j ↔ i' = j')
  parent {i i' : Nat} : R i i' →
    Option.Rel (fun p p' : Nat => R p p' ∧ p < i ∧ p' < i') (s.node i).parent (s'.node i').parent
  node {i i' : Nat} : R i i' → Scope.Linked s.files s'.files R (s.node i) (s'.node i')

theorem rel_imp {α β : Type} {R S : α → β → Prop} (more : ∀ a b, R a b → S a b) {x : Option α} {y : Option β}
    (h : Option.Rel R x y) : Option.Rel S x y := by
  cases h with
  | some related => exact .some (more _ _ related)
  | none => exact .none

section Growth

variable {fs fs' : Array ParsedFile} {R R' : Links} (more : ∀ i i', R i i' → R' i i')

include more

theorem Conjunct.Linked.mono {c c' : Conjunct} (h : c.Linked fs fs' R c') : c.Linked fs fs' R' c' :=
  { h with scope := more _ _ h.scope }

theorem Entry.Linked.mono {e e' : Entry} (h : e.Linked fs fs' R e') : e.Linked fs fs' R' e' :=
  { h with
    conjuncts := h.conjuncts.imp fun _ _ => Conjunct.Linked.mono more
    inner := rel_imp more h.inner }

theorem Scope.Linked.mono {s s' : Scope} (h : s.Linked fs fs' R s') : s.Linked fs fs' R' s' :=
  { h with
    entries := h.entries.imp fun _ _ => Entry.Linked.mono more
    embeds := h.embeds.imp fun _ _ => Conjunct.Linked.mono more }

end Growth

section Bodies

variable {fs fs' : Array ParsedFile} {R : Links} {id id' : ScopeId}

theorem ConjunctIs.linked {c c' : Conjunct} {w w' : Written} (own : R id id') (h : ConjunctIs fs id c w)
    (h' : ConjunctIs fs' id' c' w') (same : w.Recast w') : c.Linked fs fs' R c' where
  expr := by rw [h.expr, h'.expr]; exact same.expr
  scope := by rw [h.scope, h'.scope]; exact own
  file := ⟨w.file, w'.file, h.file, h'.file, same.file⟩

theorem forall₂_between {α β γ δ : Type} {P : α → β → Prop} {Q : β → γ → Prop} {P' : δ → γ → Prop} {S : α → δ → Prop}
    {as : List α} {bs : List β} {cs : List γ} {ds : List δ} (first : List.Forall₂ P as bs) (second : List.Forall₂ Q bs cs)
    (third : List.Forall₂ P' ds cs) (step : ∀ a b c d, P a b → Q b c → P' d c → S a d) : List.Forall₂ S as ds :=
  forall₂_trans first (forall₂_trans second third.flip fun b _ c _ d _ q p' => (⟨c, q, p'⟩ : ∃ c, Q b c ∧ P' d c))
    fun a _ b _ d _ p ⟨c, q, p'⟩ => step a b c d p q p'

theorem BodyIs.linked {inner inner' : String → ScopeId → Prop} {s s' : Scope} {ds ds' : List Declared}
    {ws ws' : List Written} (own : R id id') (leads : ∀ label k k', inner label k → inner' label k' → R k k')
    (path : s.path = s'.path) (h : BodyIs fs id inner s ds ws) (h' : BodyIs fs' id' inner' s' ds' ws')
    (declared : List.Forall₂ Declared.Recast ds ds') (embeds : List.Forall₂ Written.Recast ws ws') :
    s.Linked fs fs' R s' := by
  refine ⟨path, forall₂_between h.entries declared h'.entries fun e d d' e' is same is' => ?_,
    forall₂_between h.embeds embeds h'.embeds fun c w w' c' is same is' => is.linked own is' same⟩
  refine ⟨by rw [is.label, is'.label, same.label], by rw [is.kind, is'.kind, same.kind],
    by rw [is.optional, is'.optional, same.optional],
    forall₂_between is.conjuncts same.conjuncts is'.conjuncts fun c w w' c' is same is' => is.linked own is' same, ?_⟩
  cases opened : d.opened with
  | true =>
    obtain ⟨k, eq, at_⟩ := is.opened opened
    obtain ⟨k', eq', at_'⟩ := is'.opened (same.opened.symm.trans opened)
    rw [eq, eq']
    exact .some (leads _ _ _ at_ (same.label ▸ at_'))
  | false =>
    rw [is.closed opened, is'.closed (same.opened.symm.trans opened)]
    exact .none

end Bodies

namespace Scopes

/-- The nodes that blocks add to two tables stand for each other where they belong to the same trail. -/
def grownLinks (R : Links) (size size' : Nat) (trails trails' : List Trail) : Links := fun i i' =>
  R i i' ∨ ∃ j j' trail, i = size + j ∧ i' = size' + j' ∧ trails[j]? = some trail ∧ trails'[j']? = some trail

variable {R : Links} {start start' s s' : Scopes} {parent parent' : Option ScopeId} {b b' : Block}
  {trails trails' : List Trail}

/-- Blocks that say the same in different ways are built to tables that are related. -/
theorem Linked.building (base : Linked R start start') (h : Building start parent b trails s)
    (h' : Building start' parent' b' trails' s') (path : b.path = b'.path) (said : SaysAs b.mentions b'.mentions)
    (outer : Option.Rel (fun p p' : Nat => R p p' ∧ p < start.nodes.size ∧ p' < start'.nodes.size) parent parent') :
    Linked (grownLinks R start.nodes.size start'.nodes.size trails trails') s s' := by
  have kept (i i' : Nat) (h : R i i') : grownLinks R start.nodes.size start'.nodes.size trails trails' i i' := .inl h
  have added {j j' : Nat} {trail : Trail} (at_ : trails[j]? = some trail) (at_' : trails'[j']? = some trail) :
      grownLinks R start.nodes.size start'.nodes.size trails trails' (start.nodes.size + j) (start'.nodes.size + j') :=
    .inr ⟨j, j', trail, rfl, rfl, at_, at_'⟩
  have size := h.length
  have size' := h'.length
  refine ⟨?_, ?_, ?_, ?_⟩
  · rintro i i' (old | ⟨j, j', trail, rfl, rfl, at_, at_'⟩)
    · have := base.inside old
      omega
    · exact ⟨h.bound at_, h'.bound at_'⟩
  · rintro i i' k k' (old | ⟨j, j', trail, rfl, rfl, at_, at_'⟩) (old₂ | ⟨l, l', trail₂, rfl, rfl, at₂, at₂'⟩)
    · exact base.unique old old₂
    · have := base.inside old
      omega
    · have := base.inside old₂
      omega
    · constructor
      · intro same
        cases Nat.add_left_cancel same
        cases at_.symm.trans at₂
        rw [(List.getElem?_inj (List.getElem?_eq_some_iff.mp at_').1 h'.distinct).mp (at_'.trans at₂'.symm)]
      · intro same
        cases Nat.add_left_cancel same
        cases at_'.symm.trans at₂'
        rw [(List.getElem?_inj (List.getElem?_eq_some_iff.mp at_).1 h.distinct).mp (at_.trans at₂.symm)]
  · rintro i i' (old | ⟨j, j', trail, rfl, rfl, at_, at_'⟩)
    · rw [h.old i (base.inside old).1, h'.old i' (base.inside old).2]
      exact rel_imp (fun p p' outer => ⟨kept p p' outer.1, outer.2⟩) (base.parent old)
    · cases trail with
      | nil =>
        rw [h.first j at_, h'.first j' at_']
        exact rel_imp (fun p p' outer => ⟨kept p p' outer.1, by omega, by omega⟩) outer
      | cons label trail =>
        obtain ⟨k, earlier, outside, eq⟩ := h.parent j label trail at_
        obtain ⟨k', earlier', outside', eq'⟩ := h'.parent j' label trail at_'
        rw [eq, eq']
        exact .some ⟨added outside outside', Nat.add_lt_add_left earlier _, Nat.add_lt_add_left earlier' _⟩
  · rintro i i' (old | ⟨j, j', trail, rfl, rfl, at_, at_'⟩)
    · rw [h.old i (base.inside old).1, h'.old i' (base.inside old).2, h.files, h'.files]
      exact (base.node old).mono kept
    · refine BodyIs.linked (added at_ at_') ?_ ?_ (h.body j trail at_) (h'.body j' trail at_')
        ((said trail).declared .nil) (said trail).embeds
      · rintro label _ _ ⟨k, rfl, leads⟩ ⟨k', rfl, leads'⟩
        exact added leads leads'
      · rw [h.path j trail at_, h'.path j' trail at_', Block.pathOf, Block.pathOf, path]

/-- Struct literals that are met at related scopes are added to related tables; only scopes of theirs come to be
    related. -/
theorem Linked.addStruct (h : Linked R s s') {id id' : Nat} (own : R id id') {file file' : Nat}
    (files : FilesLinked s.files s'.files file file') (path : String) {decls decls' : List Decl}
    (same : Decl.RecastAll decls decls') :
    ∃ R' : Links, (∀ i i', R i i' → R' i i') ∧
      (∀ i i', R' i i' → R i i' ∨ s.nodes.size ≤ i ∧ s'.nodes.size ≤ i') ∧
      s.Extends (s.addStruct id path file decls).2 ∧ s'.Extends (s'.addStruct id' path file' decls').2 ∧
      Linked R' (s.addStruct id path file decls).2 (s'.addStruct id' path file' decls').2 ∧
      R' (s.addStruct id path file decls).1 (s'.addStruct id' path file' decls').1 := by
  obtain ⟨f, f', source, source', imports⟩ := files
  obtain ⟨trails, longer, built⟩ := (Building.empty s (some id) path).addDecls (j := 0) rfl source decls
  obtain ⟨trails', longer', built'⟩ := (Building.empty s' (some id') path).addDecls (j := 0) rfl source' decls'
  refine ⟨_, fun _ _ => .inl, ?_, built.grown, built'.grown,
    h.building built built' rfl (saysAs_declsMentions imports same []) ?_, ?_⟩
  · rintro i i' (old | ⟨j, j', _, rfl, rfl, _, _⟩)
    · exact .inl old
    · exact .inr ⟨Nat.le_add_right _ _, Nat.le_add_right _ _⟩
  · exact .some ⟨own, (h.inside own).1, (h.inside own).2⟩
  · exact .inr ⟨0, 0, [], rfl, rfl, getElem?_longer longer rfl, getElem?_longer longer' rfl⟩

/-- More scopes behind those that are related change nothing for these. -/
theorem Linked.extended (h : Linked R s s') {t t' : Scopes} (grown : s.Extends t) (grown' : s'.Extends t') :
    Linked R t t' where
  inside own := ⟨Nat.lt_of_lt_of_le (h.inside own).1 grown.size, Nat.lt_of_lt_of_le (h.inside own).2 grown'.size⟩
  unique := h.unique
  parent own := by
    rw [grown.old _ (h.inside own).1, grown'.old _ (h.inside own).2]
    exact h.parent own
  node own := by
    rw [grown.old _ (h.inside own).1, grown'.old _ (h.inside own).2, grown.files, grown'.files]
    exact h.node own

/-- A table is related to itself, each scope standing for itself. -/
theorem linked_self {envs : List Env} (h : Described s envs) : Linked (fun i i' => i = i' ∧ i < s.nodes.size) s s where
  inside := by
    rintro i _ ⟨rfl, inside⟩
    exact ⟨inside, inside⟩
  unique := by
    rintro i _ j _ ⟨rfl, _⟩ ⟨rfl, _⟩
    rfl
  parent := by
    rintro i _ ⟨rfl, inside⟩
    obtain ⟨env, found⟩ : ∃ env, envs[i]? = some env := ⟨_, List.getElem?_eq_getElem (h.length ▸ inside)⟩
    rcases h.parent i env found with ⟨top, _⟩ | ⟨p, earlier, parent, _⟩
    · rw [top]
      exact .none
    · rw [parent]
      exact .some ⟨⟨rfl, Nat.lt_trans earlier inside⟩, earlier, earlier⟩
  node := by
    rintro i _ ⟨rfl, inside⟩
    obtain ⟨env, found⟩ : ∃ env, envs[i]? = some env := ⟨_, List.getElem?_eq_getElem (h.length ▸ inside)⟩
    have body := h.body i env found
    have conjunct {cs : List Conjunct} {ws : List Written} (are : List.Forall₂ (ConjunctIs s.files i) cs ws) :
        List.Forall₂ (Conjunct.Linked s.files s.files fun i i' => i = i' ∧ i < s.nodes.size) cs cs := by
      refine List.forall₂_same.mpr fun c member => ?_
      obtain ⟨w, _, is⟩ := Value.exists_left_of_mem are.flip member
      exact ⟨.refl _, ⟨rfl, is.scope ▸ inside⟩, w.file, w.file, is.file, is.file, rfl⟩
    refine ⟨rfl, List.forall₂_same.mpr fun e member => ?_, conjunct body.embeds⟩
    obtain ⟨d, _, is⟩ := Value.exists_left_of_mem body.entries.flip member
    refine ⟨rfl, rfl, rfl, conjunct is.conjuncts, ?_⟩
    cases opened : d.opened with
    | true =>
      obtain ⟨k, inner, at_⟩ := is.opened opened
      rw [inner]
      exact .some ⟨rfl, h.length ▸ (List.getElem?_eq_some_iff.mp at_).1⟩
    | false =>
      rw [is.closed opened]
      exact .none

/-- Packages that say the same in different ways have related tables. -/
theorem linked_ofFiles {files files' : List ParsedFile}
    (said : SaysAs (files.flatMap fun file => declsMentions [] file file.tree.decls)
      (files'.flatMap fun file => declsMentions [] file file.tree.decls)) :
    ∃ R : Links, Linked R (ofFiles files) (ofFiles files') ∧ R root root := by
  have built (files : List ParsedFile) : Built ⟨#[], files.toArray⟩ none ⟨"", []⟩ [[]] (ofFiles files)
      (files.flatMap fun file => declsMentions [] file file.tree.decls) :=
    (Building.empty ⟨#[], files.toArray⟩ none "").addFiles rfl rfl 0 files fun k f found => by simpa using found
  obtain ⟨trails, longer, left⟩ := built files
  obtain ⟨trails', longer', right⟩ := built files'
  have none : Linked (fun _ _ => False) ⟨#[], files.toArray⟩ ⟨#[], files'.toArray⟩ :=
    ⟨False.elim, False.elim, False.elim, False.elim⟩
  refine ⟨_, none.building left right rfl said .none, .inr ⟨0, 0, [], rfl, rfl, ?_, ?_⟩⟩
  · exact getElem?_longer longer rfl
  · exact getElem?_longer longer' rfl

section Linked

variable {id id' : Nat} (h : Linked R s s') (own : R id id')

include h own

theorem Linked.entryOf? (label : String) :
    Option.Rel (Entry.Linked s.files s'.files R) (s.entryOf? id label) (s'.entryOf? id' label) := by
  rw [Scopes.entryOf?, Scopes.entryOf?, Scope.entryOf?, Scope.entryOf?]
  have entries := (h.node own).entries
  generalize (s.node id).entries = es, (s'.node id').entries = es' at entries
  induction entries with
  | nil => exact .none
  | @cons e e' es es' first _ ih =>
    rw [List.find?_cons, List.find?_cons, first.label]
    cases e'.label == label with
    | true => exact .some first
    | false => exact ih

/-- A name is found in scopes that stand for each other. -/
theorem Linked.lookup (label : String) : Option.Rel R (s.lookup id label) (s'.lookup id' label) := by
  induction id using Nat.strongRecOn generalizing id' with
  | _ id ih =>
    have entry := h.entryOf? own label
    rw [Scopes.lookup, Scopes.lookup, ← isSome_of_rel entry]
    split
    · exact .some own
    · have outer := h.parent own
      generalize (s.node id).parent = p, (s'.node id').parent = p' at outer
      cases outer with
      | none => exact .none
      | some outer =>
        obtain ⟨outer, earlier, earlier'⟩ := outer
        simp only [earlier, earlier', if_true]
        exact ih _ earlier outer

end Linked

end Scopes

namespace Evaluation

variable {R : Links} {s s' : Scopes}

/-- Labels of scopes that stand for each other. -/
def KeyLinked (R : Links) (key key' : FieldKey) : Prop := R key.1 key'.1 ∧ key.2 = key'.2

theorem reference?_linked (h : Scopes.Linked R s s') {id id' : Nat} (own : R id id') {e e' : Expr} (same : e.Recast e') :
    Option.Rel (KeyLinked R) (reference? s id e) (reference? s' id' e') := by
  match same with
  | .ident name _ _ =>
    rw [reference?, reference?]
    have found := h.lookup own name
    generalize s.lookup id name = k, s'.lookup id' name = k' at found
    cases found with
    | some own => exact .some ⟨own, rfl⟩
    | none => exact .none
  | .paren _ _ inner =>
    rw [reference?, reference?]
    exact reference?_linked h own inner
  | .select field _ _ base =>
    rw [reference?, reference?]
    have around := reference?_linked h own base
    generalize reference? s id _ = k, reference? s' id' _ = k' at around
    cases around with
    | none => exact .none
    | @some key key' around =>
    obtain ⟨id, label⟩ := key
    obtain ⟨id', _⟩ := key'
    obtain ⟨own, rfl⟩ := around
    have entry := h.entryOf? own label
    simp only [Option.bind_eq_bind, Option.bind_some]
    generalize s.entryOf? id label = e, s'.entryOf? id' label = e' at entry
    cases entry with
    | none => exact .none
    | @some e e' entry =>
    have inner := entry.inner
    simp only [Option.bind_some]
    generalize e.inner = k, e'.inner = k' at inner
    cases inner with
    | none => exact .none
    | @some k k' own =>
    have declared : ((s.node k).entryOf? field).isSome = ((s'.node k').entryOf? field).isSome :=
      isSome_of_rel (h.entryOf? own field)
    rw [isEmpty_of_forall₂ entry.conjuncts]
    simp only [Option.bind_some, isEmpty_of_forall₂ (h.node own).embeds, declared]
    split
    · exact .some ⟨own, rfl⟩
    · exact .none
  | .null _ _ | .bool _ _ _ | .int _ _ _ | .float _ _ _ | .string _ _ _ | .struct _ _ _ | .list _ _ _
  | .unary _ _ _ _ | .binary _ _ _ =>
    rw [reference?, reference?]
    · exact .none
    all_goals simp
termination_by sizeOf e

end Evaluation

end StackLattice
