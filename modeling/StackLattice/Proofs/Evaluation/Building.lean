import StackLattice.Proofs.Evaluation.Described

/-!
A block is built at the end of a table: each trail that a struct literal leads to has a node there, and
the nodes before it are left alone.
-/

namespace StackLattice

open Syntax (Expr Decl Label ParsedFile)
open Evaluation

namespace Scopes

variable (s : Scopes)

theorem node_modify (id other : Nat) (f : Scope → Scope) (bound : id < s.nodes.size) :
    (s.modify id f).node other = if other = id then f (s.node other) else s.node other := by
  simp only [node, modify, Array.getElem?_modify]
  by_cases same : id = other
  · subst same
    simp [bound]
  · simp [same, Ne.symm same]

theorem size_modify (id : ScopeId) (f : Scope → Scope) : (s.modify id f).nodes.size = s.nodes.size := by
  simp [modify]

theorem node_push (scope : Scope) (id : Nat) :
    (s.push scope).2.node id = if id = s.nodes.size then scope else s.node id := by
  simp only [node, push, Array.getElem?_push]
  split <;> rfl

/-- The table with a new node for the struct literals of a label. -/
def withInner (id : ScopeId) (label : String) : Scopes :=
  (s.push ⟨some id, joinPath (s.node id).path label, [], []⟩).2.modifyEntry id label fun e =>
    { e with inner := some s.nodes.size }

section WithInner

variable {s} {id : Nat} (label : String)

theorem size_withInner : (s.withInner id label).nodes.size = s.nodes.size + 1 := by
  simp [withInner, modifyEntry, size_modify, push]

theorem node_withInner (bound : id < s.nodes.size) (other : Nat) :
    (s.withInner id label).node other =
      if other = id then
        { s.node id with entries := (s.node id).entries.map fun e =>
            if e.label == label then { e with inner := some s.nodes.size } else e }
      else if other = s.nodes.size then ⟨some id, joinPath (s.node id).path label, [], []⟩
      else s.node other := by
  rw [withInner, modifyEntry, node_modify _ _ _ _ (by simp [push]; omega), node_push]
  by_cases own : other = id
  · rw [if_pos own, if_pos own, if_neg (by omega), own]
  · rw [if_neg own, if_neg own]

theorem node_withInner_of_ne (bound : id < s.nodes.size) {other : Nat} (apart : other ≠ id)
    (old : other ≠ s.nodes.size) : (s.withInner id label).node other = s.node other := by
  rw [node_withInner label bound, if_neg apart, if_neg old]

theorem node_withInner_new (bound : id < s.nodes.size) :
    (s.withInner id label).node s.nodes.size = ⟨some id, joinPath (s.node id).path label, [], []⟩ := by
  rw [node_withInner label bound, if_neg (by omega), if_pos rfl]

theorem node_withInner_outline (bound : id < s.nodes.size) {other : Nat} (old : other < s.nodes.size) :
    ((s.withInner id label).node other).path = (s.node other).path ∧
      ((s.withInner id label).node other).parent = (s.node other).parent := by
  rw [node_withInner label bound]
  by_cases own : other = id
  · rw [if_pos own, own]
    exact ⟨rfl, rfl⟩
  · rw [if_neg own, if_neg (Nat.ne_of_lt old)]
    exact ⟨rfl, rfl⟩

end WithInner

end Scopes

theorem getElem?_longer {α : Type} {xs ys : List α} {j : Nat} {x : α} (h : xs <+: ys)
    (found : xs[j]? = some x) : ys[j]? = some x := by
  obtain ⟨more, rfl⟩ := h
  rw [List.getElem?_append_left (List.getElem?_eq_some_iff.mp found).1, found]

theorem getElem?_concat_eq_some {α : Type} {xs : List α} {j : Nat} {x y : α} :
    (xs ++ [x])[j]? = some y ↔ xs[j]? = some y ∨ j = xs.length ∧ x = y := by
  rw [List.getElem?_append]
  split
  · rename_i inside
    exact ⟨.inl, fun h => h.resolve_right fun last => absurd last.1 (Nat.ne_of_lt inside)⟩
  · rename_i outside
    rw [List.getElem?_eq_none (Nat.le_of_not_lt outside), List.getElem?_singleton]
    split
    · rename_i last
      simp [Nat.le_antisymm (Nat.sub_eq_zero_iff_le.mp last) (Nat.le_of_not_lt outside)]
    · rename_i beyond
      simp only [reduceCtorEq, false_or, false_iff]
      exact fun last => beyond (by omega)

/-- A table with more scopes behind those of another one. -/
structure Scopes.Extends (start s : Scopes) : Prop where
  files : s.files = start.files
  size : start.nodes.size ≤ s.nodes.size
  old : ∀ id : Nat, id < start.nodes.size → s.node id = start.node id

namespace Scopes.Extends

variable {s t u : Scopes}

theorem refl (s : Scopes) : s.Extends s := ⟨rfl, Nat.le_refl _, fun _ _ => rfl⟩

theorem trans (first : s.Extends t) (second : t.Extends u) : s.Extends u where
  files := second.files.trans first.files
  size := Nat.le_trans first.size second.size
  old id inside := (second.old id (Nat.lt_of_lt_of_le inside first.size)).trans (first.old id inside)

end Scopes.Extends

/-- The state of a block that is built at the end of a table: the trails that have a node, in the order of
    these. -/
structure Building (start : Scopes) (parent : Option ScopeId) (b : Block) (trails : List Trail) (s : Scopes) :
    Prop where
  files : s.files = start.files
  length : s.nodes.size = start.nodes.size + trails.length
  old : ∀ id : Nat, id < start.nodes.size → s.node id = start.node id
  path : ∀ j trail, trails[j]? = some trail → (s.node (start.nodes.size + j)).path = b.pathOf trail
  first : ∀ j, trails[j]? = some [] → (s.node (start.nodes.size + j)).parent = parent
  parent : ∀ j label trail, trails[j]? = some (label :: trail) → ∃ k < j, trails[k]? = some trail ∧
    (s.node (start.nodes.size + j)).parent = some (start.nodes.size + k)
  body : ∀ j trail, trails[j]? = some trail →
    BodyIs s.files (start.nodes.size + j)
      (fun label k => ∃ i, k = start.nodes.size + i ∧ trails[i]? = some (label :: trail))
      (s.node (start.nodes.size + j)) (b.declared trail) (b.embeds trail)
  distinct : trails.Nodup
  within : ∀ mention ∈ b.mentions, mention.1 ∈ trails
  opened : ∀ label trail, label :: trail ∈ trails →
    ∃ d, Declared.find? (b.declared trail) label = some d ∧ d.opened = true

namespace Building

variable {start s s' : Scopes} {parent : Option ScopeId} {b : Block} {trails : List Trail} {j : Nat}
  {trail : Trail} {m : Mention}

theorem grown (h : Building start parent b trails s) : start.Extends s :=
  ⟨h.files, h.length ▸ Nat.le_add_right _ _, h.old⟩

theorem bound (h : Building start parent b trails s) (found : trails[j]? = some trail) :
    start.nodes.size + j < s.nodes.size := by
  have := (List.getElem?_eq_some_iff.mp found).1
  have := h.length
  omega

theorem mention (h : Building start parent b trails s) (found : trails[j]? = some trail)
    (files : s'.files = s.files) (size : s'.nodes.size = s.nodes.size)
    (others : ∀ id : Nat, id ≠ start.nodes.size + j → s'.node id = s.node id)
    (path : (s'.node (start.nodes.size + j)).path = (s.node (start.nodes.size + j)).path)
    (outer : (s'.node (start.nodes.size + j)).parent = (s.node (start.nodes.size + j)).parent)
    (body : BodyIs s.files (start.nodes.size + j)
      (fun label k => ∃ i, k = start.nodes.size + i ∧ trails[i]? = some (label :: trail))
      (s'.node (start.nodes.size + j)) (m.apply (b.declared trail)) (b.embeds trail ++ m.embed?.toList)) :
    Building start parent (b.add [(trail, m)]) trails s' := by
  have elsewhere (i : Nat) (other : i ≠ j) :
      s'.node (start.nodes.size + i) = s.node (start.nodes.size + i) := others _ (by omega)
  have sameParent (i : Nat) : (s'.node (start.nodes.size + i)).parent = (s.node (start.nodes.size + i)).parent := by
    by_cases same : i = j
    · rw [same, outer]
    · rw [elsewhere i same]
  refine ⟨files.trans h.files, size.trans h.length, fun id inside => ?_, fun i other at_ => ?_,
    fun i at_ => (sameParent i).trans (h.first i at_), fun i label other at_ => ?_,
    fun i other at_ => ?_, h.distinct, fun mention member => ?_, fun label other member => ?_⟩
  · rw [others id (by omega), h.old id inside]
  · rw [Block.pathOf_add, ← h.path i other at_]
    by_cases same : i = j
    · rw [same, path]
    · rw [elsewhere i same]
  · rw [sameParent i]
    exact h.parent i label other at_
  · by_cases same : i = j
    · subst same
      rw [found] at at_
      cases at_
      rw [files, Block.declared_add, Block.embeds_add]
      exact body
    · have apart : trail ≠ other := by
        rintro rfl
        exact same ((List.getElem?_inj (List.getElem?_eq_some_iff.mp at_).1 h.distinct).mp (at_.trans found.symm))
      have kept := h.body i other at_
      rw [files, elsewhere i same, Block.declared, Block.embeds, Block.mentionsAt_add_of_ne _ _ apart]
      exact kept
  · rcases List.mem_append.mp member with earlier | new
    · exact h.within mention earlier
    · rw [List.mem_singleton.mp new]
      exact List.mem_of_getElem? found
  · obtain ⟨d, at_, opened⟩ := h.opened label other member
    obtain ⟨d', at_', still⟩ := b.find?_add other trail m at_
    exact ⟨d', at_', still opened⟩

section Bodies

variable {files : Array ParsedFile} {id : ScopeId} {inner inner' : String → ScopeId → Prop}

theorem entries_update {es : List Entry} {ds : List Declared} {name : String} {f : Entry → Entry}
    {g : Declared → Declared} (h : List.Forall₂ (EntryIs files id inner) es ds)
    (mono : ∀ label k, inner label k → inner' label k)
    (changed : ∀ e d, EntryIs files id inner e d → d.label = name → EntryIs files id inner' (f e) (g d)) :
    List.Forall₂ (EntryIs files id inner') (es.map fun e => if e.label == name then f e else e)
      (Declared.update ds name g) := by
  rw [Declared.update, List.forall₂_map_left_iff, List.forall₂_map_right_iff]
  refine h.imp fun e d is => ?_
  rw [is.label]
  by_cases same : d.label = name
  · rw [if_pos (beq_iff_eq.mpr same), if_pos (beq_iff_eq.mpr same)]
    exact changed e d is same
  · rw [if_neg (mt beq_iff_eq.mp same), if_neg (mt beq_iff_eq.mp same)]
    exact is.mono mono

end Bodies

theorem modify {f : Scope → Scope} (h : Building start parent b trails s) (found : trails[j]? = some trail)
    (path : ∀ scope, (f scope).path = scope.path) (outer : ∀ scope, (f scope).parent = scope.parent)
    (body : BodyIs s.files (start.nodes.size + j)
      (fun label k => ∃ i, k = start.nodes.size + i ∧ trails[i]? = some (label :: trail))
      (f (s.node (start.nodes.size + j))) (m.apply (b.declared trail))
      (b.embeds trail ++ m.embed?.toList)) :
    Building start parent (b.add [(trail, m)]) trails (s.modify (start.nodes.size + j) f) := by
  have changed := s.node_modify (start.nodes.size + j) (start.nodes.size + j) f (h.bound found)
  rw [if_pos rfl] at changed
  refine h.mention found rfl (s.size_modify _ _) (fun id other => ?_) ?_ ?_ (changed ▸ body)
  · rw [s.node_modify _ _ _ (h.bound found), if_neg other]
  · rw [changed, path]
  · rw [changed, outer]

theorem declare {file : Nat} {f : ParsedFile} (h : Building start parent b trails s)
    (found : trails[j]? = some trail) (source : s.files[file]? = some f) (label : Label) (optional : Bool) :
    Building start parent (b.add [(trail, .label label optional f)]) trails
      (s.declare (start.nodes.size + j) label optional file) := by
  have body := h.body j trail found
  rw [Scopes.declare, Scopes.entryOf?]
  cases present : Declared.find? (b.declared trail) label.name with
  | some d =>
    obtain ⟨e, entry, _⟩ := body.find_some present
    rw [entry, Option.isSome_some, if_pos rfl]
    refine h.modify found (fun _ => rfl) (fun _ => rfl) ⟨?_, ?_⟩
    · rw [Mention.apply, present]
      refine entries_update body.entries (fun _ _ => id) fun e d is _ => ?_
      exact { is with optional := by rw [is.optional] }
    · exact (List.append_nil (b.embeds trail)).symm ▸ body.embeds
  | none =>
    rw [body.find_none present]
    refine h.modify found (fun _ => rfl) (fun _ => rfl) ⟨?_, ?_⟩
    · rw [Mention.apply, present]
      refine List.rel_append body.entries (.cons ?_ .nil)
      refine ⟨rfl, rfl, rfl, ?_, .nil, fun opened => absurd opened Bool.false_ne_true, fun _ => rfl⟩
      rw [Scopes.position?, source]
      rfl
    · exact (List.append_nil (b.embeds trail)).symm ▸ body.embeds

theorem conjunct {label : String} {expr : Expr} {file : Nat} {f : ParsedFile}
    (h : Building start parent b trails s) (found : trails[j]? = some trail)
    (source : s.files[file]? = some f) :
    Building start parent (b.add [(trail, .conjunct label expr f)]) trails
      (s.modifyEntry (start.nodes.size + j) label fun e =>
        { e with conjuncts := e.conjuncts ++ [⟨expr, start.nodes.size + j, file⟩] }) := by
  have body := h.body j trail found
  refine h.modify found (fun _ => rfl) (fun _ => rfl) ⟨?_, ?_⟩
  · refine entries_update body.entries (fun _ _ => id) fun e d is _ => ?_
    exact { is with conjuncts := List.rel_append is.conjuncts (.cons ⟨rfl, rfl, source⟩ .nil) }
  · exact (List.append_nil (b.embeds trail)).symm ▸ body.embeds

theorem embed {expr : Expr} {file : Nat} {f : ParsedFile} (h : Building start parent b trails s)
    (found : trails[j]? = some trail) (source : s.files[file]? = some f) :
    Building start parent (b.add [(trail, .embed expr f)]) trails
      (s.modify (start.nodes.size + j) fun scope =>
        { scope with embeds := scope.embeds ++ [⟨expr, start.nodes.size + j, file⟩] }) := by
  have body := h.body j trail found
  exact h.modify found (fun _ => rfl) (fun _ => rfl)
    ⟨body.entries, List.rel_append body.embeds (.cons ⟨rfl, rfl, source⟩ .nil)⟩

section Opening

variable {label : String} {d : Declared} (h : Building start parent b trails s) (found : trails[j]? = some trail)
  (declared : Declared.find? (b.declared trail) label = some d) (closed : d.opened = false)

include h declared closed

theorem not_mem_of_closed : label :: trail ∉ trails := by
  intro member
  obtain ⟨d', again, opened⟩ := h.opened label trail member
  rw [declared] at again
  cases again
  rw [closed] at opened
  exact Bool.false_ne_true opened

omit closed in
theorem opened_literal {name : String} {t : Trail} (member : name :: t ∈ trails ++ [label :: trail]) :
    ∃ d, Declared.find? ((b.add [(trail, .literal label)]).declared t) name = some d ∧ d.opened = true := by
  rcases List.mem_append.mp member with old | only
  · obtain ⟨d', at_, opened⟩ := h.opened name t old
    obtain ⟨d'', at_', still⟩ := b.find?_add t trail (.literal label) at_
    exact ⟨d'', at_', still opened⟩
  · cases List.mem_singleton.mp only
    rw [Block.declared_add, Mention.apply, Declared.find?_update, declared]
    · refine ⟨_, rfl, ?_⟩
      show Declared.opened (if d.label == label then _ else _) = true
      rw [Declared.label_of_find? declared, if_pos (beq_self_eq_true _)]
    · exact fun _ => rfl

/-- Nothing was mentioned of the new body yet. -/
theorem mentionsAt_literal : (b.add [(trail, .literal label)]).mentionsAt (label :: trail) = [] := by
  rw [Block.mentionsAt_add_of_ne _ _ (List.ne_cons_self), Block.mentionsAt, List.map_eq_nil_iff,
    List.filter_eq_nil_iff]
  intro mention member at_
  exact h.not_mem_of_closed declared closed (eq_of_beq at_ ▸ h.within mention member)

include found

omit declared closed in
theorem body_literal {i : Nat} {t : Trail} (at_ : trails[i]? = some t) :
    BodyIs s.files (start.nodes.size + i)
      (fun name k => ∃ i, k = start.nodes.size + i ∧ (trails ++ [label :: trail])[i]? = some (name :: t))
      ((s.withInner (start.nodes.size + j) label).node (start.nodes.size + i))
      ((b.add [(trail, .literal label)]).declared t) ((b.add [(trail, .literal label)]).embeds t) := by
  have body := h.body i t at_
  have size := h.length
  have mono (name : String) (k : ScopeId) (inner : ∃ i, k = start.nodes.size + i ∧ trails[i]? = some (name :: t)) :
      ∃ i, k = start.nodes.size + i ∧ (trails ++ [label :: trail])[i]? = some (name :: t) :=
    let ⟨i, eq, at_⟩ := inner
    ⟨i, eq, getElem?_longer (List.prefix_append _ _) at_⟩
  by_cases same : i = j
  · subst same
    rw [found] at at_
    cases at_
    rw [Scopes.node_withInner label (h.bound found), if_pos rfl, Block.declared_add, Block.embeds_add]
    refine ⟨entries_update body.entries mono fun e d is at_ => ?_, ?_⟩
    · refine { is with opened := fun _ => ⟨_, rfl, _, size, ?_⟩, closed := fun impossible => ?_ }
      · rw [at_]
        exact List.getElem?_concat_length
      · exact absurd impossible.symm Bool.false_ne_true
    · exact (List.append_nil (b.embeds trail)).symm ▸ body.embeds
  · have inside : i < trails.length := (List.getElem?_eq_some_iff.mp at_).1
    have apart : trail ≠ t := by
      rintro rfl
      exact same ((List.getElem?_inj inside h.distinct).mp (at_.trans found.symm))
    rw [Scopes.node_withInner_of_ne label (h.bound found) (by omega) (by omega), Block.declared, Block.embeds,
      Block.mentionsAt_add_of_ne _ _ apart]
    exact body.mono mono

/-- A first struct literal for a label gets a node of its own. -/
theorem openInner : Building start parent (b.add [(trail, .literal label)]) (trails ++ [label :: trail])
    (s.withInner (start.nodes.size + j) label) := by
  have size := h.length
  have bound := h.bound found
  have inside : j < trails.length := (List.getElem?_eq_some_iff.mp found).1
  have new : label :: trail ∉ trails := h.not_mem_of_closed declared closed
  have added : (s.withInner (start.nodes.size + j) label).node (start.nodes.size + trails.length) =
      ⟨some (start.nodes.size + j), joinPath (b.pathOf trail) label, [], []⟩ := by
    rw [← size, Scopes.node_withInner_new label bound, h.path j trail found]
  have outline {i : Nat} {t : Trail} (at_ : trails[i]? = some t) :
      ((s.withInner (start.nodes.size + j) label).node (start.nodes.size + i)).path =
          (s.node (start.nodes.size + i)).path ∧
        ((s.withInner (start.nodes.size + j) label).node (start.nodes.size + i)).parent =
          (s.node (start.nodes.size + i)).parent :=
    Scopes.node_withInner_outline label bound (h.bound at_)
  refine ⟨h.files, ?_, fun id earlier => ?_, fun i t at_ => ?_, fun i at_ => ?_, fun i name t at_ => ?_,
    fun i t at_ => ?_, ?_, fun mention member => ?_, fun name t => h.opened_literal declared⟩
  · rw [Scopes.size_withInner, size, List.length_append, List.length_singleton, Nat.add_assoc]
  · rw [Scopes.node_withInner_of_ne label bound (by omega) (by omega), h.old id earlier]
  -- A trail of the longer list is an old one or the one that was added.
  · rcases getElem?_concat_eq_some.mp at_ with at_ | ⟨rfl, rfl⟩
    · rw [(outline at_).1, Block.pathOf_add, h.path i t at_]
    · rw [added]
      rfl
  · rcases getElem?_concat_eq_some.mp at_ with at_ | ⟨_, impossible⟩
    · exact (outline at_).2.trans (h.first i at_)
    · cases impossible
  · rcases getElem?_concat_eq_some.mp at_ with at_ | ⟨rfl, eq⟩
    · obtain ⟨k, earlier, before, eq⟩ := h.parent i name t at_
      exact ⟨k, earlier, getElem?_longer (List.prefix_append _ _) before, (outline at_).2.trans eq⟩
    · cases eq
      exact ⟨j, inside, getElem?_longer (List.prefix_append _ _) found, by rw [added]⟩
  · rcases getElem?_concat_eq_some.mp at_ with at_ | ⟨rfl, rfl⟩
    · exact h.body_literal found at_
    · rw [added, Block.declared, Block.embeds, h.mentionsAt_literal declared closed]
      exact ⟨.nil, .nil⟩
  · exact List.nodup_append.mpr ⟨h.distinct, List.pairwise_singleton _ _, fun old member other only => by
      rw [List.mem_singleton.mp only]
      rintro rfl
      exact new member⟩
  · refine List.mem_append_left _ ?_
    rcases List.mem_append.mp member with earlier | only
    · exact h.within mention earlier
    · rw [List.mem_singleton.mp only]
      exact List.mem_of_getElem? found

end Opening

theorem innerOf {label : String} {d : Declared} (h : Building start parent b trails s)
    (found : trails[j]? = some trail) (declared : Declared.find? (b.declared trail) label = some d) :
    ∃ trails' i, trails <+: trails' ∧ trails'[i]? = some (label :: trail) ∧
      (s.innerOf (start.nodes.size + j) label).1 = start.nodes.size + i ∧
      Building start parent (b.add [(trail, .literal label)]) trails'
        (s.innerOf (start.nodes.size + j) label).2 := by
  have body := h.body j trail found
  obtain ⟨e, entry, is⟩ := body.find_some declared
  have lookup : (s.entryOf? (start.nodes.size + j) label).bind (·.inner) = e.inner := by
    rw [Scopes.entryOf?, entry]
    rfl
  rw [Scopes.innerOf, lookup]
  cases opened : d.opened with
  | true =>
    -- The label has its node already, and the mention changes nothing.
    obtain ⟨k, eq, i, rfl, inner⟩ := is.opened opened
    rw [Declared.label_of_find? declared] at inner
    rw [eq]
    refine ⟨trails, i, List.prefix_rfl, inner, rfl, ?_⟩
    refine h.mention found rfl rfl (fun _ _ => rfl) rfl rfl ⟨?_, ?_⟩
    · have same : Mention.apply (b.declared trail) (.literal label) = b.declared trail := by
        refine Declared.update_eq_self fun d' member at_ => ?_
        have only : d' = d := Declared.eq_of_find? (b.nodup_declared trail) declared member at_
        rw [only, ← opened]
      rw [same]
      exact body.entries
    · exact (List.append_nil (b.embeds trail)).symm ▸ body.embeds
  | false =>
    rw [is.closed opened]
    refine ⟨trails ++ [label :: trail], trails.length, List.prefix_append _ _,
      List.getElem?_concat_length, h.length, ?_⟩
    exact h.openInner found declared opened

end Building

/-- Whether a table went on with the block, by some mentions more. -/
def Built (start : Scopes) (parent : Option ScopeId) (b : Block) (trails : List Trail) (s : Scopes)
    (more : List (Trail × Mention)) : Prop :=
  ∃ trails', trails <+: trails' ∧ Building start parent (b.add more) trails' s

section Built

variable {start : Scopes} {parent : Option ScopeId} {file : Nat} {f : ParsedFile}

section Growing

variable {s s' : Scopes} {b : Block} {trails : List Trail}

theorem Building.built {trail : Trail} {m : Mention} (h : Building start parent (b.add [(trail, m)]) trails s) :
    Built start parent b trails s [(trail, m)] := ⟨trails, List.prefix_rfl, h⟩

theorem Built.cons {first : Trail × Mention} {more : List (Trail × Mention)}
    (h : Built start parent (b.add [first]) trails s more) : Built start parent b trails s (first :: more) := by
  obtain ⟨trails', longer, h⟩ := h
  exact ⟨trails', longer, by rwa [← List.singleton_append, Block.add_append]⟩

theorem Built.append {first last : List (Trail × Mention)} (h : Built start parent b trails s first)
    (next : ∀ trails', trails <+: trails' → Building start parent (b.add first) trails' s →
      Built start parent (b.add first) trails' s' last) : Built start parent b trails s' (first ++ last) := by
  obtain ⟨trails', longer, h⟩ := h
  obtain ⟨trails'', again, h⟩ := next trails' longer h
  exact ⟨trails'', longer.trans again, by rwa [Block.add_append]⟩

end Growing

mutual

theorem Building.addDecls {s : Scopes} {b : Block} {trails : List Trail} {j : Nat} {trail : Trail}
    (h : Building start parent b trails s) (found : trails[j]? = some trail) (source : start.files[file]? = some f) (decls : List Decl) :
    Built start parent b trails (s.addDecls (start.nodes.size + j) file decls)
      (declsMentions trail f decls) := by
  match decls with
  | [] =>
    rw [Scopes.addDecls, declsMentions]
    exact ⟨trails, List.prefix_rfl, by rwa [Block.add_nil]⟩
  | decl :: decls =>
    rw [Scopes.addDecls, declsMentions]
    refine (h.addDecl found source decl).append fun trails' longer h => ?_
    exact h.addDecls (getElem?_longer longer found) source decls

theorem Building.addDecl {s : Scopes} {b : Block} {trails : List Trail} {j : Nat} {trail : Trail}
    (h : Building start parent b trails s) (found : trails[j]? = some trail) (source : start.files[file]? = some f) (decl : Decl) :
    Built start parent b trails (s.addDecl (start.nodes.size + j) file decl) (declMentions trail f decl) := by
  match decl with
  | .field label optional _ _ value =>
    rw [Scopes.addDecl, declMentions]
    have declared := h.declare found (h.files ▸ source) label optional
    obtain ⟨d, present⟩ := b.find?_add_label trail label optional f
    exact (declared.addValue found source present value).cons
  | .embed value =>
    rw [Scopes.addDecl, declMentions]
    exact h.addEmbed found source value

theorem Building.addValue {s : Scopes} {b : Block} {trails : List Trail} {j : Nat} {trail : Trail}
    {label : String} {d : Declared} (h : Building start parent b trails s) (found : trails[j]? = some trail) (source : start.files[file]? = some f)
    (present : Declared.find? (b.declared trail) label = some d) (value : Expr) :
    Built start parent b trails (s.addValue (start.nodes.size + j) label file value)
      (valueMentions trail label f value) := by
  match value with
  | .binary .unify left right =>
    rw [Scopes.addValue, valueMentions]
    refine (h.addValue found source present left).append fun trails' longer h => ?_
    obtain ⟨_, present⟩ := b.find?_add_all trail (valueMentions trail label f left) present
    exact h.addValue (getElem?_longer longer found) source present right
  | .paren inner _ =>
    rw [Scopes.addValue, valueMentions]
    exact h.addValue found source present inner
  | .struct decls _ =>
    rw [Scopes.addValue, valueMentions]
    obtain ⟨trails', i, longer, at_, id, h⟩ := h.innerOf found present
    obtain ⟨trails'', again, h⟩ := h.addDecls at_ source decls
    rw [← id] at h
    exact Built.cons ⟨trails'', longer.trans again, h⟩
  | .null _ | .bool _ _ | .int _ _ | .float _ _ | .string _ _ | .ident _ | .select _ _ | .list _ _
  | .unary _ _ _ | .binary .disjoin _ _ =>
    rw [Scopes.addValue, valueMentions]
    · exact (h.conjunct found (h.files ▸ source)).built
    all_goals simp

theorem Building.addEmbed {s : Scopes} {b : Block} {trails : List Trail} {j : Nat} {trail : Trail}
    (h : Building start parent b trails s) (found : trails[j]? = some trail) (source : start.files[file]? = some f) (value : Expr) :
    Built start parent b trails (s.addEmbed (start.nodes.size + j) file value)
      (embedMentions trail f value) := by
  match value with
  | .binary .unify left right =>
    rw [Scopes.addEmbed, embedMentions]
    refine (h.addEmbed found source left).append fun trails' longer h => ?_
    exact h.addEmbed (getElem?_longer longer found) source right
  | .paren inner _ =>
    rw [Scopes.addEmbed, embedMentions]
    exact h.addEmbed found source inner
  | .struct decls _ =>
    rw [Scopes.addEmbed, embedMentions]
    exact h.addDecls found source decls
  | .null _ | .bool _ _ | .int _ _ | .float _ _ | .string _ _ | .ident _ | .select _ _ | .list _ _
  | .unary _ _ _ | .binary .disjoin _ _ =>
    rw [Scopes.addEmbed, embedMentions]
    · exact (h.embed found (h.files ▸ source)).built
    all_goals simp

end

theorem Building.empty (start : Scopes) (parent : Option ScopeId) (path : String) :
    Building start parent ⟨path, []⟩ [[]] (start.push ⟨parent, path, [], []⟩).2 := by
  have only {j : Nat} {trail : Trail} (found : [([] : Trail)][j]? = some trail) : j = 0 ∧ trail = [] := by
    cases j with
    | zero => exact ⟨rfl, (Option.some.inj found).symm⟩
    | succ j => cases found
  have own : (start.push ⟨parent, path, [], []⟩).2.node (start.nodes.size + 0) = ⟨parent, path, [], []⟩ := by
    rw [start.node_push, if_pos (Nat.add_zero _)]
  refine ⟨rfl, by simp [Scopes.push], fun id earlier => ?_, fun j trail found => ?_, fun j found => ?_,
    fun j label trail found => ?_, fun j trail found => ?_, List.pairwise_singleton _ _,
    fun mention member => (by cases member), fun label trail member => ?_⟩
  · rw [start.node_push, if_neg (by omega)]
  · obtain ⟨rfl, rfl⟩ := only found
    rw [own]
    rfl
  · obtain ⟨rfl, -⟩ := only found
    rw [own]
  · cases (only found).2
  · obtain ⟨rfl, rfl⟩ := only found
    rw [own]
    exact ⟨.nil, .nil⟩
  · cases List.mem_singleton.mp member

/-- A block that was built on a described table is described as well. -/
theorem Building.described {s : Scopes} {b : Block} {trails : List Trail} {envs : List Env} {rest : Env}
    (h : Building start parent b trails s) (before : Described start envs)
    (outer : (parent = none ∧ rest = []) ∨
      ∃ p < start.nodes.size, parent = some p ∧ envs[p]? = some rest) :
    Described s (envs ++ trails.map fun trail => ⟨b, trail⟩ :: rest) := by
  have base := before.length
  have leads {j : Nat} {trail : Trail} (found : trails[j]? = some trail) :
      (envs ++ trails.map fun trail => ⟨b, trail⟩ :: rest)[start.nodes.size + j]? =
        some (⟨b, trail⟩ :: rest) := by
    rw [List.getElem?_append_right (by omega), base, Nat.add_sub_cancel_left, List.getElem?_map, found]
    rfl
  have extend {id : ScopeId} {env : Env} (found : envs[id]? = some env) :
      (envs ++ trails.map fun trail => ⟨b, trail⟩ :: rest)[id]? = some env :=
    getElem?_longer (List.prefix_append _ _) found
  -- A node is an old one or belongs to the block.
  have split {id : Nat} {env : Env}
      (found : (envs ++ trails.map fun trail => ⟨b, trail⟩ :: rest)[id]? = some env) :
      (id < start.nodes.size ∧ envs[id]? = some env) ∨
        ∃ j trail, id = start.nodes.size + j ∧ trails[j]? = some trail ∧ env = ⟨b, trail⟩ :: rest := by
    rcases Nat.lt_or_ge id start.nodes.size with old | new
    · rw [List.getElem?_append_left (by omega)] at found
      exact .inl ⟨old, found⟩
    · rw [List.getElem?_append_right (by omega), List.getElem?_map, Option.map_eq_some_iff] at found
      obtain ⟨trail, found, rfl⟩ := found
      exact .inr ⟨_, trail, by omega, found, rfl⟩
  refine ⟨by rw [List.length_append, List.length_map, base, h.length], ?_, ?_, ?_⟩
  · intro id env found
    rcases split found with ⟨old, found⟩ | ⟨j, trail, rfl, inBlock, rfl⟩
    · rw [h.old id old]
      exact before.path id env found
    · exact h.path j trail inBlock
  · intro id env found
    rcases split found with ⟨old, found⟩ | ⟨j, trail, rfl, inBlock, rfl⟩
    · rw [h.old id old]
      rcases before.parent id env found with top | ⟨p, earlier, eq, found⟩
      · exact .inl top
      · exact .inr ⟨p, earlier, eq, extend found⟩
    · cases trail with
      | nil =>
        rw [h.first j inBlock]
        rcases outer with top | ⟨p, earlier, eq, found⟩
        · exact .inl top
        · exact .inr ⟨p, Nat.lt_of_lt_of_le earlier (Nat.le_add_right _ _), eq, extend found⟩
      | cons label trail =>
        obtain ⟨k, earlier, outer, eq⟩ := h.parent j label trail inBlock
        exact .inr ⟨_, Nat.add_lt_add_left earlier _, eq, leads outer⟩
  · intro id env found
    rcases split found with ⟨old, found⟩ | ⟨j, trail, rfl, inBlock, rfl⟩
    · rw [h.old id old, h.files]
      exact (before.body id env found).mono fun label k found => extend found
    · refine (h.body j trail inBlock).mono ?_
      rintro label _ ⟨i, rfl, found⟩
      exact leads found

end Built

/-- A struct literal that is met during evaluation is described by the block of its declarations. -/
theorem Described.addStruct {s : Scopes} {envs : List Env} {id file : Nat} {env : Env} {f : ParsedFile}
    (h : Described s envs) (found : envs[id]? = some env) (source : s.files[file]? = some f) (path : String)
    (decls : List Decl) :
    s.Extends (s.addStruct id path file decls).2 ∧ ∃ envs', envs <+: envs' ∧
      Described (s.addStruct id path file decls).2 envs' ∧
      envs'[(s.addStruct id path file decls).1]? = some (env.literal path f decls) := by
  have empty := Building.empty s (some id) path
  obtain ⟨trails, longer, built⟩ := empty.addDecls (j := 0) rfl source decls
  have inside : id < s.nodes.size := h.length ▸ (List.getElem?_eq_some_iff.mp found).1
  refine ⟨built.grown, _, List.prefix_append _ _, built.described h (.inr ⟨id, inside, rfl, found⟩), ?_⟩
  have first := getElem?_longer longer (j := 0) rfl
  show (envs ++ _)[s.nodes.size]? = _
  rw [List.getElem?_append_right (Nat.le_of_eq h.length), h.length, Nat.sub_self, List.getElem?_map, first]
  rfl

theorem Building.addFiles {start s : Scopes} {b : Block} {trails : List Trail}
    (h : Building start none b trails s) (first : trails[0]? = some []) (empty : start.nodes.size = 0)
    (index : Nat) (files : List ParsedFile) (sources : ∀ k f, files[k]? = some f → start.files[index + k]? = some f) :
    Built start none b trails (s.addFiles index files)
      (files.flatMap fun file => declsMentions [] file file.tree.decls) := by
  induction files generalizing s b trails index with
  | nil =>
    rw [Scopes.addFiles, List.flatMap_nil]
    exact ⟨trails, List.prefix_rfl, by rwa [Block.add_nil]⟩
  | cons file files ih =>
    rw [Scopes.addFiles, List.flatMap_cons]
    have added := h.addDecls first (sources 0 file rfl) file.tree.decls
    rw [empty] at added
    refine added.append fun trails' longer h => ?_
    refine ih h (getElem?_longer longer first) (index + 1) fun k f found => ?_
    rw [Nat.add_right_comm, Nat.add_assoc]
    exact sources (k + 1) f found

/-- The table of a package is described, its first node being the body of the package. -/
theorem described_ofFiles (files : List ParsedFile) :
    ∃ envs, Described (Scopes.ofFiles files) envs ∧ envs[Scopes.root]? = some (rootEnv files) ∧
      (Scopes.ofFiles files).files = files.toArray := by
  have empty := Building.empty ⟨#[], files.toArray⟩ none ""
  obtain ⟨trails, longer, built⟩ :=
    empty.addFiles rfl rfl 0 files fun k f found => by simpa using found
  have nothing : Described ⟨#[], files.toArray⟩ [] :=
    ⟨rfl, fun _ _ found => (by cases found), fun _ _ found => (by cases found),
      fun _ _ found => (by cases found)⟩
  refine ⟨_, built.described nothing (.inl ⟨rfl, rfl⟩), ?_, built.files⟩
  have first := getElem?_longer longer (j := 0) rfl
  rw [List.nil_append, List.getElem?_map, Scopes.root, first]
  rfl

end StackLattice
