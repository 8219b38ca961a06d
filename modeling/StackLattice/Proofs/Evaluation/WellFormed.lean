import Mathlib.Logic.Relation
import StackLattice.Proofs.Evaluation.Intact
import StackLattice.Proofs.Value.FieldPath

/-!
Tables of scopes are trees. Every scope but the root is inside an earlier one, what a scope holds belongs to it, and
something is declared for each of its labels. Gathering declarations keeps to this, wherever they are gathered. So a
name is looked up in all scopes around it, the innermost first, and the path of a field tells it from the others.
-/

namespace StackLattice

open Syntax (Expr Decl Label ParsedFile)

/-- Expressions of an entry are looked up in the scope that holds it. The scope of its struct literals is inside that
    one, and its path goes on by the label. -/
structure Entry.Belongs (s : Scopes) (id : ScopeId) (e : Entry) : Prop where
  conjuncts : ∀ c ∈ e.conjuncts, c.scope = id
  inner : ∀ k ∈ e.inner,
    k < s.nodes.size ∧ (s.node k).parent = some id ∧ (s.node k).path = joinPath (s.node id).path e.label

/-- Something is declared for the label. -/
def Entry.Valued (e : Entry) : Prop := e.conjuncts ≠ [] ∨ e.inner ≠ none

structure Scope.Belongs (s : Scopes) (id : ScopeId) (scope : Scope) : Prop where
  labels : (scope.entries.map (·.label)).Nodup
  entries : ∀ e ∈ scope.entries, e.Belongs s id
  embeds : ∀ c ∈ scope.embeds, c.scope = id

namespace Scopes

structure Shaped (s : Scopes) : Prop where
  nonempty : 0 < s.nodes.size
  top : (s.node root).parent = none ∧ (s.node root).path = ""
  parent : ∀ id, 0 < id → id < s.nodes.size → ∃ p < id, (s.node id).parent = some p
  nodes : ∀ id, (s.node id).Belongs s id

structure WellFormed (s : Scopes) : Prop extends Shaped s where
  valued : ∀ id, ∀ e ∈ (s.node id).entries, e.Valued

/-- Whether something is declared for all labels but one that is being declared. -/
def ValuedBut (s : Scopes) (id : ScopeId) (label : String) : Prop :=
  ∀ other, ∀ e ∈ (s.node other).entries, e.Valued ∨ other = id ∧ e.label = label

/-- A table with more in the scopes of another one, and more scopes behind them. -/
structure Enlarges (s t : Scopes) : Prop where
  size : s.nodes.size ≤ t.nodes.size
  parent : ∀ id, id < s.nodes.size → (t.node id).parent = (s.node id).parent
  path : ∀ id, id < s.nodes.size → (t.node id).path = (s.node id).path

theorem Enlarges.refl (s : Scopes) : s.Enlarges s := ⟨Nat.le_refl _, fun _ _ => rfl, fun _ _ => rfl⟩

theorem Enlarges.trans {s t u : Scopes} (first : s.Enlarges t) (second : t.Enlarges u) : s.Enlarges u where
  size := Nat.le_trans first.size second.size
  parent id inside := (second.parent id (Nat.lt_of_lt_of_le inside first.size)).trans (first.parent id inside)
  path id inside := (second.path id (Nat.lt_of_lt_of_le inside first.size)).trans (first.path id inside)

theorem belongs_empty (s : Scopes) (id : ScopeId) (parent : Option ScopeId) (path : String) :
    Scope.Belongs s id ⟨parent, path, [], []⟩ :=
  ⟨List.nodup_nil, fun _ impossible => absurd impossible List.not_mem_nil,
    fun _ impossible => absurd impossible List.not_mem_nil⟩

end Scopes

section Growing

open Scopes

variable {s t : Scopes} {id : ScopeId}

theorem Entry.Belongs.enlarged {e : Entry} (h : e.Belongs s id) (inside : id < s.nodes.size) (more : s.Enlarges t) :
    e.Belongs t id where
  conjuncts := h.conjuncts
  inner k opened := by
    obtain ⟨bound, parent, path⟩ := h.inner k opened
    refine ⟨Nat.lt_of_lt_of_le bound more.size, (more.parent k bound).trans parent, ?_⟩
    rw [more.path k bound, more.path id inside, path]

theorem Scope.Belongs.enlarged {scope : Scope} (h : scope.Belongs s id) (inside : id < s.nodes.size)
    (more : s.Enlarges t) : scope.Belongs t id :=
  { h with entries := fun e member => (h.entries e member).enlarged inside more }

end Growing

namespace Scopes

variable {s : Scopes} {id : ScopeId} {label : String}

section Steps

theorem lt_size_push (s : Scopes) (scope : Scope) : s.nodes.size < (s.push scope).2.nodes.size :=
  Nat.lt_of_lt_of_eq (Nat.lt_succ_self _) (Array.size_push _).symm

theorem enlarges_push (s : Scopes) (scope : Scope) : s.Enlarges (s.push scope).2 := by
  refine ⟨by simp [push], fun id inside => ?_, fun id inside => ?_⟩ <;>
    rw [node_push, if_neg (Nat.ne_of_lt inside)]

theorem enlarges_modify (inside : id < s.nodes.size) {f : Scope → Scope} (parent : ∀ scope, (f scope).parent = scope.parent)
    (path : ∀ scope, (f scope).path = scope.path) : s.Enlarges (s.modify id f) := by
  refine ⟨Nat.le_of_eq (s.size_modify id f).symm, fun other _ => ?_, fun other _ => ?_⟩
  · rw [s.node_modify id other f inside]
    split
    · rw [parent]
    · rfl
  · rw [s.node_modify id other f inside]
    split
    · rw [path]
    · rfl

theorem enlarges_declare (inside : id < s.nodes.size) (label : Label) (optional : Bool) (file : Nat) :
    s.Enlarges (s.declare id label optional file) := by
  rw [Scopes.declare]
  split <;> exact enlarges_modify inside (fun _ => rfl) fun _ => rfl

namespace Shaped

variable (h : s.Shaped)

include h

/-- What a scope holds belongs to it in a larger table as well. -/
theorem enlarged {t : Scopes} (more : s.Enlarges t) (k : ScopeId) : (s.node k).Belongs t k := by
  rcases Nat.lt_or_ge k s.nodes.size with old | outside
  · exact (h.nodes k).enlarged old more
  · rw [node_of_le outside]
    exact belongs_empty _ _ _ _

theorem top_enlarged {t : Scopes} (more : s.Enlarges t) : (t.node root).parent = none ∧ (t.node root).path = "" :=
  ⟨(more.parent root h.nonempty).trans h.top.1, (more.path root h.nonempty).trans h.top.2⟩

theorem push (inside : id < s.nodes.size) (path : String) : (s.push ⟨some id, path, [], []⟩).2.Shaped := by
  have more := s.enlarges_push ⟨some id, path, [], []⟩
  refine ⟨Nat.lt_of_lt_of_le h.nonempty more.size, h.top_enlarged more, fun k later bound => ?_, fun k => ?_⟩
  · rw [node_push]
    split
    · rename_i last
      exact ⟨id, Nat.lt_of_lt_of_eq inside last.symm, rfl⟩
    · have : (s.push ⟨some id, path, [], []⟩).2.nodes.size = s.nodes.size + 1 := Array.size_push _
      exact h.parent k later (by omega)
  · rw [node_push]
    split
    · exact belongs_empty _ _ _ _
    · exact h.enlarged more k

theorem modify (inside : id < s.nodes.size) {f : Scope → Scope} (parent : ∀ scope, (f scope).parent = scope.parent)
    (path : ∀ scope, (f scope).path = scope.path) (belongs : (f (s.node id)).Belongs s id) :
    (s.modify id f).Shaped := by
  have more := enlarges_modify inside parent path
  refine ⟨Nat.lt_of_lt_of_le h.nonempty more.size, h.top_enlarged more, fun k later bound => ?_, fun k => ?_⟩
  · rw [size_modify] at bound
    rw [more.parent k bound]
    exact h.parent k later bound
  · rw [s.node_modify id k f inside]
    split
    · rename_i same
      subst same
      exact belongs.enlarged inside more
    · exact h.enlarged more k

theorem modifyEntry (inside : id < s.nodes.size) {f : Entry → Entry} (same : ∀ e, (f e).label = e.label)
    (belongs : ∀ e ∈ (s.node id).entries, e.label = label → (f e).Belongs s id) : (s.modifyEntry id label f).Shaped := by
  refine h.modify inside (fun _ => rfl) (fun _ => rfl) ⟨?_, fun e member => ?_, (h.nodes id).embeds⟩
  · rw [List.map_map]
    refine (congrArg List.Nodup (List.map_congr_left fun e _ => ?_)).mpr (h.nodes id).labels
    rw [Function.comp_apply]
    split
    · exact same e
    · rfl
  · obtain ⟨e, there, rfl⟩ := List.mem_map.mp member
    split
    · rename_i named
      exact belongs e there (eq_of_beq named)
    · exact (h.nodes id).entries e there

theorem declare (inside : id < s.nodes.size) (label : Label) (optional : Bool) (file : Nat) :
    (s.declare id label optional file).Shaped := by
  rw [Scopes.declare]
  split
  · refine h.modifyEntry inside (fun _ => rfl) fun e there _ => ?_
    exact { (h.nodes id).entries e there with }
  · rename_i absent
    refine h.modify inside (fun _ => rfl) (fun _ => rfl) ⟨?_, fun e member => ?_, (h.nodes id).embeds⟩
    · rw [List.map_append, List.nodup_append]
      refine ⟨(h.nodes id).labels, List.pairwise_singleton _ _, fun other old new only => ?_⟩
      rw [List.mem_singleton.mp only]
      rintro rfl
      obtain ⟨e, there, named⟩ := List.mem_map.mp old
      refine absent ?_
      rw [entryOf?, Scope.entryOf?, List.find?_isSome]
      exact ⟨e, there, beq_iff_eq.mpr named⟩
    · rcases List.mem_append.mp member with old | new
      · exact (h.nodes id).entries e old
      · rw [List.mem_singleton.mp new]
        exact ⟨fun _ impossible => absurd impossible List.not_mem_nil, fun _ impossible => by cases impossible⟩

theorem conjunct (inside : id < s.nodes.size) (label : String) (expr : Expr) (file : Nat) :
    (s.modifyEntry id label fun e => { e with conjuncts := e.conjuncts ++ [⟨expr, id, file⟩] }).Shaped := by
  refine h.modifyEntry inside (fun _ => rfl) fun e there _ => ?_
  have old := (h.nodes id).entries e there
  refine ⟨fun c member => ?_, old.inner⟩
  rcases List.mem_append.mp member with earlier | last
  · exact old.conjuncts c earlier
  · rw [List.mem_singleton.mp last]

theorem embed (inside : id < s.nodes.size) (expr : Expr) (file : Nat) :
    (s.modify id fun scope => { scope with embeds := scope.embeds ++ [⟨expr, id, file⟩] }).Shaped := by
  refine h.modify inside (fun _ => rfl) (fun _ => rfl) ⟨(h.nodes id).labels, (h.nodes id).entries, fun c member => ?_⟩
  rcases List.mem_append.mp member with earlier | last
  · exact (h.nodes id).embeds c earlier
  · rw [List.mem_singleton.mp last]

/-- The scope of the struct literals of a label is inside the one that declares it, whether it was there or is new. -/
theorem innerOf (inside : id < s.nodes.size) (label : String) :
    (s.innerOf id label).2.Shaped ∧ s.Enlarges (s.innerOf id label).2 ∧
      (s.innerOf id label).1 < (s.innerOf id label).2.nodes.size := by
  rw [Scopes.innerOf]
  cases found : (s.entryOf? id label).bind (·.inner) with
  | some k =>
    obtain ⟨e, entry, opened⟩ := Option.bind_eq_some_iff.mp found
    exact ⟨h, .refl s, (((h.nodes id).entries e (List.mem_of_find?_eq_some entry)).inner k opened).1⟩
  | none =>
    have pushed := h.push inside (joinPath (s.node id).path label)
    have more := s.enlarges_push ⟨some id, joinPath (s.node id).path label, [], []⟩
    have within := Nat.lt_of_lt_of_le inside more.size
    have last := s.lt_size_push ⟨some id, joinPath (s.node id).path label, [], []⟩
    refine ⟨pushed.modifyEntry within (fun _ => rfl) fun e there named => ?_,
      more.trans (enlarges_modify within (fun _ => rfl) fun _ => rfl), ?_⟩
    · refine ⟨((pushed.nodes id).entries e there).conjuncts, fun k opened => ?_⟩
      cases opened
      have new : (s.push ⟨some id, joinPath (s.node id).path label, [], []⟩).2.node s.nodes.size =
          ⟨some id, joinPath (s.node id).path label, [], []⟩ := by rw [node_push, if_pos rfl]
      refine ⟨last, congrArg Scope.parent new, ?_⟩
      rw [more.path id inside, named]
      exact congrArg Scope.path new
    · exact Nat.lt_of_lt_of_eq last (size_modify _ _ _).symm

end Shaped

section Values

variable {label : String}

theorem WellFormed.but (h : s.WellFormed) (id : ScopeId) (label : String) : s.ValuedBut id label :=
  fun other e member => .inl (h.valued other e member)

/-- A label that was left out is valued by what is declared for it. -/
theorem ValuedBut.modifyEntry (h : s.ValuedBut id label) (inside : id < s.nodes.size) {f : Entry → Entry}
    (valued : ∀ e, (f e).Valued) : ∀ other, ∀ e ∈ ((s.modifyEntry id label f).node other).entries, e.Valued := by
  intro other e member
  rw [Scopes.modifyEntry, s.node_modify id other _ inside] at member
  split at member
  · obtain ⟨e, there, rfl⟩ := List.mem_map.mp member
    split
    · exact valued e
    · rename_i own apart
      exact (h other e there).resolve_right fun same => apart (beq_iff_eq.mpr same.2)
  · rename_i apart
    exact (h other e member).resolve_right fun same => apart same.1

theorem WellFormed.declare (h : s.WellFormed) (inside : id < s.nodes.size) (label : Label) (optional : Bool)
    (file : Nat) : (s.declare id label optional file).ValuedBut id label.name := by
  intro other e member
  rw [Scopes.declare] at member
  split at member
  · refine .inl ?_
    rw [Scopes.modifyEntry, s.node_modify id other _ inside] at member
    split at member
    · obtain ⟨e, there, rfl⟩ := List.mem_map.mp member
      split
      · exact h.valued other e there
      · exact h.valued other e there
    · exact h.valued other e member
  · rw [s.node_modify id other _ inside] at member
    split at member
    · rcases List.mem_append.mp member with old | new
      · exact .inl (h.valued other e old)
      · rw [List.mem_singleton.mp new]
        exact .inr ⟨‹_›, rfl⟩
    · exact .inl (h.valued other e member)

theorem ValuedBut.push (h : s.ValuedBut id label) (parent : Option ScopeId) (path : String) :
    (s.push ⟨parent, path, [], []⟩).2.ValuedBut id label := by
  intro other e member
  rw [node_push] at member
  split at member
  · cases member
  · exact h other e member

theorem WellFormed.embed (h : s.WellFormed) (inside : id < s.nodes.size) (expr : Expr) (file : Nat) :
    (s.modify id fun scope => { scope with embeds := scope.embeds ++ [⟨expr, id, file⟩] }).WellFormed := by
  refine ⟨h.toShaped.embed inside expr file, fun other e member => ?_⟩
  rw [s.node_modify id other _ inside] at member
  split at member <;> exact h.valued other e member

/-- No label has two entries. -/
theorem Shaped.entry_unique (h : s.Shaped) {e e' : Entry} (member : e ∈ (s.node id).entries)
    (member' : e' ∈ (s.node id).entries) (same : e.label = e'.label) : e = e' :=
  List.inj_on_of_nodup_map (h.nodes id).labels member member' same

theorem Shaped.innerOf_wellFormed (h : s.Shaped) (inside : id < s.nodes.size) (others : s.ValuedBut id label) :
    (s.innerOf id label).2.WellFormed := by
  refine ⟨(h.innerOf inside label).1, ?_⟩
  rw [Scopes.innerOf]
  cases found : (s.entryOf? id label).bind (·.inner) with
  | some k =>
    obtain ⟨e, entry, opened⟩ := Option.bind_eq_some_iff.mp found
    intro other e' member
    rcases others other e' member with valued | ⟨rfl, named⟩
    · exact valued
    · have declared : e.label = label := by simpa using List.find?_some entry
      rw [h.entry_unique member (List.mem_of_find?_eq_some entry) (named.trans declared.symm)]
      exact .inr (opened ▸ Option.some_ne_none k)
  | none =>
    refine (others.push (some id) (joinPath (s.node id).path label)).modifyEntry ?_ fun e => .inr (Option.some_ne_none _)
    exact Nat.lt_of_lt_of_le inside (s.enlarges_push _).size

end Values

end Steps

/-- A table that is well formed and larger than another one, as gathering leaves it. -/
structure Gathers (s t : Scopes) : Prop where
  wellFormed : t.WellFormed
  more : s.Enlarges t

theorem Gathers.trans {s t u : Scopes} (first : Gathers s t) (second : t.WellFormed → Gathers t u) : Gathers s u :=
  ⟨(second first.wellFormed).wellFormed, first.more.trans (second first.wellFormed).more⟩

mutual

theorem WellFormed.addDecls {s : Scopes} {id : ScopeId} (h : s.WellFormed) (inside : id < s.nodes.size) (file : Nat)
    (decls : List Decl) : Gathers s (s.addDecls id file decls) := by
  match decls with
  | [] =>
    rw [Scopes.addDecls]
    exact ⟨h, .refl s⟩
  | decl :: decls =>
    rw [Scopes.addDecls]
    have first := h.addDecl inside file decl
    exact first.trans fun h => h.addDecls (Nat.lt_of_lt_of_le inside first.more.size) file decls

theorem WellFormed.addDecl {s : Scopes} {id : ScopeId} (h : s.WellFormed) (inside : id < s.nodes.size) (file : Nat)
    (decl : Decl) : Gathers s (s.addDecl id file decl) := by
  match decl with
  | .field label optional _ _ value =>
    rw [Scopes.addDecl]
    have more := s.enlarges_declare inside label optional file
    have value := (h.toShaped.declare inside label optional file).addValue (Nat.lt_of_lt_of_le inside more.size)
      (h.declare inside label optional file) file value
    exact ⟨value.wellFormed, more.trans value.more⟩
  | .embed value =>
    rw [Scopes.addDecl]
    exact h.addEmbed inside file value

/-- The value of a label is all that is missing while it is being declared. -/
theorem Shaped.addValue {s : Scopes} {id : ScopeId} {label : String} (h : s.Shaped) (inside : id < s.nodes.size)
    (others : s.ValuedBut id label) (file : Nat) (value : Expr) : Gathers s (s.addValue id label file value) := by
  match value with
  | .binary .unify left right =>
    rw [Scopes.addValue]
    have first := h.addValue inside others file left
    exact first.trans fun h =>
      h.toShaped.addValue (Nat.lt_of_lt_of_le inside first.more.size) (h.but id label) file right
  | .paren inner _ =>
    rw [Scopes.addValue]
    exact h.addValue inside others file inner
  | .struct decls _ =>
    rw [Scopes.addValue]
    obtain ⟨_, more, within⟩ := h.innerOf inside label
    have decls := (h.innerOf_wellFormed inside others).addDecls within file decls
    exact ⟨decls.wellFormed, more.trans decls.more⟩
  | .null _ | .bool _ _ | .int _ _ | .float _ _ | .string _ _ | .ident _ | .select _ _ | .list _ _ | .unary _ _ _
  | .binary .disjoin _ _ =>
    rw [Scopes.addValue] <;> first
      | exact ⟨⟨h.conjunct inside label _ file, others.modifyEntry inside fun e => .inl (by simp)⟩,
          enlarges_modify inside (fun _ => rfl) fun _ => rfl⟩
      | nofun

theorem WellFormed.addEmbed {s : Scopes} {id : ScopeId} (h : s.WellFormed) (inside : id < s.nodes.size) (file : Nat)
    (value : Expr) : Gathers s (s.addEmbed id file value) := by
  match value with
  | .binary .unify left right =>
    rw [Scopes.addEmbed]
    have first := h.addEmbed inside file left
    exact first.trans fun h => h.addEmbed (Nat.lt_of_lt_of_le inside first.more.size) file right
  | .paren inner _ =>
    rw [Scopes.addEmbed]
    exact h.addEmbed inside file inner
  | .struct decls _ =>
    rw [Scopes.addEmbed]
    exact h.addDecls inside file decls
  | .null _ | .bool _ _ | .int _ _ | .float _ _ | .string _ _ | .ident _ | .select _ _ | .list _ _ | .unary _ _ _
  | .binary .disjoin _ _ =>
    rw [Scopes.addEmbed] <;> first
      | exact ⟨h.embed inside _ file, enlarges_modify inside (fun _ => rfl) fun _ => rfl⟩
      | nofun

end

theorem WellFormed.addStruct (h : s.WellFormed) (inside : id < s.nodes.size) (path : String) (file : Nat)
    (decls : List Decl) : Gathers s (s.addStruct id path file decls).2 ∧
      (s.addStruct id path file decls).1 < (s.addStruct id path file decls).2.nodes.size := by
  have empty : (s.push ⟨some id, path, [], []⟩).2.WellFormed := by
    refine ⟨h.toShaped.push inside path, fun other e member => ?_⟩
    rw [node_push] at member
    split at member
    · cases member
    · exact h.valued other e member
  have last := s.lt_size_push ⟨some id, path, [], []⟩
  have gathered := empty.addDecls last file decls
  exact ⟨⟨gathered.wellFormed, (s.enlarges_push _).trans gathered.more⟩, Nat.lt_of_lt_of_le last gathered.more.size⟩

theorem WellFormed.addFiles (h : s.WellFormed) (index : Nat) (files : List ParsedFile) :
    (s.addFiles index files).WellFormed := by
  induction files generalizing s index with
  | nil => exact h
  | cons file files ih => exact ih (h.addDecls h.nonempty index file.tree.decls).wellFormed (index + 1)

theorem wellFormed_ofFiles (files : List ParsedFile) : (ofFiles files).WellFormed := by
  let start : Scopes := ⟨#[⟨none, "", [], []⟩], files.toArray⟩
  have empty (id : ScopeId) : start.node id = ⟨none, "", [], []⟩ := by
    cases id with
    | zero => rfl
    | succ id => exact node_of_le (s := start) (Nat.le_add_left 1 id)
  suffices start.WellFormed from this.addFiles 0 files
  refine ⟨⟨Nat.one_pos, ⟨rfl, rfl⟩, fun id later bound => ?_, fun id => ?_⟩, fun id e member => ?_⟩
  · exact absurd bound (Nat.not_lt_of_le later)
  · rw [empty]
    exact belongs_empty _ _ _ _
  · rw [empty] at member
    cases member

/-- The tables that a package comes to: that of its files, and then with the struct literals that are met. -/
inductive Arises (files : List ParsedFile) : Scopes → Prop
  | start : Arises files (ofFiles files)
  | literal {s parent} (before : Arises files s) (inside : parent < s.nodes.size) (path : String) (file : Nat)
    (decls : List Decl) : Arises files (s.addStruct parent path file decls).2

theorem Arises.wellFormed {files : List ParsedFile} (h : Arises files s) : s.WellFormed := by
  induction h with
  | start => exact wellFormed_ofFiles files
  | literal _ inside path file decls ih => exact (ih.addStruct inside path file decls).1.wellFormed

/-- The scope of struct literals is that of one entry of one scope. -/
theorem Shaped.inner_unique (h : s.Shaped) {id' k : ScopeId} {e e' : Entry} (member : e ∈ (s.node id).entries)
    (member' : e' ∈ (s.node id').entries) (opened : e.inner = some k) (opened' : e'.inner = some k) :
    id = id' ∧ e = e' := by
  obtain ⟨_, parent, path⟩ := ((h.nodes id).entries e member).inner k opened
  obtain ⟨_, parent', path'⟩ := ((h.nodes id').entries e' member').inner k opened'
  cases parent.symm.trans parent'
  exact ⟨rfl, h.entry_unique member member' (joinPath_right_injective _ (path.symm.trans path'))⟩

section Looking

abbrev Declares (s : Scopes) (id : ScopeId) (label : String) : Prop := (s.entryOf? id label).isSome = true

/-- A scope is around another one, or that one itself. -/
def Encloses (s : Scopes) (outer inner : ScopeId) : Prop :=
  Relation.ReflTransGen (fun id parent => (s.node id).parent = some parent) inner outer

theorem Shaped.parent_lt (h : s.Shaped) {p : ScopeId} (parent : (s.node id).parent = some p) : p < id := by
  rcases Nat.lt_or_ge id s.nodes.size with inside | outside
  · rcases Nat.eq_zero_or_pos id with rfl | later
    · cases parent.symm.trans h.top.1
    · obtain ⟨q, earlier, same⟩ := h.parent id later inside
      cases parent.symm.trans same
      exact earlier
  · rw [node_of_le outside] at parent
    cases parent

theorem Shaped.le_of_encloses (h : s.Shaped) {outer : ScopeId} (around : s.Encloses outer id) : outer ≤ id := by
  induction around with
  | refl => exact Nat.le_refl _
  | tail _ parent ih => exact Nat.le_trans (Nat.le_of_lt (h.parent_lt parent)) ih

theorem encloses_iff {outer : ScopeId} :
    s.Encloses outer id ↔ outer = id ∨ ∃ p, (s.node id).parent = some p ∧ s.Encloses outer p := by
  rw [Encloses, Relation.ReflTransGen.cases_head_iff]
  exact or_congr_left eq_comm

theorem encloses_of_root (top : (s.node id).parent = none) {outer : ScopeId} (around : s.Encloses outer id) :
    outer = id := by
  rcases encloses_iff.mp around with same | ⟨p, parent, _⟩
  · exact same
  · cases top.symm.trans parent

/-- What a scope does not declare is looked up in the one around it. -/
theorem Shaped.lookup_eq (h : s.Shaped) (id : ScopeId) (label : String) :
    s.lookup id label = if s.Declares id label then some id else (s.node id).parent.bind (s.lookup · label) := by
  rw [lookup]
  split
  · rfl
  · cases parent : (s.node id).parent with
    | none => rfl
    | some p => exact if_pos (h.parent_lt parent)

/-- A name is found in the innermost scope that declares it, of those around it. -/
theorem Shaped.lookup_spec (h : s.Shaped) (id : ScopeId) (label : String) :
    (∀ k, s.lookup id label = some k →
      s.Encloses k id ∧ s.Declares k label ∧ ∀ j, s.Encloses j id → s.Declares j label → s.Encloses j k) ∧
    (s.lookup id label = none → ∀ j, s.Encloses j id → ¬s.Declares j label) := by
  induction id using Nat.strongRecOn with
  | ind id ih =>
    rw [h.lookup_eq]
    split
    · rename_i declared
      refine ⟨fun k found => ?_, fun impossible => by cases impossible⟩
      cases found
      exact ⟨.refl, declared, fun j around _ => around⟩
    · rename_i absent
      cases parent : (s.node id).parent with
      | none =>
        refine ⟨fun k impossible => (by cases impossible), fun _ j around => ?_⟩
        rwa [encloses_of_root parent around]
      | some p =>
        obtain ⟨found, missing⟩ := ih p (h.parent_lt parent)
        have outside {j : ScopeId} (around : s.Encloses j id) (declared : s.Declares j label) : s.Encloses j p := by
          rcases encloses_iff.mp around with rfl | ⟨q, same, around⟩
          · exact absurd declared absent
          · cases parent.symm.trans same
            exact around
        refine ⟨fun k here => ?_, fun none j around declared => missing none j (outside around declared) declared⟩
        obtain ⟨around, declared, innermost⟩ := found k here
        exact ⟨encloses_iff.mpr (.inr ⟨p, parent, around⟩), declared,
          fun j around declared => innermost j (outside around declared) declared⟩

/-- Of two scopes that are around one and declare a name, the innermost ones are one scope. -/
theorem Shaped.lookup_eq_some_iff (h : s.Shaped) {k : ScopeId} : s.lookup id label = some k ↔
    s.Encloses k id ∧ s.Declares k label ∧ ∀ j, s.Encloses j id → s.Declares j label → s.Encloses j k := by
  obtain ⟨some, none⟩ := h.lookup_spec id label
  refine ⟨some k, fun ⟨around, declared, innermost⟩ => ?_⟩
  cases found : s.lookup id label with
  | none => exact absurd declared (none found k around)
  | some k' =>
    obtain ⟨around', declared', innermost'⟩ := some k' found
    exact congrArg _ (Nat.le_antisymm (h.le_of_encloses (innermost k' around' declared'))
      (h.le_of_encloses (innermost' k around declared)))

theorem Shaped.lookup_eq_none_iff (h : s.Shaped) :
    s.lookup id label = none ↔ ∀ j, s.Encloses j id → ¬s.Declares j label := by
  obtain ⟨some, none⟩ := h.lookup_spec id label
  refine ⟨none, fun nowhere => Option.eq_none_iff_forall_ne_some.mpr fun k found => ?_⟩
  obtain ⟨around, declared, -⟩ := some k found
  exact nowhere k around declared

end Looking

section Paths

/-- The body that labels lead to from the root. -/
inductive Leads (s : Scopes) : List String → ScopeId → Prop
  | root : Leads s [] root
  | inner {labels id e k} (outer : Leads s labels id) (member : e ∈ (s.node id).entries) (opened : e.inner = some k) :
    Leads s (labels ++ [e.label]) k

variable {labels : List String}

theorem Leads.path (leads : s.Leads labels id) (h : s.Shaped) : (s.node id).path = labels.foldl joinPath "" := by
  induction leads with
  | root => exact h.top.2
  | @inner labels id e k _ member opened ih =>
    rw [(((h.nodes id).entries e member).inner k opened).2.2, ih, List.foldl_concat]

theorem Leads.unique (leads : s.Leads labels id) (h : s.Shaped) {labels' : List String} {id' : ScopeId}
    (leads' : s.Leads labels' id') (same : labels = labels') : id = id' := by
  induction leads generalizing labels' id' with
  | root =>
    cases leads' with
    | root => rfl
    | inner => exact absurd same (List.append_ne_nil_of_right_ne_nil _ (List.cons_ne_nil _ _)).symm
  | @inner labels id e k _ member opened ih =>
    cases leads' with
    | root => exact absurd same (List.append_ne_nil_of_right_ne_nil _ (List.cons_ne_nil _ _))
    | @inner labels' id' e' k' outer member' opened' =>
      obtain ⟨front, last⟩ := List.append_inj' same rfl
      cases ih outer front
      cases h.entry_unique member member' (List.singleton_inj.mp last)
      exact Option.some.inj (opened.symm.trans opened')

end Paths

end Scopes

end StackLattice
