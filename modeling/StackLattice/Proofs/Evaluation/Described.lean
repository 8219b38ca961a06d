import Mathlib.Data.List.Forall2
import Mathlib.Data.List.Nodup
import StackLattice.Proofs.Evaluation.Closure

/-!
What the nodes of a table of scopes stand for: each is a body in an environment. Adding declarations to a
table adds the mentions of them to the block that is being built.
-/

namespace StackLattice

open Syntax (Expr Decl Label ParsedFile)
open Evaluation

namespace Evaluation

namespace Declared

variable {ds : List Declared} {label name : String} {f : Declared → Declared}

theorem find?_update (keeps : ∀ d, (f d).label = d.label) :
    find? (update ds name f) label =
      (find? ds label).map fun d => if d.label == name then f d else d := by
  rw [find?, update, List.find?_map, find?]
  congr 2
  funext d
  simp only [Function.comp]
  split
  · rw [keeps]
  · rfl

theorem label_of_find? {d : Declared} (h : find? ds label = some d) : d.label = label := by
  rw [find?] at h
  simpa using List.find?_some h

theorem labels_update (keeps : ∀ d, (f d).label = d.label) :
    (update ds name f).map (·.label) = ds.map (·.label) := by
  rw [update, List.map_map]
  refine List.map_congr_left fun d _ => ?_
  simp only [Function.comp]
  split
  · rw [keeps]
  · rfl

theorem update_eq_self (h : ∀ d ∈ ds, d.label = name → f d = d) : update ds name f = ds := by
  refine (List.map_congr_left fun d member => ?_).trans (List.map_id _)
  split
  · rename_i same
    exact h d member (eq_of_beq same)
  · rfl

theorem eq_of_find? {d d' : Declared} (distinct : (ds.map (·.label)).Nodup)
    (found : find? ds label = some d) (member : d' ∈ ds) (same : d'.label = label) : d' = d := by
  have labels := label_of_find? found
  rw [find?] at found
  exact List.inj_on_of_nodup_map distinct member (List.mem_of_find?_eq_some found)
    (same.trans labels.symm)

theorem find?_eq_none : find? ds label = none ↔ label ∉ ds.map (·.label) := by
  simp [find?]

end Declared

/-- A label is declared once among the declarations of a body. -/
theorem Mention.nodup_apply (m : Mention) {ds : List Declared} (h : (ds.map (·.label)).Nodup) :
    ((m.apply ds).map (·.label)).Nodup := by
  have updated (name : String) {f : Declared → Declared} (keeps : ∀ d, (f d).label = d.label) :
      ((Declared.update ds name f).map (·.label)).Nodup := by rwa [Declared.labels_update keeps]
  cases m with
  | label l optional file =>
    rw [apply]
    split
    · exact updated _ fun _ => rfl
    · rename_i absent
      rw [Option.not_isSome_iff_eq_none, Declared.find?_eq_none] at absent
      rw [List.map_append, List.nodup_append]
      refine ⟨h, List.pairwise_singleton _ _, fun other old new only => ?_⟩
      rw [List.mem_singleton.mp only]
      rintro rfl
      exact absent old
  | conjunct name expr file => exact updated _ fun _ => rfl
  | literal name => exact updated _ fun _ => rfl
  | embed expr file => exact h

theorem Mention.find?_apply (m : Mention) {ds : List Declared} {label : String} {d : Declared}
    (h : Declared.find? ds label = some d) :
    ∃ d', Declared.find? (m.apply ds) label = some d' ∧ (d.opened = true → d'.opened = true) := by
  have updated (name : String) {f : Declared → Declared} (keeps : ∀ d, (f d).label = d.label)
      (opened : d.opened = true → (f d).opened = true) :
      ∃ d', Declared.find? (Declared.update ds name f) label = some d' ∧
        (d.opened = true → d'.opened = true) := by
    rw [Declared.find?_update keeps, h]
    refine ⟨_, rfl, fun was => ?_⟩
    show (if _ then _ else _ : Declared).opened = true
    split
    · exact opened was
    · exact was
  cases m with
  | label l optional file =>
    rw [apply]
    split
    · exact updated _ (fun _ => rfl) id
    · refine ⟨d, ?_, id⟩
      rw [Declared.find?, List.find?_append, ← Declared.find?, h]
      rfl
  | conjunct name expr file => exact updated _ (fun _ => rfl) id
  | literal name => exact updated _ (fun _ => rfl) fun _ => rfl
  | embed expr file => exact ⟨d, h, id⟩

namespace Block

def add (b : Block) (more : List (Trail × Mention)) : Block := { b with mentions := b.mentions ++ more }

variable (b : Block) (trail other : Trail) (m : Mention)

@[simp] theorem add_nil : b.add [] = b := by simp [add]

theorem add_append (first last : List (Trail × Mention)) : b.add (first ++ last) = (b.add first).add last := by
  simp [add]

@[simp] theorem pathOf_add (more : List (Trail × Mention)) : (b.add more).pathOf trail = b.pathOf trail := rfl

theorem mentionsAt_add : (b.add [(trail, m)]).mentionsAt trail = b.mentionsAt trail ++ [m] := by
  simp [mentionsAt, add]

theorem mentionsAt_add_of_ne {trail other : Trail} (h : trail ≠ other) :
    (b.add [(trail, m)]).mentionsAt other = b.mentionsAt other := by
  simp [mentionsAt, add, h]

theorem declared_add : (b.add [(trail, m)]).declared trail = m.apply (b.declared trail) := by
  rw [declared, mentionsAt_add, List.foldl_append]
  rfl

theorem embeds_add : (b.add [(trail, m)]).embeds trail = b.embeds trail ++ m.embed?.toList := by
  rw [embeds, mentionsAt_add, List.filterMap_append]
  cases m <;> rfl

theorem nodup_declared : ((b.declared trail).map (·.label)).Nodup := by
  rw [declared]
  refine List.foldlRecOn (motive := fun (ds : List Declared) => (ds.map Declared.label).Nodup) _ _ ?_ ?_
  · exact List.nodup_nil
  · exact fun ds distinct m _ => m.nodup_apply distinct

theorem find?_add {label : String} {d : Declared} (h : Declared.find? (b.declared trail) label = some d) :
    ∃ d', Declared.find? ((b.add [(other, m)]).declared trail) label = some d' ∧
      (d.opened = true → d'.opened = true) := by
  by_cases same : other = trail
  · subst same
    rw [declared_add]
    exact m.find?_apply h
  · rw [declared, mentionsAt_add_of_ne _ _ same]
    exact ⟨d, h, id⟩

theorem find?_add_all {label : String} {d : Declared} (more : List (Trail × Mention))
    (h : Declared.find? (b.declared trail) label = some d) :
    ∃ d', Declared.find? ((b.add more).declared trail) label = some d' := by
  induction more generalizing b d with
  | nil => exact ⟨d, by rwa [add_nil]⟩
  | cons first more ih =>
    obtain ⟨d', found, _⟩ := b.find?_add trail first.1 first.2 h
    rw [show first :: more = [first] ++ more from rfl, add_append]
    exact ih _ found

theorem find?_add_label (l : Label) (optional : Bool) (file : ParsedFile) :
    ∃ d, Declared.find? ((b.add [(trail, .label l optional file)]).declared trail) l.name = some d := by
  rw [declared_add, Mention.apply]
  cases present : Declared.find? (b.declared trail) l.name with
  | some d =>
    rw [Option.isSome_some, if_pos rfl, Declared.find?_update, present]
    · exact ⟨_, rfl⟩
    · exact fun _ => rfl
  | none =>
    rw [Declared.find?] at present
    refine Option.isSome_iff_exists.mp ?_
    simp [Declared.find?, present]

end Block

theorem Env.nodup_declared (env : Env) : (env.declared.map (·.label)).Nodup := by
  cases env with
  | nil => exact List.nodup_nil
  | cons s _ => exact s.block.nodup_declared s.trail

end Evaluation

/-- A conjunct of the table stands for an expression in the body of its node. -/
structure ConjunctIs (files : Array ParsedFile) (id : ScopeId) (c : Conjunct) (w : Written) : Prop where
  expr : c.expr = w.expr
  scope : c.scope = id
  file : files[c.file]? = some w.file

/-- An entry of the table stands for what is declared for a label; `inner` tells which node is the body
    of a label. -/
structure EntryIs (files : Array ParsedFile) (id : ScopeId) (inner : String → ScopeId → Prop) (e : Entry)
    (d : Declared) : Prop where
  label : e.label = d.label
  kind : e.kind = d.kind
  optional : e.optional = d.optional
  position : e.position = d.position
  conjuncts : List.Forall₂ (ConjunctIs files id) e.conjuncts d.conjuncts
  opened : d.opened = true → ∃ k, e.inner = some k ∧ inner d.label k
  closed : d.opened = false → e.inner = none

structure BodyIs (files : Array ParsedFile) (id : ScopeId) (inner : String → ScopeId → Prop) (scope : Scope)
    (declared : List Declared) (embeds : List Written) : Prop where
  entries : List.Forall₂ (EntryIs files id inner) scope.entries declared
  embeds : List.Forall₂ (ConjunctIs files id) scope.embeds embeds

/-- Which environment each node of a table stands for. -/
structure Described (s : Scopes) (envs : List Env) : Prop where
  length : envs.length = s.nodes.size
  path : ∀ id env, envs[id]? = some env → (s.node id).path = env.path
  parent : ∀ id env, envs[id]? = some env → ((s.node id).parent = none ∧ env.outer = []) ∨
    ∃ p < id, (s.node id).parent = some p ∧ envs[p]? = some env.outer
  body : ∀ id env, envs[id]? = some env →
    BodyIs s.files id (fun label k => envs[k]? = some (env.inner label)) (s.node id) env.declared env.embeds

theorem EntryIs.mono {files : Array ParsedFile} {id : ScopeId} {inner inner' : String → ScopeId → Prop}
    (h : ∀ label k, inner label k → inner' label k) {e : Entry} {d : Declared}
    (is : EntryIs files id inner e d) : EntryIs files id inner' e d :=
  { is with
    opened := fun opened =>
      let ⟨k, eq, leads⟩ := is.opened opened
      ⟨k, eq, h _ _ leads⟩ }

theorem BodyIs.mono {files : Array ParsedFile} {id : ScopeId} {inner inner' : String → ScopeId → Prop}
    (h : ∀ label k, inner label k → inner' label k) {scope : Scope} {declared : List Declared}
    {embeds : List Written} (is : BodyIs files id inner scope declared embeds) :
    BodyIs files id inner' scope declared embeds :=
  ⟨is.entries.imp fun _ _ => EntryIs.mono h, is.embeds⟩

theorem BodyIs.find {files : Array ParsedFile} {id : ScopeId} {inner : String → ScopeId → Prop}
    {scope : Scope} {declared : List Declared} {embeds : List Written}
    (is : BodyIs files id inner scope declared embeds) (label : String) :
    Option.Rel (EntryIs files id inner) (scope.entryOf? label) (Declared.find? declared label) := by
  obtain ⟨entries, -⟩ := is
  rw [Scope.entryOf?, Declared.find?]
  generalize scope.entries = es at entries
  induction entries with
  | nil => exact .none
  | @cons e d es ds first _ ih =>
    rw [List.find?_cons, List.find?_cons, first.label]
    cases d.label == label with
    | true => exact .some first
    | false => exact ih

theorem BodyIs.find_some {files : Array ParsedFile} {id : ScopeId} {inner : String → ScopeId → Prop}
    {scope : Scope} {declared : List Declared} {embeds : List Written}
    (is : BodyIs files id inner scope declared embeds) {label : String} {d : Declared}
    (found : Declared.find? declared label = some d) :
    ∃ e, scope.entryOf? label = some e ∧ EntryIs files id inner e d := by
  have both := is.find label
  rw [found] at both
  generalize scope.entryOf? label = e at both
  cases both with
  | some entry => exact ⟨_, rfl, entry⟩

theorem BodyIs.find_none {files : Array ParsedFile} {id : ScopeId} {inner : String → ScopeId → Prop}
    {scope : Scope} {declared : List Declared} {embeds : List Written}
    (is : BodyIs files id inner scope declared embeds) {label : String}
    (absent : Declared.find? declared label = none) : scope.entryOf? label = none := by
  have both := is.find label
  rw [absent] at both
  generalize scope.entryOf? label = e at both
  cases both
  rfl

end StackLattice
