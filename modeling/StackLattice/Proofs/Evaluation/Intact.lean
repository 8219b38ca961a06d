import StackLattice.Proofs.Evaluation.Discipline

/-!
A failing evaluation leaves its state intact. Struct literals are gathered behind the scopes that are there already, and
no call changes a scope, a field that is remembered, which fields are active, or how many tasks are evaluated around it.
-/

namespace StackLattice

open Syntax (Expr Decl Label)

/-- Whether the struct literals of the entries have scopes from a certain one on. -/
def Scope.OpensFrom (first : ScopeId) (scope : Scope) : Prop :=
  ∀ e ∈ scope.entries, ∀ inner ∈ e.inner, first ≤ inner

theorem Scope.OpensFrom.update {first : ScopeId} {scope : Scope} (h : scope.OpensFrom first) (label : String)
    {f : Entry → Entry} (inner : ∀ e, (f e).inner = e.inner) :
    Scope.OpensFrom first { scope with entries := scope.entries.map fun e => if e.label == label then f e else e } := by
  intro e member
  obtain ⟨e, inside, rfl⟩ := List.mem_map.mp member
  split
  · rw [inner]
    exact h e inside
  · exact h e inside

namespace Scopes

variable {start s : Scopes} {id : ScopeId}

theorem node_of_le (outside : s.nodes.size ≤ id) : s.node id = ⟨none, "", [], []⟩ := by
  rw [node, Array.getElem?_eq_none outside]
  rfl

theorem lt_of_mem_entries {e : Entry} (member : e ∈ (s.node id).entries) : id < s.nodes.size := by
  by_contra outside
  rw [node_of_le (Nat.le_of_not_lt outside)] at member
  cases member

theorem lt_of_entryOf? {label : String} {e : Entry} (h : s.entryOf? id label = some e) : id < s.nodes.size :=
  lt_of_mem_entries (List.mem_of_find?_eq_some h)

theorem node_modify_of_ne (s : Scopes) {id other : ScopeId} (apart : other ≠ id) (f : Scope → Scope) :
    (s.modify id f).node other = s.node other := by
  simp only [node, modify, Array.getElem?_modify, if_neg (Ne.symm apart)]

theorem node_modify_self (s : Scopes) (id : ScopeId) (f : Scope → Scope) :
    (s.modify id f).node id = f (s.node id) ∨ (s.modify id f).node id = s.node id := by
  simp only [node, modify, Array.getElem?_modify, if_true]
  cases s.nodes[id]? with
  | none => exact .inr rfl
  | some scope => exact .inl rfl

/-- A table with more scopes behind those of another one; the new scopes open no old ones. -/
structure Appended (start s : Scopes) : Prop where
  files : s.files = start.files
  size : start.nodes.size ≤ s.nodes.size
  old : ∀ id, id < start.nodes.size → s.node id = start.node id
  new : ∀ id, start.nodes.size ≤ id → (s.node id).OpensFrom start.nodes.size

namespace Appended

/-- A new scope may be changed, as long as it opens new ones only. -/
theorem modify (h : Appended start s) (behind : start.nodes.size ≤ id) {f : Scope → Scope}
    (opens : (f (s.node id)).OpensFrom start.nodes.size) : Appended start (s.modify id f) := by
  refine ⟨h.files, ?_, fun other inside => ?_, fun other outside => ?_⟩
  · rw [size_modify]
    exact h.size
  · rw [s.node_modify_of_ne (Nat.ne_of_lt (Nat.lt_of_lt_of_le inside behind)), h.old other inside]
  · by_cases same : other = id
    · subst same
      rcases s.node_modify_self other f with changed | unchanged
      · rw [changed]
        exact opens
      · rw [unchanged]
        exact h.new other outside
    · rw [s.node_modify_of_ne same]
      exact h.new other outside

theorem push (h : Appended start s) (parent : Option ScopeId) (path : String) :
    Appended start (s.push ⟨parent, path, [], []⟩).2 := by
  refine ⟨h.files, ?_, fun other inside => ?_, fun other outside => ?_⟩
  · show start.nodes.size ≤ (s.nodes.push _).size
    rw [Array.size_push]
    exact Nat.le_succ_of_le h.size
  · have := h.size
    rw [node_push, if_neg (by omega), h.old other inside]
  · rw [node_push]
    split
    · exact fun _ impossible => absurd impossible List.not_mem_nil
    · exact h.new other outside

theorem declare (h : Appended start s) (behind : start.nodes.size ≤ id) (label : Label) (optional : Bool)
    (file : Nat) : Appended start (s.declare id label optional file) := by
  rw [Scopes.declare]
  split
  · exact h.modify behind ((h.new id behind).update label.name fun _ => rfl)
  · apply h.modify behind
    intro e member
    rcases List.mem_append.mp member with there | added
    · exact h.new id behind e there
    · rw [List.mem_singleton.mp added]
      exact fun _ impossible => by cases impossible

theorem innerOf (h : Appended start s) (behind : start.nodes.size ≤ id) (label : String) :
    start.nodes.size ≤ (s.innerOf id label).1 ∧ Appended start (s.innerOf id label).2 := by
  rw [Scopes.innerOf]
  cases found : (s.entryOf? id label).bind (·.inner) with
  | some inner =>
    obtain ⟨e, entry, opened⟩ := Option.bind_eq_some_iff.mp found
    exact ⟨h.new id behind e (List.mem_of_find?_eq_some entry) inner opened, h⟩
  | none =>
    refine ⟨h.size, (h.push (some id) _).modify behind fun e member inner opened => ?_⟩
    obtain ⟨e, inside, rfl⟩ := List.mem_map.mp member
    split at opened
    · cases opened
      exact h.size
    · exact (h.push (some id) _).new id behind e inside inner opened

mutual

theorem addDecls {s : Scopes} {id : ScopeId} (h : Appended start s) (behind : start.nodes.size ≤ id) (file : Nat) (decls : List Decl) :
    Appended start (s.addDecls id file decls) := by
  match decls with
  | [] =>
    rw [Scopes.addDecls]
    exact h
  | decl :: decls =>
    rw [Scopes.addDecls]
    exact (h.addDecl behind file decl).addDecls behind file decls

theorem addDecl {s : Scopes} {id : ScopeId} (h : Appended start s) (behind : start.nodes.size ≤ id) (file : Nat) (decl : Decl) :
    Appended start (s.addDecl id file decl) := by
  match decl with
  | .field label optional _ _ value =>
    rw [Scopes.addDecl]
    exact (h.declare behind label optional file).addValue behind label.name file value
  | .embed value =>
    rw [Scopes.addDecl]
    exact h.addEmbed behind file value

theorem addValue {s : Scopes} {id : ScopeId} (h : Appended start s) (behind : start.nodes.size ≤ id) (label : String)
    (file : Nat) (value : Expr) : Appended start (s.addValue id label file value) := by
  match value with
  | .binary .unify left right =>
    rw [Scopes.addValue]
    exact (h.addValue behind label file left).addValue behind label file right
  | .paren inner _ =>
    rw [Scopes.addValue]
    exact h.addValue behind label file inner
  | .struct decls _ =>
    rw [Scopes.addValue]
    obtain ⟨further, appended⟩ := h.innerOf behind label
    exact appended.addDecls further file decls
  | .null _ | .bool _ _ | .int _ _ | .float _ _ | .string _ _ | .ident _ | .select _ _ | .list _ _ | .unary _ _ _
  | .binary .disjoin _ _ =>
    rw [Scopes.addValue] <;> first
      | exact h.modify behind ((h.new id behind).update label fun _ => rfl)
      | nofun

theorem addEmbed {s : Scopes} {id : ScopeId} (h : Appended start s) (behind : start.nodes.size ≤ id) (file : Nat) (value : Expr) :
    Appended start (s.addEmbed id file value) := by
  match value with
  | .binary .unify left right =>
    rw [Scopes.addEmbed]
    exact (h.addEmbed behind file left).addEmbed behind file right
  | .paren inner _ =>
    rw [Scopes.addEmbed]
    exact h.addEmbed behind file inner
  | .struct decls _ =>
    rw [Scopes.addEmbed]
    exact h.addDecls behind file decls
  | .null _ | .bool _ _ | .int _ _ | .float _ _ | .string _ _ | .ident _ | .select _ _ | .list _ _ | .unary _ _ _
  | .binary .disjoin _ _ =>
    rw [Scopes.addEmbed] <;> first
      | exact h.modify behind (h.new id behind)
      | nofun

end

end Appended

/-- The scopes of a struct literal stand behind all others. -/
theorem appended_addStruct (s : Scopes) (parent : ScopeId) (path : String) (file : Nat) (decls : List Decl) :
    Appended s (s.addStruct parent path file decls).2 := by
  have none : Appended s s := by
    refine ⟨rfl, Nat.le_refl _, fun _ _ => rfl, fun id outside => ?_⟩
    rw [node_of_le outside]
    exact fun _ impossible => absurd impossible List.not_mem_nil
  exact (none.push (some parent) path).addDecls (Nat.le_refl _) file decls

end Scopes

namespace Evaluation

/-- What a call leaves behind: nothing that was there is changed, and nothing is gone. There may be more scopes and more
    remembered fields. -/
structure State.Intact (s t : State) : Prop where
  depth : t.depth = s.depth
  active : t.active = s.active
  entries : s.cache <:+ t.cache
  cache : ∀ key r, s.cache.lookup key = some r → t.cache.lookup key = some r
  files : t.scopes.files = s.scopes.files
  size : s.scopes.nodes.size ≤ t.scopes.nodes.size
  node : ∀ id, id < s.scopes.nodes.size → t.scopes.node id = s.scopes.node id

namespace State.Intact

variable {s t u : State}

theorem refl (s : State) : s.Intact s :=
  ⟨rfl, rfl, List.suffix_rfl, fun _ _ => id, rfl, Nat.le_refl _, fun _ _ => rfl⟩

theorem trans (first : s.Intact t) (second : t.Intact u) : s.Intact u where
  depth := second.depth.trans first.depth
  active := second.active.trans first.active
  entries := first.entries.trans second.entries
  cache key r found := second.cache key r (first.cache key r found)
  files := second.files.trans first.files
  size := Nat.le_trans first.size second.size
  node id inside := (second.node id (Nat.lt_of_lt_of_le inside first.size)).trans (first.node id inside)

theorem of_appended {scopes : Scopes} (h : s.scopes.Appended scopes) : s.Intact { s with scopes } :=
  { refl s with files := h.files, size := h.size, node := h.old }

theorem leave {key : FieldKey} (new : s.cache.lookup key = none)
    (inside : State.Intact { s with active := key :: s.active } t) (r : Except EvalError Value) :
    s.Intact (t.leave key r) := by
  refine { inside with active := ?_, entries := inside.entries.trans (List.suffix_cons _ _), cache := ?_ }
  · show t.active.erase key = s.active
    rw [inside.active, List.erase_cons_head]
  · intro other found there
    have apart : other ≠ key := by
      rintro rfl
      rw [new] at there
      cases there
    show List.lookup other ((key, r) :: t.cache) = some found
    rw [List.lookup_cons, beq_false_of_ne apart]
    exact inside.cache other found there

end State.Intact

def intact : Discipline where
  Holds _ := True
  Leads := State.Intact
  Part _ _ := True
  Whole _ _ := True
  refl := .refl
  trans := .trans
  part_mono _ := id
  whole_mono _ := id
  whole_of_part := id
  leaf _ := trivial
  struct _ := trivial
  list _ := trivial
  disjoin _ _ := trivial
  unify_part _ _ _ := trivial
  unify_whole _ _ _ := trivial
  selected _ _ := trivial
  gather place decls _ := ⟨.of_appended (Scopes.appended_addStruct _ _ _ _ decls), trivial⟩
  cached _ _ := trivial
  enter _ _ := trivial
  leave _ new inside _ _ := ⟨.leave new inside _, trivial, fun _ => id⟩
  descend _ _ := trivial
  ascend _ _ inside _ := ⟨{ inside with depth := by rw [inside.depth]; rfl }, trivial, fun _ => id⟩

/-- An operand in conflict leaves the other operands to be evaluated as they are, but for the conflict that is noted. -/
theorem alternatives_of_conflict {parts : Parts} {place : Place} {operand : Expr} {s t : State} {err : EvalError}
    (failed : parts.task (.expr (Closure.unmarked operand).2 place) s = (.error err, t)) (conflict : err.kind = .conflict)
    (rest : List Expr) :
    alternatives parts place (operand :: rest) s =
      ((alternatives parts place rest t).1.map fun found => (found.1, some err), (alternatives parts place rest t).2) := by
  have attempted : tried (parts.task (.expr (Closure.unmarked operand).2 place)) s = (.ok (.error err), t) := by
    rw [tried, failed]
    dsimp only
    rw [if_pos conflict]
  rw [alternatives_cons, bind_of_ok attempted]
  rcases others : alternatives parts place rest t with ⟨r, u⟩
  cases r with
  | ok found => exact bind_of_ok others
  | error e => exact bind_of_error others

end Evaluation

end StackLattice
