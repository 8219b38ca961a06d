import StackLattice.Proofs.Evaluation.Lockstep

/-!
Evaluation that remembers fields, side by side over related tables. Both sides remember the same fields and have the
same ones active. On the left, though, some fields may be barred: they are not active but remembered with an error of
their own, and of what comes to that error nothing is claimed.
-/

namespace StackLattice

open Syntax (Expr Decl ParsedFile)

namespace Evaluation

section Keys

variable {R : Links} {key key' k k' : FieldKey}

/-- Keys that stand for each other are equal to others on one side if they are on the other. -/
theorem KeyLinked.beq_eq (unique : ∀ {i i' j j' : Nat}, R i i' → R j j' → (i = j ↔ i' = j')) (h : KeyLinked R key key')
    (h' : KeyLinked R k k') : (key == k) = (key' == k') := by
  rw [Bool.eq_iff_iff, beq_iff_eq, beq_iff_eq, Prod.ext_iff, Prod.ext_iff, h.2, h'.2]
  exact and_congr_left' (unique h.1 h'.1)

theorem KeyLinked.mono {R' : Links} (more : R ≤ R') (h : KeyLinked R key key') : KeyLinked R' key key' :=
  h.imp_left (more _ _)

end Keys

/-- The error that a barred field is remembered with. No evaluation comes to it otherwise. -/
def forbidden : EvalError := ⟨"", .valueTooDeep, none⟩

/-- Look-up where all keys have the same result. -/
theorem lookup_all (keys : List FieldKey) (r : Except EvalError Value) (key : FieldKey) :
    (keys.map (·, r)).lookup key = if key ∈ keys then some r else none := by
  induction keys with
  | nil => rfl
  | cons k keys ih =>
    rw [List.map_cons, List.lookup_cons, ih]
    by_cases same : key = k
    · simp [same]
    · simp [same, beq_false_of_ne same]

/-- States that differ in how their bodies are written, in the numbers of scopes and in places. Some fields are barred
    on the left; those held of them are active on the right throughout. -/
structure StatesLinked (files files' : Array ParsedFile) (barred held : List FieldKey) (R : Links) (s s' : State) :
    Prop where
  scopes : Scopes.Linked R s.scopes s'.scopes
  sources : s.scopes.files = files ∧ s'.scopes.files = files'
  cache : ∃ cache, s.cache = cache ++ barred.map (·, .error forbidden) ∧
    List.Forall₂ (fun c c' => KeyLinked R c.1 c'.1 ∧ ResultsAlike ValuesAlike c.2 c'.2) cache s'.cache
  active : ∃ active', s'.active = active' ++ held ∧ List.Forall₂ (KeyLinked R) s.active active'
  fixed : ∀ key ∈ barred, R key.1 key.1
  subset : held ⊆ barred
  depth : s.depth = s'.depth

/-- Evaluation of the whole, where only what comes to a barred field is left open. -/
def sideBySide (files files' : Array ParsedFile) (barred held : List FieldKey) : Lockstep where
  files := files
  files' := files'
  Holds := StatesLinked files files' barred held
  Excused e := barred ≠ [] ∧ e = forbidden
  Dead _ := False
  linked h := h.scopes
  sources h := h.sources
  literal path h own file same := by
    rw [← h.sources.1, ← h.sources.2] at file
    obtain ⟨R', more, _, grown, grown', scopes, added⟩ := h.scopes.addStruct own file path same
    obtain ⟨cache, eq, cached⟩ := h.cache
    obtain ⟨active', eq', active⟩ := h.active
    exact ⟨R', more, ⟨scopes, ⟨grown.files.trans h.sources.1, grown'.files.trans h.sources.2⟩,
      ⟨cache, eq, cached.imp fun _ _ c => c.imp_left (.mono more)⟩, ⟨active', eq', active.imp fun _ _ => .mono more⟩,
      fun key member => more _ _ (h.fixed key member), h.subset, h.depth⟩, added⟩
  excused := by
    rintro _ ⟨_, rfl⟩
    decide
  dead := False.elim

namespace StatesLinked

variable {files files' : Array ParsedFile} {barred held : List FieldKey} {R : Links} {s s' : State} {key key' : FieldKey}
  (h : StatesLinked files files' barred held R s s') (linked : KeyLinked R key key')

include h linked

/-- Both sides remember a field alike, unless it is barred. -/
theorem lookup : Option.Rel (ResultsAlike ValuesAlike) (s.cache.lookup key) (s'.cache.lookup key') ∧
    (s.cache.lookup key = none → key ∉ barred) ∨ key ∈ barred ∧ s.cache.lookup key = some (.error forbidden) := by
  obtain ⟨cache, eq, cached⟩ := h.cache
  rw [eq]
  clear eq
  generalize s'.cache = cache' at cached
  induction cached with
  | nil =>
    rw [List.nil_append, lookup_all]
    split
    · rename_i bars
      exact .inr ⟨bars, rfl⟩
    · rename_i free
      exact .inl ⟨.none, fun _ => free⟩
  | @cons c c' _ _ first _ ih =>
    rw [List.cons_append, List.lookup_cons, List.lookup_cons, linked.beq_eq h.scopes.unique first.1]
    cases key' == c'.1 with
    | true => exact .inl ⟨.some first.2, fun none => by cases none⟩
    | false => exact ih

/-- A field that may be asked for is not held. -/
theorem not_mem_held (free : key ∉ barred) : key' ∉ held := by
  intro member
  have bars := h.subset member
  have same : key.1 = key'.1 := (h.scopes.unique linked.1 (h.fixed key' bars)).mpr rfl
  rw [Prod.ext same linked.2] at free
  exact free bars

theorem contains (free : key ∉ barred) : s.active.contains key = s'.active.contains key' := by
  obtain ⟨active', eq, active⟩ := h.active
  rw [eq, List.contains_append, List.contains_eq_mem key' held, decide_eq_false (h.not_mem_held linked free), Bool.or_false]
  clear eq
  generalize s.active = active at active
  induction active with
  | nil => rfl
  | cons first _ ih => rw [List.contains_cons, List.contains_cons, linked.beq_eq h.scopes.unique first, ih]

theorem erase (free : key ∉ barred) :
    ∃ active', s'.active.erase key' = active' ++ held ∧ List.Forall₂ (KeyLinked R) (s.active.erase key) active' := by
  obtain ⟨active', eq, active⟩ := h.active
  refine ⟨active'.erase key', ?_, ?_⟩
  · rw [eq, List.erase_append]
    split
    · rfl
    · rename_i absent
      rw [List.erase_of_not_mem absent, List.erase_of_not_mem (h.not_mem_held linked free)]
  · clear eq
    generalize s.active = active at active
    induction active with
    | nil => exact .nil
    | @cons k k' _ _ first rest ih =>
      rw [List.erase_cons, List.erase_cons, first.beq_eq h.scopes.unique linked]
      split
      · exact rest
      · exact .cons first ih

end StatesLinked

section Memo

variable {files files' : Array ParsedFile} {barred held : List FieldKey} {R : Links}

theorem remember_paired {id id' : Nat} (own : R id id') (label : String) {compute compute' : Eval Value}
    (paired : (sideBySide files files' barred held).Paired R ValuesAlike compute compute') :
    (sideBySide files files' barred held).Paired R ValuesAlike (remember (id, label) compute)
      (remember (id', label) compute') := by
  intro R' s s' more holds
  have linked : KeyLinked R' (id, label) (id', label) := ⟨more _ _ own, rfl⟩
  rcases StatesLinked.lookup holds linked with ⟨remembered, free⟩ | ⟨bars, found⟩
  · cases found : s.cache.lookup (id, label) with
    | some r =>
      rw [found] at remembered
      generalize found' : s'.cache.lookup (id', label) = again at remembered
      cases remembered with
      | some alike =>
        rw [remember_cached found, remember_cached found']
        exact .both le_rfl alike holds
    | none =>
      have free := free found
      rw [found] at remembered
      generalize found' : s'.cache.lookup (id', label) = again at remembered
      cases remembered with
      | none =>
      have same := StatesLinked.contains holds linked free
      cases active : s.active.contains (id, label) with
      | true =>
        rw [remember_active found active, remember_active found' (same.symm.trans active)]
        refine .both le_rfl (.error ⟨?_, rfl⟩) holds
        rw [(holds.scopes.node linked.1).path]
      | false =>
        have entered : StatesLinked files files' barred held R' { s with active := (id, label) :: s.active }
            { s' with active := (id', label) :: s'.active } := by
          obtain ⟨active', eq, active⟩ := holds.active
          exact { holds with active := ⟨(id', label) :: active', congrArg _ eq, .cons linked active⟩ }
        rcases result : compute { s with active := (id, label) :: s.active } with ⟨r, t⟩
        rcases result' : compute' { s' with active := (id', label) :: s'.active } with ⟨r', t'⟩
        have computed := paired more entered
        rw [result, result'] at computed
        rw [remember_fresh found active result, remember_fresh found' (same.symm.trans active) result']
        cases computed with
        | both grown alike left =>
          have linked := linked.mono grown
          obtain ⟨cache, eq, cached⟩ := left.cache
          exact .both grown alike
            { left with
              cache := ⟨((id, label), r) :: cache, congrArg _ eq, .cons ⟨linked, alike⟩ cached⟩
              active := StatesLinked.erase left linked free }
        | excused h => exact .excused h
        | dead h => exact h.elim
  · rw [remember_cached found]
    exact .excused ⟨List.ne_nil_of_mem bars, rfl⟩

theorem tooDeep_alike {s s' : State} (h : StatesLinked files files' barred held R s s') {t t' : Task}
    (linked : (sideBySide files files' barred held).TaskLinked R t t') :
    FailsAlike (t.tooDeep s.scopes) (t'.tooDeep s'.scopes) := by
  cases linked with
  | body own => exact ⟨(h.scopes.node own).path, rfl⟩
  | expr _ at_ => exact ⟨at_.path, rfl⟩

theorem nest_paired {t t' : Task} (linked : (sideBySide files files' barred held).TaskLinked R t t')
    {compute compute' : Eval Value} (paired : (sideBySide files files' barred held).Paired R ValuesAlike compute compute') :
    (sideBySide files files' barred held).Paired R ValuesAlike (nest t compute) (nest t' compute') := by
  intro R' s s' more holds
  rcases Nat.lt_or_ge s.depth evaluationLimit with shallow | deep
  · have inside : StatesLinked files files' barred held R' { s with depth := s.depth + 1 }
        { s' with depth := s'.depth + 1 } := { holds with depth := congrArg (· + 1) holds.depth }
    rcases result : compute { s with depth := s.depth + 1 } with ⟨r, u⟩
    rcases result' : compute' { s' with depth := s'.depth + 1 } with ⟨r', u'⟩
    have computed := paired more inside
    rw [result, result'] at computed
    rw [nest_open shallow result, nest_open (holds.depth ▸ shallow) result']
    cases computed with
    | both grown alike left => exact .both grown alike { left with depth := congrArg (· - 1) left.depth }
    | excused h => exact .excused h
    | dead h => exact h.elim
  · rw [nest_deep deep, nest_deep (holds.depth ▸ deep)]
    exact .both le_rfl (.error (tooDeep_alike holds (linked.mono more))) holds

/-- Evaluation to any depth comes to the same on both sides. -/
theorem evaluate_paired (levels : Nat) :
    (sideBySide files files' barred held).TasksPaired (evaluate levels) (evaluate levels) := by
  induction levels with
  | zero =>
    intro R t t' linked R' s s' more holds
    rw [evaluate_zero, evaluate_zero]
    exact .both le_rfl (.error (tooDeep_alike holds (linked.mono more))) holds
  | succ levels ih =>
    have parts : (sideBySide files files' barred held).PartsPaired (remembering (evaluate levels))
        (remembering (evaluate levels)) :=
      ⟨ih, fun _ _ _ own label => remember_paired own label (ih.fieldValue own label)⟩
    exact fun _ _ _ linked => nest_paired linked (parts.perform linked)

end Memo

end Evaluation

end StackLattice
