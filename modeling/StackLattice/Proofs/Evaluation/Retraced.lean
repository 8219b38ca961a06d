import StackLattice.Proofs.Evaluation.Certified
import StackLattice.Proofs.Evaluation.SideBySide

/-!
An evaluation retraced from another state. On the right the evaluation goes on from the base and remembers fields as it
does; on the left the same task starts from any state over the scopes of the base. Each time the left asks for a field,
the right has it or evaluates it too, so that the left never asks for one that is active in the base.
-/

namespace StackLattice.Evaluation

open Syntax (Expr Decl ParsedFile)

theorem Known.alike {world envs : List Env} {key : FieldKey} {r r' : Except EvalError Value} (h : Known world key r)
    (longer : world <+: envs) {env : Env} (found : envs[key.1]? = some env)
    (settles : Settles (fun n => Closure.fieldMeaning n env key.2) r') : ResultsAlike ValuesAlike r r' := by
  obtain ⟨env', x, found', _, settles', alike⟩ := h
  cases (getElem?_longer longer found').symm.trans found
  exact settles'.unique settles ▸ alike

section Retraces

variable (files : Array ParsedFile) (base start : State) (world : List Env) (levels : Nat)

/-- The left state is ready, and has gone on from its start; the right one certifies. Scopes of the base stand for
    themselves, and all others that are related have been added on both sides, with the same fields remembered. -/
structure Retraces (R : Links) (s s' : State) : Prop where
  scopes : Scopes.Linked R s.scopes s'.scopes
  sources : s.scopes.files = files ∧ s'.scopes.files = files
  links {i i' : Nat} : R i i' → i = i' ∧ i < base.scopes.nodes.size ∨
    start.scopes.nodes.size ≤ i ∧ base.scopes.nodes.size ≤ i'
  behind : base.scopes.nodes.size ≤ start.scopes.nodes.size
  later : start.scopes.nodes.size ≤ s.scopes.nodes.size
  ready : Ready base world s
  untouched : Untouched base start s
  certifies : ∃ envs, (certifying files base world levels).Holds s' envs
  alike {key key' : FieldKey} : KeyLinked R key key' → base.scopes.nodes.size ≤ key.1 →
    Option.Rel (ResultsAlike ValuesAlike) (s.cache.lookup key) (s'.cache.lookup key')

def retracing : Lockstep where
  files := files
  files' := files
  Holds := Retraces files base start world levels
  Excused := GivesUp
  Dead e := e.kind ≠ .conflict
  linked h := h.scopes
  sources h := h.sources
  literal {R s s' id id' file file' decls decls'} path h own linked same := by
    obtain ⟨f, f', source, source', imports⟩ := linked
    rw [← h.sources.1] at source
    rw [← h.sources.2] at source'
    obtain ⟨R', more, fewer, grown, grown', scopes, added⟩ :=
      h.scopes.addStruct own ⟨f, f', source, source', imports⟩ path same
    obtain ⟨envs, holds⟩ := h.certifies
    have remembers := holds.1.1
    have inside := (h.scopes.inside own).2
    rw [← remembers.described.length] at inside
    obtain ⟨_, envs', longer, described, _⟩ :=
      remembers.described.addStruct (List.getElem?_eq_getElem inside) source' path decls'
    refine ⟨R', more, ⟨scopes, ⟨grown.files.trans h.sources.1, grown'.files.trans h.sources.2⟩, fun {i i'} own => ?_,
      h.behind, Nat.le_trans h.later grown.size, ?_, h.untouched,
      ⟨envs', (certifying files base world levels).grow holds longer described grown'⟩, fun {key key'} linked new => ?_⟩,
      added⟩
    · rcases fewer i i' own with old | new
      · exact h.links old
      · exact .inr ⟨Nat.le_trans h.later new.1, Nat.le_trans holds.2.2.grown.size new.2⟩
    · exact { h.ready with
        grown := h.ready.grown.trans grown
        bounded := fun key r there => Nat.lt_of_lt_of_le (h.ready.bounded key r there) grown.size }
    · rcases fewer _ _ linked.1 with old | added
      · exact h.alike ⟨old, linked.2⟩ new
      · -- Nothing is remembered yet of the new scopes.
        have missing : s.cache.lookup key = none :=
          Option.eq_none_iff_forall_ne_some.mpr fun r there => absurd (h.ready.bounded key r there) (Nat.not_lt_of_le added.1)
        have missing' : s'.cache.lookup key' = none :=
          Option.eq_none_iff_forall_ne_some.mpr fun r there => absurd (remembers.bounded there) (Nat.not_lt_of_le added.2)
        show Option.Rel _ (s.cache.lookup key) (s'.cache.lookup key')
        rw [missing, missing']
        exact .none
  excused := by
    rintro e (cycle | deep)
    · rw [EvalError.kind, cycle]
      decide
    · rw [EvalError.kind, deep]
      decide
  dead := id

end Retraces

variable {files : Array ParsedFile} {base start : State} {world : List Env} {levels : Nat} {R : Links} {s s' t t' : State}
  {id id' : Nat} {label : String} {r r' : Except EvalError Value}

section Steps

variable (h : Retraces files base start world levels R s s') (own : R id id')

include h own

/-- A scope that is not of the base has been added on both sides. -/
theorem Retraces.new (added : ¬ (id = id' ∧ id < base.scopes.nodes.size)) :
    start.scopes.nodes.size ≤ id ∧ base.scopes.nodes.size ≤ id ∧ base.scopes.nodes.size ≤ id' :=
  have new := (h.links own).resolve_left added
  ⟨new.1, Nat.le_trans h.behind new.1, new.2⟩

theorem Retraces.both_remembered (there : s.cache.lookup (id, label) = some r)
    (there' : s'.cache.lookup (id', label) = some r') : ResultsAlike ValuesAlike r r' := by
  by_cases shared : id = id' ∧ id < base.scopes.nodes.size
  · obtain ⟨rfl, old⟩ := shared
    obtain ⟨envs, ⟨remembers, _⟩, longer, certifies⟩ := h.certifies
    have free : (id, label) ∉ base.active := fun member => by
      cases there'.symm.trans (certifies.absent _ (certifies.held member))
    obtain ⟨_, env, found, settles⟩ := remembers.settled there'
    exact (h.ready.known _ r old free there).alike longer found settles
  · have alike := h.alike (⟨own, rfl⟩ : KeyLinked R (id, label) (id', label)) (h.new own shared).2.1
    rw [there, there'] at alike
    cases alike with
    | some alike => exact alike

end Steps

theorem error_of_not_live (h : ¬ Live r) : ∃ e, r = .error e ∧ e.kind ≠ .conflict := by
  cases r with
  | ok _ => exact absurd trivial h
  | error e => exact ⟨e, rfl, h⟩

theorem ne_of_added {key : FieldKey} {size : Nat} (new : size ≤ key.1) (old : id < size) : key ≠ (id, label) := by
  rintro rfl
  exact absurd old (Nat.not_lt_of_le new)

theorem State.Intact.extends (h : s.Intact t) : s.scopes.Extends t.scopes := ⟨h.files, h.size, h.node⟩

/-- What comes of a field that is remembered anew. -/
theorem certifies_leave
    (parts : PartsFollow (certifying files base world levels) (remembering (evaluate levels)) Closure.partsAt)
    {envs : List Env} (h : (certifying files base world levels).Holds s envs) {env : Env} (found : envs[id]? = some env)
    (new : s.cache.lookup (id, label) = none) (inactive : s.active.contains (id, label) = false)
    (result : fieldValue (evaluate levels) id label { s with active := (id, label) :: s.active } = (r, t)) (live : Live r) :
    s.scopes.Extends t.scopes ∧
      ∃ envs', envs <+: envs' ∧ (certifying files base world levels).Holds (t.leave (id, label) r) envs' := by
  have run := remember_fresh new inactive result
  obtain ⟨_, _, after⟩ := parts.field s envs id env label h found
  have kept := ((parts_kept intact levels).field id label s trivial).leads
  rw [show (remembering (evaluate levels)).field id label s = _ from run] at after kept
  have grown : s.scopes.Extends (t.leave (id, label) r).scopes := State.Intact.extends kept
  exact ⟨grown, after live⟩

section Shared

variable (described : Described base.scopes world)

include described

theorem Remembers.known {bound : Nat} {envs : List Env} (h : Remembers files bound s envs) (longer : world <+: envs)
    {key : FieldKey} (old : key.1 < base.scopes.nodes.size) (there : s.cache.lookup key = some r')
    (alike : ResultsAlike ValuesAlike r r') : Known world key r := by
  obtain ⟨live, env, found, settles⟩ := h.settled there
  rw [← described.length] at old
  have same := getElem?_longer longer (List.getElem?_eq_getElem old)
  cases same.symm.trans found
  exact ⟨_, r', List.getElem?_eq_getElem old, live, settles, alike⟩

theorem ready_of_certifies {envs : List Env} (h : (certifying files base world levels).Holds s envs) :
    Ready base world s where
  grown := h.2.2.grown
  bounded _ _ := h.1.1.bounded
  kept := h.2.2.kept
  known _ r old _ there := h.1.1.known described h.2.1 old there (.refl r)

variable (h : Retraces files base start world levels R s s')

include h

/-- The right evaluates a field that the left has. -/
theorem Retraces.right_alone
    (parts : PartsFollow (certifying files base world levels) (remembering (evaluate levels)) Closure.partsAt)
    (own : R id id) (old : id < base.scopes.nodes.size) (there : s.cache.lookup (id, label) = some r)
    (new : s'.cache.lookup (id, label) = none) (inactive : s'.active.contains (id, label) = false)
    (result : fieldValue (evaluate levels) id label { s' with active := (id, label) :: s'.active } = (r', t'))
    (live : Live r') :
    ResultsAlike ValuesAlike r r' ∧ Retraces files base start world levels R s (t'.leave (id, label) r') := by
  obtain ⟨envs, holds⟩ := h.certifies
  have inside : id < envs.length := holds.1.1.described.length ▸ (h.scopes.inside own).2
  obtain ⟨grown, envs', longer, after⟩ :=
    certifies_leave parts holds (List.getElem?_eq_getElem inside) new inactive result live
  have untouched : Untouched base s' t' := by
    rcases after.2.2.certified (id, label) r' old lookup_leave_self with earlier | certified
    · cases new.symm.trans (holds.2.2.kept _ _ earlier)
    · have ready : Ready base world { s' with active := (id, label) :: s'.active } :=
        { ready_of_certifies described holds with }
      rcases certified levels _ r' t' ready result with ⟨e, rfl, givesUp⟩ | ⟨_, _, untouched⟩
      · rcases givesUp with cycle | deep
        · rw [Live, EvalError.kind, cycle] at live
          cases live
        · rw [Live, EvalError.kind, deep] at live
          cases live
      · exact untouched
  have still : Retraces files base start world levels R s (t'.leave (id, label) r') := { h with
    scopes := h.scopes.extended (.refl _) grown
    sources := ⟨h.sources.1, after.1.1.sources⟩
    certifies := ⟨envs', after⟩
    alike := fun {key key'} linked new => by
      have added := (h.new linked.1 fun shared => absurd shared.2 (Nat.not_lt_of_le new)).2.2
      rw [lookup_leave_of_ne (ne_of_added added old), untouched key' added (h.scopes.inside linked.1).2]
      exact h.alike linked new }
  exact ⟨still.both_remembered own there lookup_leave_self, still⟩

/-- The left evaluates a field that the right has. -/
theorem Retraces.left_alone {n : Nat} (own : R id id) (old : id < base.scopes.nodes.size)
    (new : s.cache.lookup (id, label) = none) (there' : s'.cache.lookup (id, label) = some r')
    (result : fieldValue (evaluate n) id label { s with active := (id, label) :: s.active } = (r, t)) :
    (∃ e, r = .error e ∧ GivesUp e) ∨
      ResultsAlike ValuesAlike r r' ∧ Retraces files base start world levels R (t.leave (id, label) r) s' := by
  obtain ⟨envs, holds⟩ := h.certifies
  have unknown : base.cache.lookup (id, label) = none :=
    Option.eq_none_iff_forall_ne_some.mpr fun x earlier => by cases new.symm.trans (h.ready.kept _ _ earlier)
  rcases holds.2.2.certified (id, label) r' old there' with earlier | certified
  · cases unknown.symm.trans earlier
  have ready : Ready base world { s with active := (id, label) :: s.active } := { h.ready with }
  rcases certified n _ r t ready result with givesUp | ⟨alike, after, untouched⟩
  · exact .inl givesUp
  have kept : State.Intact { s with active := (id, label) :: s.active }
      (fieldValue (evaluate n) id label { s with active := (id, label) :: s.active }).2 :=
    ((evaluate_kept intact n).fieldValue id label trivial).leads
  rw [result] at kept
  have grown : s.scopes.Extends t.scopes := kept.extends
  refine .inr ⟨alike, { h with
    scopes := h.scopes.extended grown (.refl _)
    sources := ⟨grown.files.trans h.sources.1, h.sources.2⟩
    later := Nat.le_trans h.later grown.size
    ready := after.leave unknown (Nat.lt_of_lt_of_le (h.scopes.inside own).1 grown.size) fun _ =>
      holds.1.1.known described holds.2.1 old there' alike
    untouched := fun key new early => ?_
    alike := fun {key key'} linked new => ?_ }⟩
  · rw [lookup_leave_of_ne (ne_of_added new old), untouched key new (Nat.lt_of_lt_of_le early h.later)]
    exact h.untouched key new early
  · rw [lookup_leave_of_ne (ne_of_added new old), untouched key new (h.scopes.inside linked.1).1]
    exact h.alike linked new

/-- Both sides have evaluated a field. -/
theorem Retraces.both_anew {R' : Links}
    (parts : PartsFollow (certifying files base world levels) (remembering (evaluate levels)) Closure.partsAt)
    (own : R id id') (new : s.cache.lookup (id, label) = none) (new' : s'.cache.lookup (id', label) = none)
    (inactive' : s'.active.contains (id', label) = false)
    (result' : fieldValue (evaluate levels) id' label { s' with active := (id', label) :: s'.active } = (r', t'))
    (live : Live r') (more : R ≤ R') (after : Retraces files base start world levels R' t t')
    (alike : ResultsAlike ValuesAlike r r') :
    Retraces files base start world levels R' (t.leave (id, label) r) (t'.leave (id', label) r') := by
  obtain ⟨envs, holds⟩ := h.certifies
  have inside : id' < envs.length := holds.1.1.described.length ▸ (h.scopes.inside own).2
  obtain ⟨_, envs', longer, certifies⟩ :=
    certifies_leave parts holds (List.getElem?_eq_getElem inside) new' inactive' result' live
  have unknown : base.cache.lookup (id, label) = none :=
    Option.eq_none_iff_forall_ne_some.mpr fun x earlier => by cases new.symm.trans (h.ready.kept _ _ earlier)
  have linked : KeyLinked R' (id, label) (id', label) := ⟨more _ _ own, rfl⟩
  refine { after with
    ready := after.ready.leave unknown (after.scopes.inside linked.1).1 fun old => ?_
    untouched := fun key new early => ?_
    certifies := ⟨envs', certifies⟩
    alike := fun {k k'} linked' new => ?_ }
  · by_cases shared : id = id' ∧ id < base.scopes.nodes.size
    · obtain ⟨rfl, _⟩ := shared
      exact certifies.1.1.known described certifies.2.1 old lookup_leave_self alike
    · exact absurd old (Nat.not_lt_of_le (h.new own shared).2.1)
  · have apart : key ≠ (id, label) := by
      rintro rfl
      rcases h.links own with shared | added
      · exact absurd shared.2 (Nat.not_lt_of_le new)
      · exact absurd early (Nat.not_lt_of_le added.1)
    rw [lookup_leave_of_ne apart]
    exact after.untouched key new early
  · have same := linked'.beq_eq after.scopes.unique linked
    by_cases self : k = (id, label)
    · subst self
      rw [beq_self_eq_true] at same
      cases eq_of_beq same.symm
      rw [lookup_leave_self, lookup_leave_self]
      exact .some alike
    · rw [beq_false_of_ne self] at same
      rw [lookup_leave_of_ne self, lookup_leave_of_ne (ne_of_beq_false same.symm)]
      exact after.alike linked' new

omit h in
theorem remember_retraced {n : Nat}
    (parts : PartsFollow (certifying files base world levels) (remembering (evaluate levels)) Closure.partsAt)
    (tasks : (retracing files base start world levels).TasksPaired (evaluate n) (evaluate levels)) (own : R id id')
    (label : String) :
    (retracing files base start world levels).Paired R ValuesAlike ((remembering (evaluate n)).field id label)
      ((remembering (evaluate levels)).field id' label) := by
  intro R' s s' more holds
  have h : Retraces files base start world levels R' s s' := holds
  have own := more _ _ own
  have linked : KeyLinked R' (id, label) (id', label) := ⟨own, rfl⟩
  show (retracing files base start world levels).Outcome ValuesAlike R' (remember (id, label) _ s)
    (remember (id', label) _ s')
  cases active' : s'.active.contains (id', label) with
  | true =>
    have new' : s'.cache.lookup (id', label) = none := by
      obtain ⟨_, _, _, certifies⟩ := h.certifies
      exact certifies.absent _ (by simpa using active')
    rw [remember_active new' active']
    exact .dead (show ErrorKind.cycle ≠ .conflict by decide)
  | false =>
  cases there : s.cache.lookup (id, label) with
  | some r =>
    rw [remember_cached there]
    cases there' : s'.cache.lookup (id', label) with
    | some r' =>
      rw [remember_cached there']
      exact .both le_rfl (h.both_remembered own there there') holds
    | none =>
      obtain ⟨rfl, old⟩ : id = id' ∧ id < base.scopes.nodes.size := by
        by_contra added
        have alike := h.alike linked (h.new own added).2.1
        rw [there, there'] at alike
        cases alike
      rcases result : fieldValue (evaluate levels) id label { s' with active := (id, label) :: s'.active } with ⟨r', t'⟩
      rw [remember_fresh there' active' result]
      by_cases live : Live r'
      · obtain ⟨alike, still⟩ := h.right_alone described parts own old there there' active' result live
        exact .both le_rfl alike still
      · obtain ⟨e, rfl, dead⟩ := error_of_not_live live
        exact .dead dead
  | none =>
    cases active : s.active.contains (id, label) with
    | true =>
      rw [remember_active there active]
      exact .excused (.inl rfl)
    | false =>
    rcases result : fieldValue (evaluate n) id label { s with active := (id, label) :: s.active } with ⟨r, t⟩
    rw [remember_fresh there active result]
    cases there' : s'.cache.lookup (id', label) with
    | some r' =>
      obtain ⟨rfl, old⟩ : id = id' ∧ id < base.scopes.nodes.size := by
        by_contra added
        have alike := h.alike linked (h.new own added).2.1
        rw [there, there'] at alike
        cases alike
      rw [remember_cached there']
      rcases h.left_alone described own old there there' result with ⟨e, rfl, givesUp⟩ | ⟨alike, still⟩
      · exact .excused givesUp
      · exact .both le_rfl alike still
    | none =>
      rcases result' : fieldValue (evaluate levels) id' label { s' with active := (id', label) :: s'.active } with ⟨r', t'⟩
      rw [remember_fresh there' active' result']
      have entered : Retraces files base start world levels R' { s with active := (id, label) :: s.active }
          { s' with active := (id', label) :: s'.active } := by
        obtain ⟨envs, holds⟩ := h.certifies
        have inside : id' < envs.length := holds.1.1.described.length ▸ (h.scopes.inside own).2
        exact { h with
          ready := { h.ready with }
          certifies := ⟨envs, certifying_enter holds (List.getElem?_eq_getElem inside) there'⟩ }
      have computed := tasks.fieldValue own label le_rfl entered
      rw [result, result'] at computed
      cases computed with
      | both grown alike after =>
        by_cases live : Live r'
        · exact .both grown alike (h.both_anew described parts own there there' active' result' live grown after alike)
        · obtain ⟨e, rfl, dead⟩ := error_of_not_live live
          exact .dead dead
      | excused givesUp => exact .excused givesUp
      | dead dead => exact .dead dead

omit h in
/-- What a field comes to is certified if tasks one level down can be retraced from any state. -/
theorem certified_of_paired
    (tasks : ∀ n start, (retracing files base start world levels).TasksPaired (evaluate n) (evaluate levels))
    {envs : List Env} (h : (certifying files base world levels).Holds s envs) (old : id < base.scopes.nodes.size)
    (result : fieldValue (evaluate levels) id label s = (r, t)) (live : Live r) : Certified base world (id, label) r := by
  intro n start x u ready result'
  have begin_ : Retraces files base start world levels (fun i i' => i = i' ∧ i < base.scopes.nodes.size) start s :=
    { scopes := (Scopes.linked_self described).extended ready.grown h.2.2.grown
      sources := ⟨ready.grown.files.trans (h.2.2.grown.files.symm.trans h.1.1.sources), h.1.1.sources⟩
      links := .inl
      behind := ready.grown.size
      later := Nat.le_refl _
      ready
      untouched := fun _ _ _ => rfl
      certifies := ⟨envs, h⟩
      alike := fun linked new => absurd linked.1.2 (Nat.not_lt_of_le new) }
  have computed := (tasks n start).fieldValue ⟨rfl, old⟩ label le_rfl begin_
  rw [result', result] at computed
  cases computed with
  | both _ alike after => exact .inr ⟨alike, after.ready, after.untouched⟩
  | excused givesUp => exact .inl ⟨_, rfl, givesUp⟩
  | dead dead => exact absurd live dead

omit h described in
theorem nest_retraced {n : Nat}
    (parts : (retracing files base start world levels).PartsPaired (remembering (evaluate n)) (remembering (evaluate levels))) :
    (retracing files base start world (levels + 1)).TasksPaired (evaluate (n + 1)) (evaluate (levels + 1)) := by
  intro R task task' linked R' s s' more h
  have linked : (retracing files base start world levels).TaskLinked R task task' := by
    cases linked with
    | body own => exact .body own
    | expr same at_ => exact .expr same { at_ with }
  obtain ⟨envs, holds⟩ := h.certifies
  have level : s'.depth + (levels + 1) = evaluationLimit := holds.1.2
  rcases Nat.lt_or_ge s.depth evaluationLimit with shallow | deep
  · have inside : Retraces files base start world levels R' { s with depth := s.depth + 1 }
        { s' with depth := s'.depth + 1 } := { h with
      ready := { h.ready with }
      certifies := ⟨envs, certifying_at holds (Nat.add_right_comm s'.depth 1 levels)⟩ }
    rcases result : perform (remembering (evaluate n)) task { s with depth := s.depth + 1 } with ⟨r, t⟩
    rcases result' : perform (remembering (evaluate levels)) task' { s' with depth := s'.depth + 1 } with ⟨r', t'⟩
    have performed := parts.perform linked more inside
    rw [result, result'] at performed
    rw [evaluate, evaluate, nest_open shallow result, nest_open (by omega) result']
    cases performed with
    | both grown alike after =>
      obtain ⟨envs, holds⟩ := after.certifies
      have left : t'.depth + levels = evaluationLimit := holds.1.2
      exact .both grown alike { after with
        ready := { after.ready with }
        certifies := ⟨envs, certifying_at holds (by omega)⟩ }
    | excused givesUp => exact .excused givesUp
    | dead dead => exact .dead dead
  · rw [evaluate, nest_deep deep]
    exact .excused (.inr (problem_tooDeep task _))

omit h in
theorem parts_of_tasks
    (h : TasksFollow (certifying files base world levels) (evaluate levels) Closure.meaning ∧
      ∀ n start, (retracing files base start world levels).TasksPaired (evaluate n) (evaluate levels)) :
    PartsFollow (certifying files base world levels) (remembering (evaluate levels)) Closure.partsAt :=
  parts_certify h.1 fun _ _ _ _ _ _ holds old => certified_of_paired described h.2 holds old

omit h in
/-- Evaluation certifies what it remembers, and can be retraced from any state: both by induction on the levels, since
    fields are certified by retracing what they are made of, one level down. -/
theorem certifies_and_retraced (levels : Nat) :
    TasksFollow (certifying files base world levels) (evaluate levels) Closure.meaning ∧
      ∀ n start, (retracing files base start world levels).TasksPaired (evaluate n) (evaluate levels) := by
  induction levels with
  | zero =>
    refine ⟨evaluate_zero_certifies, fun n start R task task' linked R' s s' more h => ?_⟩
    rw [evaluate_zero task']
    exact .dead (show (task'.tooDeep _).kind ≠ .conflict by rw [kind_tooDeep]; decide)
  | succ levels ih =>
    have parts := parts_of_tasks described ih
    refine ⟨evaluate_succ_certifies parts, fun n start => ?_⟩
    cases n with
    | zero =>
      intro R task task' linked R' s s' more h
      rw [evaluate_zero task]
      exact .excused (.inr (problem_tooDeep task _))
    | succ n =>
      exact nest_retraced ⟨ih.2 n start, fun _ _ _ own label =>
        remember_retraced described parts (ih.2 n start) own label⟩

omit h in
theorem certifying_parts (levels : Nat) :
    PartsFollow (certifying files base world levels) (remembering (evaluate levels)) Closure.partsAt :=
  parts_of_tasks described (certifies_and_retraced described levels)

end Shared

end StackLattice.Evaluation
