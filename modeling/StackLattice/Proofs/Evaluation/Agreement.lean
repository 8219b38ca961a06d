import StackLattice.Proofs.Evaluation.Plain

/-!
Remembering fields changes no result. What is remembered is what a field comes to with enough fuel, and a
field that is active has no result with less fuel than is spent on it: a field that depends on itself has
none with any.
-/

namespace StackLattice.Evaluation

open Syntax (ParsedFile)

/-- A result is the one for all large amounts of fuel, and for smaller ones there is none or the same. -/
structure Settles {α : Type} (m : Nat → Meaning α) (r : Except EvalError α) : Prop where
  only : ∀ n, m n = none ∨ m n = some r
  eventually : ∃ fuel, ∀ n ≥ fuel, m n = some r

/-- Neither a cycle nor a lack of levels. -/
def Ordinary {α : Type} (r : Except EvalError α) : Prop :=
  ∀ e, r = .error e → e.kind ≠ .cycle ∧ e.kind ≠ .tooDeep

theorem Live.ordinary {α : Type} {r : Except EvalError α} (h : Live r) : Ordinary r := by
  rintro e rfl
  rw [show e.kind = .conflict from h]
  decide

namespace Settles

variable {α β : Type} {m : Nat → Meaning α}

theorem unique {r r' : Except EvalError α} (h : Settles m r) (h' : Settles m r') : r = r' := by
  obtain ⟨fuel, enough⟩ := h.eventually
  rcases h'.only fuel with none | found
  · cases (enough fuel (Nat.le_refl _)).symm.trans none
  · exact Option.some.inj ((enough fuel (Nat.le_refl _)).symm.trans found)

theorem const (r : Except EvalError α) : Settles (fun _ => (some r : Meaning α)) r :=
  ⟨fun _ => .inr rfl, 0, fun _ _ => rfl⟩

theorem bind {a : α} {r : Except EvalError β} {k : Nat → α → Meaning β} (first : Settles m (.ok a))
    (second : Settles (fun n => k n a) r) : Settles (fun n => m n >>= k n) r := by
  refine ⟨fun n => ?_, ?_⟩
  · rcases first.only n with none | found
    · exact .inl (Meaning.bind_of_none none)
    · rw [Meaning.bind_of_ok found]
      exact second.only n
  · obtain ⟨x, enough⟩ := first.eventually
    obtain ⟨y, enough'⟩ := second.eventually
    refine ⟨max x y, fun n large => ?_⟩
    rw [Meaning.bind_of_ok (enough n (by omega))]
    exact enough' n (by omega)

/-- What makes one result of another at each amount of fuel carries over to what settles. -/
theorem map {r : Except EvalError α} {r' : Except EvalError β} {m' : Nat → Meaning β} (first : Settles m r)
    (none : ∀ n, m n = none → m' n = none) (found : ∀ n, m n = some r → m' n = some r') :
    Settles m' r' := by
  refine ⟨fun n => (first.only n).imp (none n) (found n), ?_⟩
  obtain ⟨fuel, enough⟩ := first.eventually
  exact ⟨fuel, fun n large => found n (enough n large)⟩

/-- What takes one unit of fuel and then goes on settles on what it goes on to. -/
theorem step {m' : Nat → Meaning α} {r : Except EvalError α} (first : m' 0 = (none : Option (Except EvalError α)))
    (next : ∀ n, m' (n + 1) = m n) (settles : Settles m r) : Settles m' r := by
  obtain ⟨only, fuel, enough⟩ := settles
  refine ⟨fun n => ?_, fuel + 1, fun n large => ?_⟩
  · cases n with
    | zero => exact .inl first
    | succ n => exact next n ▸ only n
  · obtain ⟨n, rfl⟩ := Nat.exists_eq_succ_of_ne_zero (Nat.ne_zero_of_lt large)
    exact (next n).trans (enough n (Nat.le_of_succ_le_succ large))

end Settles

/-- Agreement for all amounts of fuel: an ordinary result is the one that the closures settle on, after a cycle
    they have none with less fuel than the bound, and where levels run out they have none with as much fuel. -/
structure AgreesBelow (bound levels : Nat) {α : Type} (r : Except EvalError α) (m : Nat → Meaning α) : Prop where
  settles : Ordinary r → Settles m r
  diverges : ∀ e, r = .error e → e.kind = .cycle → ∀ n < bound, m n = none
  exhausted : ∀ e, r = .error e → e.kind = .tooDeep → m levels = none

/-- What is remembered, and what is known of active fields, for some bound. -/
structure Remembers (files : Array ParsedFile) (bound : Nat) (s : State) (envs : List Env) : Prop where
  described : Described s.scopes envs
  sources : s.scopes.files = files
  cached : ∀ entry ∈ s.cache, Live entry.2 ∧ ∃ env, envs[entry.1.1]? = some env ∧
    Settles (fun n => Closure.fieldMeaning n env entry.1.2) entry.2
  active : ∀ key ∈ s.active, ∃ env, envs[key.1]? = some env ∧
    ∀ n < bound, Closure.fieldMeaning n env key.2 = none

def memoSimulation (files : Array ParsedFile) (known bound levels : Nat) : Simulation where
  files := files
  Holds s envs := Remembers files known s envs ∧ s.depth + levels = evaluationLimit
  Agrees := AgreesBelow bound levels
  described h := h.1.described
  sources h := h.1.sources
  grow h longer described extended := by
    refine ⟨⟨described, extended.files.trans h.1.sources, fun entry member => ?_, fun key member => ?_⟩, h.2⟩
    · obtain ⟨live, env, found, settles⟩ := h.1.cached entry member
      exact ⟨live, env, getElem?_longer longer found, settles⟩
    · obtain ⟨env, found, none⟩ := h.1.active key member
      exact ⟨env, getElem?_longer longer found, none⟩
  ok a := ⟨fun _ => .const _, fun _ impossible => (by cases impossible), fun _ impossible => (by cases impossible)⟩
  error cycle deep := ⟨fun _ => .const _, fun e same is => by
      cases same
      exact absurd is cycle,
    fun e same is => by
      cases same
      exact absurd is deep⟩
  bindOk first second :=
    have settles := first.settles fun _ impossible => by cases impossible
    ⟨fun ordinary => settles.bind (second.settles ordinary), fun e same cycle n below => by
      rcases settles.only n with none | found
      · exact Meaning.bind_of_none none
      · rw [Meaning.bind_of_ok found]
        exact second.diverges e same cycle n below,
    fun e same deep => by
      rcases settles.only levels with none | found
      · exact Meaning.bind_of_none none
      · rw [Meaning.bind_of_ok found]
        exact second.exhausted e same deep⟩
  bindError k first :=
    ⟨fun ordinary => (first.settles fun e same => by
        cases same
        exact ordinary _ rfl).map (fun _ => Meaning.bind_of_none) fun _ => Meaning.bind_of_error,
      fun e same cycle n below => by
        cases same
        exact Meaning.bind_of_none (first.diverges _ rfl cycle n below),
      fun e same deep => by
        cases same
        exact Meaning.bind_of_none (first.exhausted _ rfl deep)⟩
  attempt first live :=
    ⟨fun _ => (first.settles live.ordinary).map (fun _ => Meaning.attempt_of_none)
        fun _ found => Meaning.attempt_of_live found live,
      fun _ impossible => (by cases impossible), fun _ impossible => (by cases impossible)⟩
  attemptDead first dead :=
    ⟨fun ordinary => (first.settles fun e same => by
        cases same
        exact ordinary _ rfl).map (fun _ => Meaning.attempt_of_none)
          fun _ found => Meaning.attempt_of_dead found dead,
      fun e same cycle n below => by
        cases same
        exact Meaning.attempt_of_none (first.diverges _ rfl cycle n below),
      fun e same deep => by
        cases same
        exact Meaning.attempt_of_none (first.exhausted _ rfl deep)⟩

theorem get_run (s : State) : (get : Eval State) s = (.ok s, s) := rfl

theorem set_run (s t : State) : (set s : Eval Unit) t = (.ok (), s) := rfl

theorem liftExcept_run {α : Type} (r : Except EvalError α) (s : State) : (liftExcept r : Eval α) s = (r, s) := by
  cases r <;> rfl

theorem remember_cached {key : FieldKey} {s : State} {r : Except EvalError Value}
    (h : s.cache.lookup key = some r) (compute : Eval Value) : remember key compute s = (r, s) := by
  rw [remember, bind_of_ok (get_run s), h]
  exact liftExcept_run r s

theorem remember_active {key : FieldKey} {s : State} (h : s.cache.lookup key = none)
    (active : s.active.contains key = true) (compute : Eval Value) :
    remember key compute s = (.error ⟨joinPath (s.scopes.node key.1).path key.2, .cycle,
      (s.scopes.entryOf? key.1 key.2).map (·.position)⟩, s) := by
  rw [remember, bind_of_ok (get_run s), h]
  simp only [active, if_true]
  rfl

theorem remember_fresh {key : FieldKey} {compute : Eval Value} {s t : State} {r : Except EvalError Value}
    (h : s.cache.lookup key = none) (active : s.active.contains key = false)
    (result : compute { s with active := key :: s.active } = (r, t)) :
    remember key compute s =
      (r, { t with active := t.active.erase key, cache := (key, r) :: t.cache }) := by
  rw [remember, bind_of_ok (get_run s), h]
  simp only [active]
  rw [if_neg Bool.false_ne_true, bind_of_ok (set_run _ s)]
  have computed : outcome compute { s with active := key :: s.active } = (.ok r, t) := by
    rw [outcome, result]
  rw [bind_of_ok computed]
  exact liftExcept_run r _

section Nest

variable {task : Task} {compute : Eval Value} {s t : State} {r : Except EvalError Value}

theorem nest_deep (h : evaluationLimit ≤ s.depth) (compute : Eval Value) :
    nest task compute s = (.error (task.tooDeep s.scopes), s) := by
  rw [nest, bind_of_ok (get_run s), if_pos h]
  rfl

theorem nest_open (h : s.depth < evaluationLimit)
    (result : compute { s with depth := s.depth + 1 } = (r, t)) :
    nest task compute s = (r, { t with depth := t.depth - 1 }) := by
  rw [nest, bind_of_ok (get_run s), if_neg (Nat.not_le_of_lt h), bind_of_ok (set_run _ s)]
  have computed : outcome compute { s with depth := s.depth + 1 } = (.ok r, t) := by
    rw [outcome, result]
  rw [bind_of_ok computed]
  exact liftExcept_run r _

theorem problem_tooDeep (task : Task) (scopes : Scopes) : (task.tooDeep scopes).problem = .tooDeep := by
  cases task <;> rfl

theorem kind_tooDeep (task : Task) (scopes : Scopes) : (task.tooDeep scopes).kind = .tooDeep := by
  rw [EvalError.kind, problem_tooDeep, Problem.kind]

theorem evaluate_zero (task : Task) (s : State) : evaluate 0 task s = (.error (task.tooDeep s.scopes), s) := by
  rw [evaluate]
  rcases Nat.lt_or_ge s.depth evaluationLimit with shallow | deep
  · have failed : outOfLevels task { s with depth := s.depth + 1 } =
        (.error (task.tooDeep s.scopes), { s with depth := s.depth + 1 }) := rfl
    exact nest_open shallow failed
  · exact nest_deep deep _

/-- A task that has a value has been performed one level down. -/
theorem perform_of_evaluate {levels : Nat} {v : Value} (h : evaluate levels task s = (.ok v, t)) :
    ∃ n u, levels = n + 1 ∧ perform (remembering (evaluate n)) task { s with depth := s.depth + 1 } = (.ok v, u) ∧
      t = { u with depth := u.depth - 1 } := by
  obtain _ | n := levels
  · rw [evaluate_zero] at h
    cases h
  rw [evaluate] at h
  rcases Nat.lt_or_ge s.depth evaluationLimit with shallow | deep
  · rcases result : perform (remembering (evaluate n)) task { s with depth := s.depth + 1 } with ⟨r, u⟩
    rw [nest_open shallow result] at h
    cases h
    exact ⟨n, u, rfl, result, rfl⟩
  · rw [nest_deep deep] at h
    cases h

end Nest

variable {files : Array ParsedFile} {s : State} {envs : List Env} {bound levels : Nat}

theorem Remembers.weaken {less : Nat} (h : Remembers files bound s envs) (smaller : less ≤ bound) :
    Remembers files less s envs :=
  { h with
    active := fun key member =>
      let ⟨env, found, nothing⟩ := h.active key member
      ⟨env, found, fun n below => nothing n (Nat.lt_of_lt_of_le below smaller)⟩ }

theorem Remembers.enter {id : ScopeId} {env : Env} {label : String} (h : Remembers files bound s envs)
    (found : envs[id]? = some env) (nothing : ∀ n < bound, Closure.fieldMeaning n env label = none) :
    Remembers files bound { s with active := (id, label) :: s.active } envs :=
  { h with
    active := fun key member => by
      rcases List.mem_cons.mp member with rfl | earlier
      · exact ⟨env, found, nothing⟩
      · exact h.active key earlier }

theorem Remembers.leave {t : State} {envs' : List Env} {id : ScopeId} {env : Env} {label : String}
    {r : Except EvalError Value} (before : Remembers files bound s envs) (longer : envs <+: envs')
    (after : Remembers files 0 t envs') (active : t.active = (id, label) :: s.active)
    (found : envs[id]? = some env) (live : Live r)
    (settles : Settles (fun n => Closure.fieldMeaning n env label) r) :
    Remembers files bound
      { t with active := t.active.erase (id, label), cache := ((id, label), r) :: t.cache } envs' := by
  refine ⟨after.described, after.sources, fun entry member => ?_, fun key member => ?_⟩
  · rcases List.mem_cons.mp member with rfl | earlier
    · exact ⟨live, env, getElem?_longer longer found, settles⟩
    · exact after.cached entry earlier
  · rw [active, List.erase_cons_head] at member
    obtain ⟨env, found, nothing⟩ := before.active key member
    exact ⟨env, getElem?_longer longer found, nothing⟩

theorem remember_follows {task : Task → Eval Value}
    (follow : ∀ known, TasksFollow (memoSimulation files known (known + 1) levels) task Closure.meaning)
    (h : Remembers files bound s envs) (level : s.depth + levels = evaluationLimit) {id : ScopeId} {env : Env}
    (found : envs[id]? = some env) (label : String) :
    Follows (memoSimulation files bound bound levels) s envs (remember (id, label) (fieldValue task id label))
      fun n => Closure.fieldMeaning n env label := by
  cases remembered : s.cache.lookup (id, label) with
  | some r =>
    have run := remember_cached remembered (fieldValue task id label)
    obtain ⟨l, l', split, _⟩ := List.lookup_eq_some_iff.mp remembered
    obtain ⟨live, env', found', settles⟩ := h.cached ((id, label), r) (split ▸ by simp)
    cases found.symm.trans found'
    constructor <;> rw [run]
    · refine ⟨fun _ => settles, fun e same cycle => ?_, fun e same deep => ?_⟩
      · exact absurd cycle (live.ordinary e same).1
      · exact absurd deep (live.ordinary e same).2
    · exact fun _ => ⟨envs, List.prefix_rfl, h, level⟩
  | none =>
    cases active : s.active.contains (id, label) with
    | true =>
      -- The field depends on itself.
      have run := remember_active remembered active (fieldValue task id label)
      obtain ⟨env', found', nothing⟩ := h.active (id, label) (List.contains_iff_mem.mp active)
      cases found.symm.trans found'
      constructor <;> rw [run]
      · exact ⟨fun ordinary => absurd rfl (ordinary _ rfl).1, fun _ _ _ => nothing, fun _ same deep => by
          cases same
          cases deep⟩
      · exact fun live => by cases live
    | false =>
      have computes (known : Nat) (less : known ≤ bound)
          (nothing : ∀ n < known, Closure.fieldMeaning n env label = none) :=
        (follow known).fieldValue (s := { s with active := (id, label) :: s.active })
          ⟨(h.weaken less).enter found nothing, level⟩ found label
      have first := computes 0 (Nat.zero_le _) fun _ below => absurd below (Nat.not_lt_zero _)
      rcases result : fieldValue task id label { s with active := (id, label) :: s.active } with ⟨r, t⟩
      have run := remember_fresh remembered active result
      obtain ⟨agrees, still, holds⟩ := first
      rw [result] at agrees still holds
      constructor <;> rw [run]
      · refine ⟨agrees.settles, fun e same cycle => ?_, agrees.exhausted⟩
        have nothing : ∀ known ≤ bound, ∀ n < known, Closure.fieldMeaning n env label = none := by
          intro known less
          induction known with
          | zero => exact fun _ below => absurd below (Nat.not_lt_zero _)
          | succ known ih =>
            have less := Nat.le_of_succ_le less
            have agrees := (computes known less (ih less)).agrees
            rw [result] at agrees
            exact agrees.diverges e same cycle
        exact nothing bound (Nat.le_refl _)
      · show t.active.erase (id, label) = s.active
        rw [still, List.erase_cons_head]
      · intro live
        obtain ⟨envs', longer, after, level⟩ := holds live
        exact ⟨envs', longer, h.leave longer after still found live (agrees.settles live.ordinary), level⟩

/-- The parts of a task follow those over closures if the tasks do. -/
theorem remembering_follows
    (follow : ∀ known, TasksFollow (memoSimulation files known (known + 1) levels) (evaluate levels) Closure.meaning)
    (known : Nat) :
    PartsFollow (memoSimulation files known known levels) (remembering (evaluate levels)) Closure.partsAt := by
  refine ⟨fun s envs t t' h is => ?_,
    fun s envs id env label h found => remember_follows follow h.1 h.2 found label⟩
  obtain ⟨agrees, active, holds⟩ := follow known s envs t t' h is
  refine ⟨⟨agrees.settles, fun e same cycle n below => ?_, agrees.exhausted⟩, active, holds⟩
  exact agrees.diverges e same cycle n (Nat.lt_succ_of_lt below)

/-- Evaluation that remembers fields follows evaluation over closures. -/
theorem evaluate_follows (files : Array ParsedFile) (levels : Nat) :
    ∀ known, TasksFollow (memoSimulation files known (known + 1) levels) (evaluate levels) Closure.meaning := by
  induction levels with
  | zero =>
    intro known s envs t t' h is
    have deep := kind_tooDeep t s.scopes
    constructor <;> rw [evaluate_zero]
    · refine ⟨fun ordinary => absurd deep (ordinary _ rfl).2, fun e same cycle => ?_, fun _ _ _ => rfl⟩
      cases same
      rw [deep] at cycle
      cases cycle
    · intro live
      rw [show (t.tooDeep s.scopes).kind = .conflict from live] at deep
      cases deep
  | succ levels ih =>
    intro known s envs t t' h is
    have follow := remembering_follows ih known
    obtain ⟨remembers, level⟩ := h
    -- One level is taken by the task itself, so that the others are left for its parts.
    obtain ⟨agrees, active, holds⟩ := follow.perform { s with depth := s.depth + 1 } envs t t'
      ⟨{ remembers with }, by show s.depth + 1 + levels = _; omega⟩ is
    rcases result : perform (remembering (evaluate levels)) t { s with depth := s.depth + 1 } with ⟨r, u⟩
    rw [result] at agrees active holds
    have run : evaluate (levels + 1) t s = (r, { u with depth := u.depth - 1 }) :=
      nest_open (by omega) result
    constructor <;> rw [run]
    · -- A task with fuel is one step of the rules, and takes one unit of it.
      refine ⟨fun ordinary => (agrees.settles ordinary).step rfl fun _ => rfl, fun e same cycle n below => ?_,
        agrees.exhausted⟩
      · cases n with
        | zero => rfl
        | succ n => exact agrees.diverges e same cycle n (Nat.lt_of_succ_lt_succ below)
    · exact active
    · intro live
      obtain ⟨envs', longer, after, left⟩ := holds live
      have left : u.depth + levels = evaluationLimit := left
      exact ⟨envs', longer, { after with }, by show u.depth - 1 + (levels + 1) = _; omega⟩

/-- What the root of a package comes to over closures is what it is evaluated to, by the rules alone and with
    fields remembered. -/
theorem root_agrees (files : List ParsedFile) :
    (∀ fuel, AgreesAt fuel (plainValue fuel files) fun n => Closure.meaning n (.body (rootEnv files))) ∧
      ∀ bound, AgreesBelow bound evaluationLimit (Package.value files) fun n =>
        Closure.meaning n (.body (rootEnv files)) := by
  obtain ⟨envs, described, root, sources⟩ := described_ofFiles files
  refine ⟨fun fuel => ?_, fun bound => ?_⟩
  · exact (plain_follows files.toArray fuel _ envs _ _ ⟨described, sources⟩ (.body root)).agrees
  · have start : Remembers files.toArray bound { scopes := .ofFiles files } envs :=
      ⟨described, sources, fun _ member => (by cases member), fun _ member => (by cases member)⟩
    have agrees := (evaluate_follows files.toArray evaluationLimit bound _ envs _ _ ⟨start, Nat.zero_add _⟩ (.body root)).agrees
    refine ⟨agrees.settles, fun e same cycle n below => ?_, agrees.exhausted⟩
    exact agrees.diverges e same cycle n (Nat.lt_succ_of_lt below)

/-- A value that closures have within the limit of levels is the value of the package. -/
theorem value_of_meaning {files : List ParsedFile} {v : Value}
    (h : Closure.meaning evaluationLimit (.body (rootEnv files)) = some (.ok v)) : Package.value files = .ok v := by
  have agrees := (root_agrees files).2 (evaluationLimit + 1)
  have ordinary : Ordinary (Package.value files) := by
    intro e failed
    refine ⟨fun cycle => ?_, fun deep => ?_⟩
    · exact Option.some_ne_none _ (h.symm.trans (agrees.diverges e failed cycle _ (Nat.lt_succ_self _)))
    · exact Option.some_ne_none _ (h.symm.trans (agrees.exhausted e failed deep))
  rcases (agrees.settles ordinary).only evaluationLimit with none | found
  · cases h.symm.trans none
  · exact Option.some.inj (found.symm.trans h)

end StackLattice.Evaluation

namespace StackLattice

open Evaluation

/-- The value of a package is the one that the rules come to without remembering any field and without a
    limit of levels. A cycle is found only where the rules run out of any amount of fuel. -/
theorem Package.value_agrees_with_plain (files : List Syntax.ParsedFile) :
    match Package.value files with
    | .ok v => ∃ enough, ∀ fuel ≥ enough, plainValue fuel files = .ok v
    | .error e =>
      if e.kind = .cycle then ∀ fuel, OutOfFuel (plainValue fuel files)
      else if e.kind = .tooDeep then True
      else ∃ enough, ∀ fuel ≥ enough, plainValue fuel files = .error e := by
  obtain ⟨plain, remembered⟩ := root_agrees files
  have ordinary (h : Ordinary (Package.value files)) :
      ∃ enough, ∀ fuel ≥ enough, plainValue fuel files = Package.value files := by
    obtain ⟨enough, settled⟩ := ((remembered 0).settles h).eventually
    refine ⟨enough, fun fuel large => ?_⟩
    rcases plain fuel with found | ⟨nothing, _⟩
    · exact Option.some.inj (found.symm.trans (settled fuel large))
    · cases nothing.symm.trans (settled fuel large)
  generalize result : Package.value files = r at *
  cases r with
  | ok v => exact ordinary fun _ impossible => by cases impossible
  | error e =>
    show if e.kind = .cycle then _ else _
    by_cases cycle : e.kind = .cycle
    · rw [if_pos cycle]
      intro fuel
      rcases plain fuel with found | ⟨_, out⟩
      · have nothing := (remembered (fuel + 1)).diverges e rfl cycle fuel (Nat.lt_succ_self _)
        cases nothing.symm.trans found
      · exact out
    · rw [if_neg cycle]
      by_cases deep : e.kind = .tooDeep
      · rw [if_pos deep]
        trivial
      · rw [if_neg deep]
        exact ordinary fun _ same => by
          cases same
          exact ⟨cycle, deep⟩

end StackLattice
