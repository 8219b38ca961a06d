import StackLattice.Proofs.Run.Accounting

/-!
The order in which tasks take their turns does not show in the report: it is the one of going through the
instances one after another.
-/

namespace StackLattice

namespace Schedule

variable (s : Schedule)

/-- The tasks of a schedule, each of which has the calls of its own instance. -/
def tasks (exclude : Option String) (permits : Option Nat) : Scheduler where
  exclusion := (Exclusion.ofText exclude).1
  evaluate _ := s.evaluate
  handles _ := s.handles
  permits := permits

theorem ending_stage (exclude : Option String) (permits : Option Nat) (index : Nat) (x : Instance) :
    (s.ending x).stage = (s.tasks exclude permits).ending index x := by
  simp only [ending, Scheduler.ending, tasks]
  cases s.evaluate x with
  | document d => by_cases returns : s.handles x d = true <;> simp [returns]
  | failure f => rfl
  | crash => rfl

/-- What is told of an instance that is not left out. -/
theorem ending_diagnostic (exclude : Option String) (permits : Option Nat) (index : Nat) (x : Instance) :
    (s.ending x).diagnostic.toList =
      ((s.tasks exclude permits).script index x).filterMap Event.diagnostic? := by
  simp only [ending, Scheduler.script, tasks]
  cases s.evaluate x with
  | document d => by_cases returns : s.handles x d = true <;> simp [returns, Event.diagnostic?]
  | failure f => rfl
  | crash => rfl

def entryOf (exclusion : Exclusion) (x : Instance) : ReportEntry :=
  ⟨x.displayPath, if exclusion.excludes x.displayPath then .excluded else (s.ending x).stage⟩

def toldOf (exclusion : Exclusion) (x : Instance) : List Diagnostic :=
  if exclusion.excludes x.displayPath then [] else (s.ending x).diagnostic.toList

theorem add_entries (exclusion : Exclusion) (r : Run) (x : Instance) :
    (s.add exclusion r x).report.entries = r.report.entries ++ [s.entryOf exclusion x] ∧
      (s.add exclusion r x).diagnostics = r.diagnostics ++ s.toldOf exclusion x := by
  rw [add, entryOf, toldOf]
  cases exclusion.excludes x.displayPath with
  | true => exact ⟨rfl, (List.append_nil _).symm⟩
  | false =>
    refine ⟨congrArg (r.report.entries ++ [·]) ?_, rfl⟩
    refine ReportEntry.advance_of_leadsTo ?_
    show Stage.evaluating.leadsTo _ = true
    rw [s.ending_stage none none 0]
    exact Scheduler.evaluating_leadsTo_ending _ _ _

theorem foldl_add (exclusion : Exclusion) (instances : List Instance) (r : Run) :
    (instances.foldl (s.add exclusion) r).report.entries =
        r.report.entries ++ instances.map (s.entryOf exclusion) ∧
      (instances.foldl (s.add exclusion) r).diagnostics =
        r.diagnostics ++ instances.flatMap (s.toldOf exclusion) := by
  induction instances generalizing r with
  | nil => simp
  | cons x instances ih =>
    obtain ⟨entries, diagnostics⟩ := s.add_entries exclusion r x
    obtain ⟨later, told⟩ := ih (s.add exclusion r x)
    rw [List.foldl_cons, later, told, entries, diagnostics]
    simp

theorem run_eq (exclude : Option String) (instances : List Instance) :
    (s.run exclude instances).report.entries = instances.map (s.entryOf (Exclusion.ofText exclude).1) ∧
      (s.run exclude instances).diagnostics =
        (Exclusion.ofText exclude).2 ++ instances.flatMap (s.toldOf (Exclusion.ofText exclude).1) :=
  s.foldl_add (Exclusion.ofText exclude).1 instances ⟨⟨[]⟩, [], (Exclusion.ofText exclude).2⟩

/-- Every interleaving of the tasks ends in the report of a plain pass. -/
theorem report_of_completes {exclude : Option String} {permits : Option Nat} {instances : List Instance}
    {r : Progress} (completed : (s.tasks exclude permits).Completes instances r) :
    r.report = (s.run exclude instances).report := by
  obtain ⟨length, settled, -⟩ := Scheduler.completed_run_accounts completed
  have entries : r.entries = instances.map (s.entryOf (Exclusion.ofText exclude).1) := by
    refine List.ext_getElem? fun index => ?_
    rw [List.getElem?_map]
    cases found : instances[index]? with
    | none =>
      rw [List.getElem?_eq_none_iff, ← length] at found
      rw [List.getElem?_eq_none found]
      rfl
    | some x =>
      rw [(settled index x found).1, Option.map_some, entryOf, s.ending_stage exclude permits index]
      rfl
  show Report.mk r.entries = _
  rw [entries, ← (s.run_eq exclude instances).1]

end Schedule

/-- A log is made of the parts that belong to each index. -/
theorem perm_flatMap_filter {α : Type} {log : List (Nat × α)} {n : Nat} (h : ∀ e ∈ log, e.1 < n) :
    log.Perm ((List.range n).flatMap fun index => log.filter (·.1 == index)) := by
  induction n generalizing log with
  | zero =>
    have empty : log = [] := List.eq_nil_iff_forall_not_mem.mpr fun e member => Nat.not_lt_zero _ (h e member)
    rw [empty]
    rfl
  | succ n ih =>
    have split := (List.filter_append_perm (fun e => !(e.1 == n)) log).symm
    simp only [Bool.not_not] at split
    have below : ∀ e ∈ log.filter (fun e => !(e.1 == n)), e.1 < n := by
      intro e member
      obtain ⟨member, other⟩ := List.mem_filter.mp member
      have := h e member
      have : e.1 ≠ n := by simpa using other
      omega
    rw [List.range_succ, List.flatMap_append, List.flatMap_singleton]
    refine split.trans (List.Perm.append_right _ ((ih below).trans (List.Perm.of_eq ?_)))
    refine List.flatMap_congr fun index inside => ?_
    rw [List.filter_filter]
    refine List.filter_congr fun e _ => ?_
    have : index ≠ n := Nat.ne_of_lt (List.mem_range.mp inside)
    by_cases same : e.1 = index <;> simp [same, this]

/-- What was told is what the failures of the instances are, in the order the tasks came to it. -/
theorem Schedule.diagnostics_of_completes {s : Schedule} {exclude : Option String} {permits : Option Nat}
    {instances : List Instance} {r : Progress} (completed : (s.tasks exclude permits).Completes instances r) :
    ((Exclusion.ofText exclude).2 ++ r.diagnostics).Perm (s.run exclude instances).diagnostics := by
  obtain ⟨_, settled, events, -⟩ := Scheduler.completed_run_accounts completed
  rw [(s.run_eq exclude instances).2]
  refine List.Perm.append_left _ (((perm_flatMap_filter events).filterMap _).trans (List.Perm.of_eq ?_))
  rw [List.filterMap_flatMap, List.flatMap_def, List.flatMap_def]
  congr 1
  refine List.ext_getElem? fun index => ?_
  rw [List.getElem?_map, List.getElem?_map]
  by_cases inside : index < instances.length
  · have found := List.getElem?_eq_getElem inside
    have own := (settled index _ found).2
    rw [List.getElem?_range inside, found, Option.map_some, Option.map_some]
    rw [toldOf, s.ending_diagnostic exclude permits index]
    have told := congrArg (List.filterMap Event.diagnostic?) own
    rw [Progress.eventsOf, List.filterMap_map] at told
    refine congrArg some (told.trans ?_)
    cases excluded : (Exclusion.ofText exclude).1.excludes instances[index].displayPath <;>
      simp [tasks, excluded]
  · have outside := Nat.le_of_not_lt inside
    rw [List.getElem?_eq_none outside, List.getElem?_eq_none (by simpa using outside)]
    rfl

end StackLattice
