import Mathlib.Data.List.Perm.Subperm
import StackLattice.Proofs.Run.Accounting

/-!
The semaphore of a bounded run, with being given a permit as a step of its own before a task starts. In
every state the free permits and the ones that are held make up the limit, whatever broke off before; each
task takes one permit and gives it back.
-/

namespace StackLattice

namespace Phase

/-- Whether the calls of the task are being made. -/
def isRunning : Phase → Bool
  | evaluating | handling _ | reporting _ => true
  | waiting | ended _ | finished _ => false

def isFinished : Phase → Bool
  | finished _ => true
  | _ => false

end Phase

/-- What happens to a permit. -/
inductive Transfer
  | taken
  | returned
deriving DecidableEq

/-- A run at whose semaphore the tasks wait; `progress.free` is what the semaphore has left. -/
structure Gated where
  progress : Progress
  /-- The transfers so far, with the index of the task. -/
  ledger : List (Nat × Transfer) := []

namespace Gated

variable (g : Gated)

def transfers (index : Nat) : List Transfer := (g.ledger.filter (·.1 == index)).map (·.2)

def holds (index : Nat) : Bool := (g.transfers index).getLast? == some .taken

def holders : List Nat := (g.progress.tasks.map (·.index)).filter g.holds

def running : List Nat := (g.progress.tasks.filter (·.phase.isRunning)).map (·.index)

def take (index left : Nat) : Gated :=
  { progress := { g.progress with free := some left }
    ledger := g.ledger ++ [(index, .taken)] }

/-- A task that goes away drops the permit that it holds. -/
def release (index : Nat) : Gated :=
  if g.holds index then
    { progress := { g.progress with free := g.progress.free.map (· + 1) }
      ledger := g.ledger ++ [(index, .returned)] }
  else g

def turned (before : List Task) (t : Task) (after : List Task) (events : List Event) (phase : Phase) :
    Gated :=
  { g with progress := { g.progress with
      tasks := before ++ { t with phase } :: after
      events := g.progress.events ++ events.map (t.index, ·) } }

/-- The steps of the scheduler, except that the permit that a task has to hold to start is given to it
    earlier, and that a task holds it as long as it does not drop it. -/
inductive Step (s : Scheduler) : Gated → Gated → Prop
  | leaveOut {g : Gated} {x : Instance} {rest : List Instance} (next : g.progress.rest = x :: rest)
    (excluded : s.exclusion.excludes x.displayPath = true) :
    Step s g { g with progress := g.progress.push x .excluded }
  | spawn {g : Gated} {x : Instance} {rest : List Instance} (next : g.progress.rest = x :: rest)
    (kept : s.exclusion.excludes x.displayPath = false) :
    Step s g { g with progress := (g.progress.spawn x).push x .evaluating }
  | grant {g : Gated} {t : Task} {left : Nat} (member : t ∈ g.progress.tasks)
    (waiting : t.phase = .waiting) (without : g.holds t.index = false)
    (free : g.progress.free = some (left + 1)) : Step s g (g.take t.index left)
  | turn {g : Gated} {before after : List Task} {t : Task} {events : List Event} {phase : Phase}
    (tasks : g.progress.tasks = before ++ t :: after)
    (turn : s.Turn t.index t.subject t.phase events phase) (stays : phase.isFinished = false)
    (granted : t.phase = .waiting → g.progress.free = none ∨ g.holds t.index = true) :
    Step s g (g.turned before t after events phase)
  | leave {g : Gated} {before after : List Task} {t : Task} {events : List Event} {result : Option Stage}
    (tasks : g.progress.tasks = before ++ t :: after)
    (turn : s.Turn t.index t.subject t.phase events (.finished result)) :
    Step s g ((g.turned before t after events (.finished result)).release t.index)
  | join {g : Gated} {before after : List Task} {t : Task} {result : Option Stage}
    (passed : g.progress.rest = []) (tasks : g.progress.tasks = before ++ t :: after)
    (ended : t.phase = .finished result) :
    Step s g { g with progress := { g.progress with tasks := before ++ after }.record t.index result }

inductive Reaches (s : Scheduler) (instances : List Instance) : Gated → Prop
  | start : Reaches s instances { progress := s.start instances }
  | step {g h : Gated} (run : Reaches s instances g) (step : Step s g h) : Reaches s instances h

theorem transfers_append (index other : Nat) (x : Transfer) (progress : Progress) :
    ({ progress, ledger := g.ledger ++ [(index, x)] } : Gated).transfers other =
      g.transfers other ++ if index = other then [x] else [] := by
  by_cases same : index = other <;> simp [transfers, List.filter_append, same]

theorem transfers_eq_nil {g : Gated} {index : Nat} (h : ∀ e ∈ g.ledger, e.1 < index) :
    g.transfers index = [] := by
  simp only [transfers, List.map_eq_nil_iff, List.filter_eq_nil_iff, beq_iff_eq]
  intro e member
  exact Nat.ne_of_lt (h e member)

/-- One more holder among the tasks. -/
theorem length_filter_succ {p q : Nat → Bool} {indices : List Nat} {index : Nat}
    (distinct : indices.Nodup) (member : index ∈ indices) (before : p index = false)
    (after : q index = true) (others : ∀ other, other ≠ index → q other = p other) :
    (indices.filter q).length = (indices.filter p).length + 1 := by
  obtain ⟨first, last, rfl⟩ := List.append_of_mem member
  rw [List.nodup_middle, List.nodup_cons] at distinct
  have elsewhere (other : Nat) (at_ : other ∈ first ++ last) : q other = p other := by
    refine others other ?_
    rintro rfl
    exact distinct.1 at_
  have firsts := List.filter_congr fun other at_ => elsewhere other (List.mem_append_left last at_)
  have lasts := List.filter_congr fun other at_ => elsewhere other (List.mem_append_right first at_)
  simp only [List.filter_append, List.filter_cons, before, after, firsts, lasts, List.length_append,
    List.length_cons, if_true, Bool.false_eq_true, if_false]
  omega

end Gated

/-- The transfers of a task that has come to a phase. -/
def Phase.Transferred : Phase → List Transfer → Prop
  | .waiting, transfers => transfers = [] ∨ transfers = [.taken]
  | .finished _, transfers => transfers = [.taken, .returned]
  | _, transfers => transfers = [.taken]

theorem Phase.Transferred.turn {s : Scheduler} {index : Nat} {x : Instance} {before after : Phase}
    {events : List Event} {transfers : List Transfer} (h : before.Transferred transfers)
    (turn : s.Turn index x before events after) (stays : after.isFinished = false)
    (granted : before = .waiting → transfers = [.taken]) : after.Transferred transfers := by
  cases turn with
  | start => exact granted rfl
  | document | failure | crash | handled | handlerCrash | told => exact h
  | finish | lost => exact absurd stays Bool.false_ne_true.symm

theorem Tracked.free {s : Scheduler} {instances : List Instance} {p : Progress}
    (h : Tracked s instances p) (free : Option Nat) : Tracked s instances { p with free } where
  passed := h.passed
  rest := h.rest
  accounted := fun index x inside found => (h.accounted index x inside found).frame rfl rfl fun _ _ => .rfl
  distinct := h.distinct
  tasks := h.tasks
  events := h.events
  rejected := h.rejected

theorem Scheduler.Turn.not_waiting {s : Scheduler} {index : Nat} {x : Instance} {before after : Phase}
    {events : List Event} (turn : s.Turn index x before events after) : after ≠ .waiting := by
  rintro rfl
  cases turn

namespace Gated

/-- What holds of every state of a run on the instances with `n` permits. -/
structure Balanced (s : Scheduler) (instances : List Instance) (n : Nat) (g : Gated) : Prop where
  tracked : Tracked s instances g.progress
  shared : ∃ left, g.progress.free = some left ∧ left + g.holders.length = n
  tasks : ∀ t ∈ g.progress.tasks, t.phase.Transferred (g.transfers t.index)
  taskless : ∀ index x, instances[index]? = some x → index < g.progress.entries.length →
    (∀ t ∈ g.progress.tasks, t.index ≠ index) →
    g.transfers index = if s.exclusion.excludes x.displayPath then [] else [.taken, .returned]
  passed : ∀ e ∈ g.ledger, e.1 < g.progress.entries.length

variable {s : Scheduler} {instances : List Instance} {n : Nat} {g h : Gated}

theorem holds_of_transfers {index : Nat} (taken : g.transfers index = [.taken]) :
    g.holds index = true := by
  rw [holds, taken]
  rfl

theorem holds_eq_false_of_transfers {index : Nat}
    (complete : g.transfers index = [] ∨ g.transfers index = [.taken, .returned]) :
    g.holds index = false := by
  rcases complete with complete | complete <;> rw [holds, complete] <;> rfl

theorem indices_of_tasks {before after : List Task} {t : Task} {phase : Phase}
    (tasks : g.progress.tasks = before ++ t :: after)
    (moved : h.progress.tasks = before ++ { t with phase } :: after) :
    h.progress.tasks.map (·.index) = g.progress.tasks.map (·.index) := by
  simp [tasks, moved]

theorem holders_of_indices (indices : h.progress.tasks.map (·.index) = g.progress.tasks.map (·.index)) :
    h.holders = (g.progress.tasks.map (·.index)).filter h.holds := by
  rw [holders, indices]

namespace Balanced

theorem start (s : Scheduler) (instances : List Instance) (permits : s.permits = some n) :
    Balanced s instances n { progress := s.start instances } where
  tracked := Scheduler.Reaches.start.tracked
  shared := ⟨n, permits, rfl⟩
  tasks := fun _ member => (by cases member)
  taskless := fun _ _ _ inside => absurd inside (Nat.not_lt_zero _)
  passed := fun _ member => (by cases member)

theorem leaveOut {x : Instance} {rest : List Instance} (b : Balanced s instances n g)
    (next : g.progress.rest = x :: rest) (excluded : s.exclusion.excludes x.displayPath = true) :
    Balanced s instances n { g with progress := g.progress.push x .excluded } := by
  have length : (g.progress.push x .excluded).entries.length = g.progress.entries.length + 1 := by
    simp [Progress.push]
  refine ⟨b.tracked.leaveOut next excluded, b.shared, b.tasks, ?_, ?_⟩
  · intro index y found inside none
    replace inside : index < g.progress.entries.length + 1 := length ▸ inside
    rcases Nat.lt_succ_iff_lt_or_eq.mp inside with earlier | rfl
    · exact b.taskless index y found earlier none
    · rw [(b.tracked.next next).1] at found
      cases found
      rw [if_pos excluded]
      exact transfers_eq_nil b.passed
  · intro e member
    exact length ▸ Nat.lt_succ_of_lt (b.passed e member)

theorem spawn {x : Instance} {rest : List Instance} (b : Balanced s instances n g)
    (next : g.progress.rest = x :: rest) (kept : s.exclusion.excludes x.displayPath = false) :
    Balanced s instances n { g with progress := (g.progress.spawn x).push x .evaluating } := by
  have length : ((g.progress.spawn x).push x .evaluating).entries.length =
      g.progress.entries.length + 1 := by
    simp [Progress.push, Progress.spawn]
  have untouched := transfers_eq_nil b.passed
  refine ⟨b.tracked.spawn next kept, ?_, ?_, ?_, ?_⟩
  · obtain ⟨left, free, sum⟩ := b.shared
    have without := holds_eq_false_of_transfers (.inl untouched)
    refine ⟨left, free, ?_⟩
    show left + (((g.progress.tasks ++ [_]).map Task.index).filter g.holds).length = n
    simpa [holders, List.filter_append, without] using sum
  · intro t member
    rcases List.mem_append.mp member with old | new
    · exact b.tasks t old
    · cases List.mem_singleton.mp new
      exact .inl untouched
  · intro index y found inside none
    replace inside : index < g.progress.entries.length + 1 := length ▸ inside
    rcases Nat.lt_succ_iff_lt_or_eq.mp inside with earlier | rfl
    · exact b.taskless index y found earlier fun t old => none t (List.mem_append_left _ old)
    · exact absurd rfl (none _ (List.mem_append_right _ List.mem_cons_self))
  · intro e member
    exact length ▸ Nat.lt_succ_of_lt (b.passed e member)

/-- A step that concerns one task only. -/
theorem frame {before after : List Task} {t : Task} (b : Balanced s instances n g) (phase : Phase)
    (tasks : g.progress.tasks = before ++ t :: after)
    (moved : h.progress.tasks = before ++ { t with phase } :: after)
    (entries : h.progress.entries = g.progress.entries) (tracked : Tracked s instances h.progress)
    (shared : ∃ left, h.progress.free = some left ∧ left + h.holders.length = n)
    (here : phase.Transferred (h.transfers t.index))
    (elsewhere : ∀ index, t.index ≠ index → h.transfers index = g.transfers index)
    (passed : ∀ e ∈ h.ledger, e ∈ g.ledger ∨ e.1 = t.index) : Balanced s instances n h := by
  have member : t ∈ g.progress.tasks := tasks ▸ List.mem_append_right _ List.mem_cons_self
  have indices := indices_of_tasks tasks moved
  refine ⟨tracked, shared, ?_, ?_, ?_⟩
  · intro u inside
    by_cases same : t.index = u.index
    · have changed : { t with phase } ∈ h.progress.tasks :=
        moved ▸ List.mem_append_right _ List.mem_cons_self
      cases List.inj_on_of_nodup_map tracked.distinct changed inside same
      exact here
    · have other : u ∈ g.progress.tasks := by
        have apart : u ≠ { t with phase } := by
          rintro rfl
          exact same rfl
        simp only [moved, List.mem_append, List.mem_cons, apart, false_or] at inside
        rw [tasks]
        exact List.mem_append.mpr (inside.imp_right (List.mem_cons_of_mem t))
      rw [elsewhere _ same]
      exact b.tasks u other
  · intro index x found inside none
    have old : ∀ u ∈ g.progress.tasks, u.index ≠ index := by
      have every : ∀ i ∈ h.progress.tasks.map (·.index), i ≠ index := List.forall_mem_map.mpr none
      rw [indices] at every
      exact fun u inside => every _ (List.mem_map_of_mem inside)
    rw [elsewhere index (old t member)]
    exact b.taskless index x found (entries ▸ inside) old
  · intro e moved
    rw [entries]
    rcases passed e moved with old | new
    · exact b.passed e old
    · rw [new]
      exact b.tracked.tasks t member

theorem grant {t : Task} {left : Nat} (b : Balanced s instances n g) (member : t ∈ g.progress.tasks)
    (waiting : t.phase = .waiting) (without : g.holds t.index = false)
    (free : g.progress.free = some (left + 1)) : Balanced s instances n (g.take t.index left) := by
  have untouched : g.transfers t.index = [] := by
    have transferred := b.tasks t member
    rw [waiting] at transferred
    rcases transferred with none | taken
    · exact none
    · exact absurd (holds_of_transfers taken) (Bool.eq_false_iff.mp without)
  have here : (g.take t.index left).transfers t.index = [.taken] := by
    rw [take, transfers_append, if_pos rfl, untouched, List.nil_append]
  have elsewhere (index : Nat) (other : t.index ≠ index) :
      (g.take t.index left).transfers index = g.transfers index := by
    rw [take, transfers_append, if_neg other, List.append_nil]
  obtain ⟨before, after, tasks⟩ := List.append_of_mem member
  refine b.frame .waiting tasks (waiting ▸ tasks) rfl (b.tracked.free _) ⟨left, rfl, ?_⟩
    (.inr here) elsewhere ?_
  · obtain ⟨old, eq, sum⟩ := b.shared
    have one : (g.take t.index left).holders.length = g.holders.length + 1 :=
      length_filter_succ b.tracked.distinct (List.mem_map_of_mem member) without (holds_of_transfers here)
        fun index other => by rw [holds, holds, elsewhere index other.symm]
    cases eq.symm.trans free
    omega
  · intro e moved
    refine (List.mem_append.mp moved).imp_right fun new => ?_
    rw [List.mem_singleton.mp new]

theorem turn {before after : List Task} {t : Task} {events : List Event} {phase : Phase}
    (b : Balanced s instances n g) (tasks : g.progress.tasks = before ++ t :: after)
    (turn : s.Turn t.index t.subject t.phase events phase) (stays : phase.isFinished = false)
    (granted : t.phase = .waiting → g.progress.free = none ∨ g.holds t.index = true) :
    Balanced s instances n (g.turned before t after events phase) := by
  have member : t ∈ g.progress.tasks := tasks ▸ List.mem_append_right _ List.mem_cons_self
  have transferred := b.tasks t member
  obtain ⟨left, free, sum⟩ := b.shared
  refine b.frame phase tasks rfl rfl (b.tracked.turn _ tasks turn) ⟨left, free, ?_⟩ ?_ (fun _ _ => rfl)
    fun e old => .inl old
  · rw [holders_of_indices (indices_of_tasks tasks rfl)]
    exact sum
  · refine transferred.turn turn stays fun waiting => ?_
    rw [waiting] at transferred
    rcases transferred with none | taken
    · rw [free, holds_eq_false_of_transfers (.inl none)] at granted
      rcases granted waiting with unbounded | held
      · cases unbounded
      · cases held
    · exact taken

theorem leave {before after : List Task} {t : Task} {events : List Event} {result : Option Stage}
    (b : Balanced s instances n g) (tasks : g.progress.tasks = before ++ t :: after)
    (turn : s.Turn t.index t.subject t.phase events (.finished result)) :
    Balanced s instances n ((g.turned before t after events (.finished result)).release t.index) := by
  have member : t ∈ g.progress.tasks := tasks ▸ List.mem_append_right _ List.mem_cons_self
  have taken : g.transfers t.index = [.taken] := by
    have transferred := b.tasks t member
    generalize t.phase = phase at turn transferred
    cases turn <;> exact transferred
  have held := holds_of_transfers taken
  have released : (g.turned before t after events (.finished result)).release t.index =
      { progress := { (g.turned before t after events (.finished result)).progress with
          free := g.progress.free.map (· + 1) }
        ledger := g.ledger ++ [(t.index, .returned)] } := if_pos held
  have moved : ((g.turned before t after events (.finished result)).release t.index).progress.tasks =
      before ++ { t with phase := .finished result } :: after := by
    rw [released]
    rfl
  have indices := indices_of_tasks tasks moved
  have transfers (index : Nat) :
      ((g.turned before t after events (.finished result)).release t.index).transfers index =
        g.transfers index ++ if t.index = index then [.returned] else [] := by
    rw [released, transfers_append]
  have here := transfers t.index
  rw [if_pos rfl, taken] at here
  have elsewhere (index : Nat) (other : t.index ≠ index) :
      ((g.turned before t after events (.finished result)).release t.index).transfers index =
        g.transfers index := by
    rw [transfers, if_neg other, List.append_nil]
  obtain ⟨left, free, sum⟩ := b.shared
  refine b.frame (.finished result) tasks moved ?_ ?_ ⟨left + 1, ?_, ?_⟩ here elsewhere ?_
  · rw [released]
    rfl
  · rw [released]
    exact (b.tracked.turn none tasks turn).free _
  · rw [released, free]
    rfl
  · have without : ((g.turned before t after events (.finished result)).release t.index).holds t.index =
        false := holds_eq_false_of_transfers (.inr here)
    have one : g.holders.length =
        ((g.turned before t after events (.finished result)).release t.index).holders.length + 1 := by
      rw [holders_of_indices indices]
      exact length_filter_succ b.tracked.distinct (List.mem_map_of_mem member) without held
        fun index other => by rw [holds, holds, elsewhere index other.symm]
    omega
  · rw [released]
    intro e moved
    refine (List.mem_append.mp moved).imp_right fun new => ?_
    rw [List.mem_singleton.mp new]

theorem join {before after : List Task} {t : Task} {result : Option Stage} (b : Balanced s instances n g)
    (tasks : g.progress.tasks = before ++ t :: after) (ended : t.phase = .finished result) :
    Balanced s instances n
      { g with progress := { g.progress with tasks := before ++ after }.record t.index result } := by
  have member : t ∈ g.progress.tasks := tasks ▸ List.mem_append_right _ List.mem_cons_self
  have complete : g.transfers t.index = [.taken, .returned] := by
    have transferred := b.tasks t member
    rwa [ended] at transferred
  have remaining : ∀ u ∈ before ++ after, u ∈ g.progress.tasks := by
    intro u left
    rw [tasks]
    exact (List.perm_middle.mem_iff).mpr (List.mem_cons_of_mem t left)
  refine ⟨b.tracked.join tasks ended, ?_, ?_, ?_, ?_⟩
  · obtain ⟨left, free, sum⟩ := b.shared
    refine ⟨left, by cases result <;> exact free, ?_⟩
    have without := holds_eq_false_of_transfers (.inr complete)
    show left + (((({ g.progress with tasks := before ++ after }.record t.index result).tasks).map
      Task.index).filter g.holds).length = n
    rw [Progress.record_tasks]
    simpa [holders, tasks, List.filter_append, List.filter_cons, without] using sum
  · intro u inside
    rw [Progress.record_tasks] at inside
    exact b.tasks u (remaining u inside)
  · intro index x found inside none
    rw [Progress.length_entries_record] at inside
    rw [Progress.record_tasks] at none
    by_cases same : t.index = index
    · subst same
      have ⟨kept, subject, _⟩ := b.tracked.task member
      cases subject.symm.trans found
      rw [kept]
      exact complete
    · refine b.taskless index x found inside fun u old => ?_
      rw [tasks] at old
      rcases List.mem_cons.mp (List.perm_middle.mem_iff.mp old) with rfl | rest
      · exact same
      · exact none u rest
  · intro e moved
    rw [Progress.length_entries_record]
    exact b.passed e moved

/-- Every step keeps the balance. -/
theorem step (b : Balanced s instances n g) (step : Step s g h) : Balanced s instances n h := by
  cases step with
  | leaveOut next excluded => exact b.leaveOut next excluded
  | spawn next kept => exact b.spawn next kept
  | grant member waiting without free => exact b.grant member waiting without free
  | turn tasks turn stays granted => exact b.turn tasks turn stays granted
  | leave tasks turn => exact b.leave tasks turn
  | join _ tasks ended => exact b.join tasks ended

end Balanced

theorem Reaches.balanced (permits : s.permits = some n) (run : Reaches s instances g) :
    Balanced s instances n g := by
  induction run with
  | start => exact .start s instances permits
  | step _ step balanced => exact balanced.step step

/-- A task whose phase asks for a permit has one. -/
theorem Balanced.holds {t : Task} (b : Balanced s instances n g) (member : t ∈ g.progress.tasks)
    (phase : t.phase.holdsPermit = true) : g.holds t.index = true := by
  have transferred := b.tasks t member
  generalize t.phase = current at phase transferred
  cases current with
  | waiting | finished => cases phase
  | evaluating | handling | reporting | ended => exact holds_of_transfers transferred

theorem Balanced.count_le (b : Balanced s instances n g) :
    g.progress.tasks.countP (·.phase.holdsPermit) ≤ n := by
  obtain ⟨left, -, sum⟩ := b.shared
  have fewer : g.progress.tasks.countP (·.phase.holdsPermit) ≤ g.holders.length := by
    rw [holders, ← List.countP_eq_length_filter, List.countP_map]
    exact List.countP_mono_left fun t member phase => b.holds member phase
  omega

/-- The permits that are left when each task takes its own as it starts. -/
def ungated (s : Scheduler) (g : Gated) : Progress :=
  { g.progress with free := s.permits.map (· - g.progress.tasks.countP (·.phase.holdsPermit)) }

theorem ungated_release (index : Nat) : ungated s (g.release index) = ungated s g := by
  rw [release]
  split <;> rfl

theorem permitsAfter_of_count {permits : Option Nat} (others : Nat) (before after : Phase)
    (old : ∀ n ∈ permits, others + before.holdsPermit.toNat ≤ n)
    (new : ∀ n ∈ permits, others + after.holdsPermit.toNat ≤ n) :
    Scheduler.permitsAfter (permits.map (· - (others + before.holdsPermit.toNat))) before after =
      some (permits.map (· - (others + after.holdsPermit.toNat))) := by
  cases permits with
  | none => simp [Scheduler.permitsAfter]
  | some n =>
    replace old := old n rfl
    replace new := new n rfl
    cases was : before.holdsPermit <;> cases is : after.holdsPermit <;>
      simp only [was, is, Bool.toNat_true, Bool.toNat_false, Nat.add_zero, Option.map_some] at old new ⊢
    · simp only [Scheduler.permitsAfter, was, is]
    · have one : n - others = n - (others + 1) + 1 := by omega
      simp only [one, Scheduler.permitsAfter, was, is]
    · have one : n - (others + 1) + 1 = n - others := by omega
      simp only [Scheduler.permitsAfter, was, is, one]
    · simp only [Scheduler.permitsAfter, was, is]

theorem step_ungated (bound : ∀ n ∈ s.permits, Balanced s instances n g) (step : Step s g h) :
    s.Step (ungated s g) (ungated s h) ∨ ungated s g = ungated s h := by
  have still : ∀ n ∈ s.permits, Balanced s instances n h :=
    fun n permits => (bound n permits).step step
  have turns {before after : List Task} {t : Task} {events : List Event} {phase : Phase}
      (tasks : g.progress.tasks = before ++ t :: after)
      (turn : s.Turn t.index t.subject t.phase events phase)
      (moved : h.progress.tasks = before ++ { t with phase } :: after) :
      s.Step (ungated s g) (ungated s (g.turned before t after events phase)) := by
    let others := before.countP (·.phase.holdsPermit) + after.countP (·.phase.holdsPermit)
    have count (u : Task) : (before ++ u :: after).countP (·.phase.holdsPermit) =
        others + u.phase.holdsPermit.toNat := by
      rw [List.countP_append, List.countP_cons]
      cases u.phase.holdsPermit with
      | true => simp only [others, if_true, Bool.toNat_true]; omega
      | false => simp [others]
    have permits := permitsAfter_of_count others t.phase phase
      (fun n permits => by have le := (bound n permits).count_le; rwa [tasks, count] at le)
      (fun n permits => by have le := (still n permits).count_le; rwa [moved, count] at le)
    rw [← count t, ← count { t with phase }, ← tasks] at permits
    exact .turn (p := ungated s g) tasks turn permits
  cases step with
  | leaveOut next excluded => exact .inl (.leaveOut next excluded)
  | @spawn x _ next kept =>
    left
    have same : ungated s { g with progress := (g.progress.spawn x).push x .evaluating } =
        ((ungated s g).spawn x).push x .evaluating := by
      simp [ungated, Progress.spawn, Progress.push, Phase.holdsPermit]
    rw [same]
    exact .spawn next kept
  | grant _ _ _ _ => exact .inr rfl
  | turn tasks turn _ _ => exact .inl (turns tasks turn rfl)
  | leave tasks turn =>
    rw [ungated_release]
    refine .inl (turns tasks turn ?_)
    rw [release]
    split <;> rfl
  | @join before after t result passed tasks ended =>
    left
    have same : ungated s
          { g with progress := { g.progress with tasks := before ++ after }.record t.index result } =
        { ungated s g with tasks := before ++ after }.record t.index result := by
      cases result <;> simp [ungated, Progress.record, tasks, ended, Phase.holdsPermit]
    rw [same]
    exact .join passed tasks ended

/-- Being given a permit is not seen in a run whose tasks take their permits as they start. -/
theorem Reaches.reaches_ungated (run : Reaches s instances g) : s.Reaches instances (ungated s g) := by
  induction run with
  | start =>
    have same : ungated s { progress := s.start instances } = s.start instances := by
      simp [ungated, Scheduler.start]
    rw [same]
    exact .start
  | step run step reached =>
    rcases step_ungated (fun n permits => run.balanced permits) step with moved | same
    · exact reached.step moved
    · exact same ▸ reached

theorem Reaches.unbounded (permits : s.permits = none) (run : Reaches s instances g) :
    g.progress.free = none ∧ g.ledger = [] := by
  induction run with
  | start => exact ⟨permits, rfl⟩
  | @step g h _ step unbounded =>
    obtain ⟨free, ledger⟩ := unbounded
    cases step with
    | leaveOut | spawn | turn => exact ⟨free, ledger⟩
    | grant _ _ _ left => cases free.symm.trans left
    | @leave before after t events result =>
      have without : (g.turned before t after events (.finished result)).holds t.index = false := by
        simp [Gated.holds, transfers, turned, ledger]
      rw [release, without]
      exact ⟨free, ledger⟩
    | @join _ _ _ result => exact ⟨by cases result <;> exact free, ledger⟩

theorem Reaches.passed (run : Reaches s instances g) : ∀ e ∈ g.ledger, e.1 < g.progress.entries.length := by
  cases permits : s.permits with
  | none => simp [(run.unbounded permits).2]
  | some n => exact (run.balanced permits).passed

/-- A task that leaves gives a permit back exactly if there are any. -/
theorem Reaches.release_turned {before after : List Task} {t : Task} {events : List Event}
    {result : Option Stage} (run : Reaches s instances g) (member : t ∈ g.progress.tasks)
    (held : t.phase.holdsPermit = true) :
    ((g.turned before t after events (.finished result)).release t.index).progress =
      { (g.turned before t after events (.finished result)).progress with
        free := g.progress.free.map (· + 1) } := by
  rw [release]
  cases permits : s.permits with
  | none =>
    have free := (run.unbounded permits).1
    split <;> simp [turned, free]
  | some n =>
    have holds : (g.turned before t after events (.finished result)).holds t.index = true :=
      (run.balanced permits).holds member held
    rw [if_pos holds]
    rfl

end Gated

/-- A task can be given its permit right before it starts. -/
theorem Gated.Reaches.turn {before after : List Task} {t : Task} {events : List Event} {phase : Phase}
    {free : Option Nat} (run : Reaches s instances g) (tasks : g.progress.tasks = before ++ t :: after)
    (turn : s.Turn t.index t.subject t.phase events phase)
    (permits : Scheduler.permitsAfter g.progress.free t.phase phase = some free)
    (untouched : t.phase = .waiting → g.transfers t.index = []) :
    ∃ h, Reaches s instances h ∧
      h.progress = { (g.turned before t after events phase).progress with free } ∧
      ∀ index, t.index ≠ index → h.transfers index = g.transfers index := by
  have member : t ∈ g.progress.tasks := tasks ▸ List.mem_append_right _ List.mem_cons_self
  obtain ⟨index, subject, current⟩ := t
  have running (stays : phase.isFinished = false) (old : current.holdsPermit = true)
      (new : phase.holdsPermit = true) : ∃ h, Reaches s instances h ∧
        h.progress = { (g.turned before ⟨index, subject, current⟩ after events phase).progress with free } ∧
        ∀ other, index ≠ other → h.transfers other = g.transfers other := by
    have same : free = g.progress.free := by
      cases eq : g.progress.free <;> rw [eq] at permits <;>
        simp only [Scheduler.permitsAfter, old, new, Option.some.injEq] at permits <;>
        exact permits.symm
    refine ⟨_, run.step (.turn tasks turn stays fun waiting => ?_), by rw [same]; rfl, fun _ _ => rfl⟩
    cases waiting
    cases old
  have leaving {result : Option Stage} (old : current.holdsPermit = true) (complete : phase = .finished result) :
      ∃ h, Reaches s instances h ∧
        h.progress = { (g.turned before ⟨index, subject, current⟩ after events phase).progress with free } ∧
        ∀ other, index ≠ other → h.transfers other = g.transfers other := by
    subst complete
    have released : (Phase.finished result).holdsPermit = false := rfl
    have more : free = g.progress.free.map (· + 1) := by
      cases eq : g.progress.free <;> rw [eq] at permits <;>
        simp only [Scheduler.permitsAfter, old, released, Option.some.injEq] at permits <;>
        exact permits.symm
    refine ⟨_, run.step (.leave tasks turn), by rw [run.release_turned member old, more], ?_⟩
    intro other apart
    rw [release]
    split
    · exact (transfers_append _ index other .returned _).trans (by rw [if_neg apart, List.append_nil]; rfl)
    · rfl
  cases turn with
  | start =>
    cases left : g.progress.free with
    | none =>
      rw [left] at permits
      cases permits
      exact ⟨_, run.step (.turn tasks .start rfl fun _ => .inl left), by rw [← left]; rfl, fun _ _ => rfl⟩
    | some count =>
      rw [left] at permits
      cases count with
      | zero => cases permits
      | succ count =>
        cases permits
        have without := holds_eq_false_of_transfers (.inl (untouched rfl))
        have granted := run.step (.grant member rfl without left)
        have taken : (g.take index count).transfers index = [.taken] := by
          rw [take, transfers_append, if_pos rfl, untouched rfl, List.nil_append]
        refine ⟨_, granted.step (.turn tasks .start rfl fun _ => .inr (holds_of_transfers taken)), rfl, ?_⟩
        intro other apart
        exact (transfers_append _ index other .taken _).trans (by rw [if_neg apart, List.append_nil])
  | document | failure | crash | handled | handlerCrash | told => exact running rfl rfl rfl
  | finish | lost => exact leaving rfl rfl

theorem Scheduler.Reaches.gated {s : Scheduler} {instances : List Instance} {p : Progress}
    (run : s.Reaches instances p) : ∃ g, Gated.Reaches s instances g ∧ g.progress = p ∧
      ∀ t ∈ p.tasks, t.phase = .waiting → g.transfers t.index = [] := by
  induction run with
  | start => exact ⟨_, .start, rfl, fun _ member => by cases member⟩
  | @step p q reached step earlier =>
    obtain ⟨g, run, rfl, untouched⟩ := earlier
    cases step with
    | leaveOut next excluded => exact ⟨_, run.step (.leaveOut next excluded), rfl, untouched⟩
    | spawn next kept =>
      refine ⟨_, run.step (.spawn next kept), rfl, fun t member waiting => ?_⟩
      rcases List.mem_append.mp member with old | new
      · exact untouched t old waiting
      · cases List.mem_singleton.mp new
        exact Gated.transfers_eq_nil run.passed
    | @turn before after t events phase free tasks turn permits =>
      have member : t ∈ g.progress.tasks := tasks ▸ List.mem_append_right _ List.mem_cons_self
      obtain ⟨h, run, progress, elsewhere⟩ := run.turn tasks turn permits (untouched t member)
      refine ⟨h, run, progress, fun u inside waiting => ?_⟩
      have other : t.index ≠ u.index := by
        have distinct := (reached.tracked.turn free tasks turn).distinct
        have changed : { t with phase } ∈ before ++ { t with phase } :: after :=
          List.mem_append_right _ List.mem_cons_self
        intro same
        cases List.inj_on_of_nodup_map distinct changed inside same
        exact turn.not_waiting waiting
      have old : u ∈ g.progress.tasks := by
        rw [tasks]
        rcases List.mem_cons.mp (List.perm_middle.mem_iff.mp inside) with rfl | rest
        · exact absurd rfl other
        · exact List.perm_middle.mem_iff.mpr (List.mem_cons_of_mem t rest)
      rw [elsewhere _ other]
      exact untouched u old waiting
    | @join before after t result passed tasks ended =>
      refine ⟨_, run.step (.join passed tasks ended), rfl, fun u member waiting => ?_⟩
      rw [Progress.record_tasks] at member
      refine untouched u ?_ waiting
      rw [tasks]
      exact List.perm_middle.mem_iff.mpr (List.mem_cons_of_mem t member)

namespace Gated

theorem Balanced.running_subset (b : Balanced s instances n g) : g.running ⊆ g.holders := by
  intro index inside
  obtain ⟨t, member, rfl⟩ := List.mem_map.mp inside
  obtain ⟨member, running⟩ := List.mem_filter.mp member
  have phase : t.phase.holdsPermit = true := by
    generalize t.phase = phase at running
    cases phase <;> first | rfl | cases running
  exact List.mem_filter.mpr ⟨List.mem_map_of_mem member, b.holds member phase⟩

theorem Balanced.running_nodup (b : Balanced s instances n g) : g.running.Nodup :=
  b.tracked.distinct.sublist (List.filter_sublist.map _)

theorem Balanced.transfers_prefix (b : Balanced s instances n g) (index : Nat) :
    g.transfers index <+: [.taken, .returned] := by
  by_cases task : ∃ t ∈ g.progress.tasks, t.index = index
  · obtain ⟨t, member, rfl⟩ := task
    have transferred := b.tasks t member
    generalize t.phase = phase at transferred
    cases phase with
    | waiting => rcases transferred with none | taken <;> simp [*]
    | finished => exact transferred ▸ List.prefix_rfl
    | evaluating | handling | reporting | ended => exact transferred ▸ ⟨[.returned], rfl⟩
  · rcases Nat.lt_or_ge index g.progress.entries.length with inside | outside
    · have found := List.getElem?_eq_getElem (Nat.lt_of_lt_of_le inside b.tracked.passed)
      rw [b.taskless index _ found inside fun t member same => task ⟨t, member, same⟩]
      split
      · exact List.nil_prefix
      · exact List.prefix_rfl
    · rw [transfers_eq_nil fun e moved => Nat.lt_of_lt_of_le (b.passed e moved) outside]
      exact List.nil_prefix

theorem Balanced.complete (b : Balanced s instances n g)
    (complete : ∀ t ∈ g.progress.tasks, t.phase.isFinished = true) :
    g.progress.free = some n ∧ ∀ index x, instances[index]? = some x → index < g.progress.entries.length →
      g.transfers index = if s.exclusion.excludes x.displayPath then [] else [.taken, .returned] := by
  have returned {t : Task} (member : t ∈ g.progress.tasks) : g.transfers t.index = [.taken, .returned] := by
    have finished := complete t member
    have transferred := b.tasks t member
    generalize t.phase = phase at finished transferred
    cases phase <;> first | exact transferred | cases finished
  constructor
  · obtain ⟨left, free, sum⟩ := b.shared
    have none : g.holders = [] := by
      rw [holders, List.filter_eq_nil_iff]
      intro index inside
      obtain ⟨t, member, rfl⟩ := List.mem_map.mp inside
      rw [holds_eq_false_of_transfers (.inr (returned member))]
      exact Bool.false_ne_true
    rw [none] at sum
    rw [free, ← sum]
    rfl
  · intro index x found inside
    by_cases task : ∃ t ∈ g.progress.tasks, t.index = index
    · obtain ⟨t, member, rfl⟩ := task
      obtain ⟨kept, subject, -⟩ := b.tracked.task member
      cases subject.symm.trans found
      rw [kept]
      exact returned member
    · exact b.taskless index x found inside fun t member same => task ⟨t, member, same⟩

/-- With `n` permits, the free ones and the held ones are `n` together in every state of a run, a task runs
    only while it holds one, and each task takes one permit and returns it once; when no task is left
    to finish, all of them are free. -/
theorem Reaches.at_most_the_permits_run (permits : s.permits = some n) (run : Reaches s instances g) :
    (∃ left, g.progress.free = some left ∧ left + g.holders.length = n) ∧
      g.running ⊆ g.holders ∧ g.running.Nodup ∧ g.running.length ≤ n ∧
      (∀ index, g.transfers index <+: [.taken, .returned]) ∧
      ((∀ t ∈ g.progress.tasks, t.phase.isFinished = true) → g.progress.free = some n ∧
        ∀ index x, instances[index]? = some x → index < g.progress.entries.length →
          g.transfers index = if s.exclusion.excludes x.displayPath then [] else [.taken, .returned]) := by
  have b := run.balanced permits
  refine ⟨b.shared, b.running_subset, b.running_nodup, ?_, b.transfers_prefix, b.complete⟩
  obtain ⟨left, -, sum⟩ := b.shared
  have fewer := (List.subperm_of_subset b.running_nodup b.running_subset).length_le
  omega

/-- With one permit, the task that is given it first breaks off and is lost, and the other one still runs. -/
theorem Reaches.at_most_the_permits_run_after_a_crash :
    let s : Scheduler :=
      { exclusion := ⟨none⟩
        evaluate := fun index _ => if index = 0 then .crash else .document .null
        handles := fun _ _ _ => true
        permits := some 1 }
    let twin : Instance := { displayPath := "./a", package := "p" }
    (∃ g, Reaches s [twin, twin] g ∧ g.running = [1] ∧ g.running.length ≤ 1) ∧
      ∃ g, Reaches s [twin, twin] g ∧ (∀ t ∈ g.progress.tasks, t.phase.isFinished = true) ∧
        g.progress.free = some 1 ∧ g.transfers 0 = [.taken, .returned] := by
  intro s twin
  have reached : Reaches s [twin, twin] { progress := s.start [twin, twin] } := .start
  replace reached := reached.step (.spawn rfl rfl)
  replace reached := reached.step (.spawn rfl rfl)
  replace reached := reached.step (.grant (t := ⟨0, twin, .waiting⟩) List.mem_cons_self rfl rfl rfl)
  replace reached := reached.step (.turn (show _ = [] ++ _ :: _ from rfl) .start rfl fun _ => .inr rfl)
  replace reached := reached.step
    (.turn (show _ = [] ++ _ :: _ from rfl) (.crash rfl) rfl fun phase => by cases phase)
  replace reached := reached.step (.leave (show _ = [] ++ _ :: _ from rfl) .lost)
  replace reached := reached.step
    (.grant (t := ⟨1, twin, .waiting⟩) (List.mem_cons_of_mem _ List.mem_cons_self) rfl rfl rfl)
  replace reached := reached.step (.turn (show _ = [_] ++ _ :: _ from rfl) .start rfl fun _ => .inr rfl)
  have bound := reached.at_most_the_permits_run rfl
  refine ⟨⟨_, reached, rfl, bound.2.2.2.1⟩, ?_⟩
  replace reached := reached.step
    (.turn (show _ = [_] ++ _ :: _ from rfl) (.document rfl) rfl fun phase => by cases phase)
  replace reached := reached.step
    (.turn (show _ = [_] ++ _ :: _ from rfl) (.handled rfl) rfl fun phase => by cases phase)
  replace reached := reached.step (.leave (show _ = [_] ++ _ :: _ from rfl) .finish)
  have complete := (reached.at_most_the_permits_run rfl).2.2.2.2.2 (List.all_eq_true.mp rfl)
  exact ⟨_, reached, List.all_eq_true.mp rfl, complete.1, complete.2 0 twin rfl (by decide)⟩

end Gated

/-- The permits of a run whose tasks take them as they start. -/
theorem Scheduler.Reaches.free_eq {s : Scheduler} {instances : List Instance} {n : Nat} {p : Progress}
    (permits : s.permits = some n)
    (run : s.Reaches instances p) :
    p.tasks.countP (·.phase.holdsPermit) ≤ n ∧
      p.free = some (n - p.tasks.countP (·.phase.holdsPermit)) := by
  obtain ⟨g, gated, rfl, untouched⟩ := run.gated
  have b := gated.balanced permits
  refine ⟨b.count_le, ?_⟩
  obtain ⟨left, free, sum⟩ := b.shared
  have same : g.holders.length = g.progress.tasks.countP (·.phase.holdsPermit) := by
    rw [Gated.holders, ← List.countP_eq_length_filter, List.countP_map]
    refine List.countP_congr fun t member => ⟨fun held => ?_, b.holds member⟩
    have transferred := b.tasks t member
    cases phase : t.phase with
    | waiting =>
      rw [Function.comp_apply, Gated.holds_eq_false_of_transfers (.inl (untouched t member phase))] at held
      cases held
    | finished =>
      rw [phase] at transferred
      rw [Function.comp_apply, Gated.holds_eq_false_of_transfers (.inr transferred)] at held
      cases held
    | evaluating | handling | reporting | ended => rfl
  rw [free]
  congr
  omega

end StackLattice
