import Mathlib.Data.List.Nodup
import StackLattice.Proofs.Run.Interleaving

/-!
Whatever the order of the turns and of the results, a run that is over has accounted for every instance
once: each entry tells how its own calls ended, and each call was made once.
-/

namespace StackLattice

theorem Stage.isTerminal_of_follows {stage : Stage} (h : evaluating.leadsTo stage = true) :
    stage.isTerminal = true := by
  cases stage <;> first | rfl | exact absurd h Bool.false_ne_true

namespace ReportEntry

theorem advance_of_leadsTo {e : ReportEntry} {stage : Stage} (h : e.stage.leadsTo stage = true) :
    e.advance stage = ⟨e.displayPath, stage⟩ := by
  simp only [advance, enter, h, if_true]

theorem rejection?_of_leadsTo {e : ReportEntry} {stage : Stage} (h : e.stage.leadsTo stage = true) :
    e.rejection? stage = none := by
  simp only [rejection?, enter, h, if_true]

end ReportEntry

namespace Scheduler

variable (s : Scheduler)

/-- Everything that is seen of a task that came to its end. -/
def script (index : Nat) (x : Instance) : List Event :=
  .evaluated x :: match s.evaluate index x with
    | .document d => [.handed x d]
    | .failure f => [.told (.failed x.displayPath f)]
    | .crash => []

/-- The last stage of an instance that is not left out. -/
def ending (index : Nat) (x : Instance) : Stage :=
  match s.evaluate index x with
  | .document d => if s.handles index x d then .succeeded else .aborted
  | .failure _ => .failed
  | .crash => .aborted

theorem evaluating_leadsTo_ending (index : Nat) (x : Instance) :
    Stage.evaluating.leadsTo (s.ending index x) = true := by
  rw [ending]
  split
  · split <;> rfl
  · rfl
  · rfl

theorem ending_ne_excluded (index : Nat) (x : Instance) : s.ending index x ≠ .excluded := by
  intro excluded
  have follows := s.evaluating_leadsTo_ending index x
  rw [excluded] at follows
  exact absurd follows Bool.false_ne_true

theorem ending_eq_succeeded_iff (index : Nat) (x : Instance) :
    s.ending index x = .succeeded ↔
      ∃ d, s.evaluate index x = .document d ∧ s.handles index x d = true := by
  cases result : s.evaluate index x <;> simp [ending, result]

theorem ending_eq_failed_iff (index : Nat) (x : Instance) :
    s.ending index x = .failed ↔ ∃ f, s.evaluate index x = .failure f := by
  cases result : s.evaluate index x with
  | document d => by_cases returns : s.handles index x d = true <;> simp [ending, result, returns]
  | failure f => simp [ending, result]
  | crash => simp [ending, result]

theorem ending_eq_aborted_iff (index : Nat) (x : Instance) :
    s.ending index x = .aborted ↔ s.evaluate index x = .crash ∨
      ∃ d, s.evaluate index x = .document d ∧ s.handles index x d = false := by
  cases result : s.evaluate index x <;> simp [ending, result]

/-- What is known of a task by its phase: what was seen of it so far, and what it still remembers. -/
def Past (index : Nat) (x : Instance) : Phase → List Event → Prop
  | .waiting, seen => seen = []
  | .evaluating, seen => seen = [.evaluated x]
  | .handling d, seen => s.evaluate index x = .document d ∧ seen = s.script index x
  | .reporting f, seen => s.evaluate index x = .failure f ∧ seen = [.evaluated x]
  | .ended stage, seen => stage = s.ending index x ∧ seen = s.script index x
  | .finished result, seen =>
    (result = some (s.ending index x) ∨ result = none ∧ s.ending index x = .aborted) ∧
      seen = s.script index x

variable {s}

theorem Past.turn {index : Nat} {x : Instance} {before after : Phase} {seen events : List Event}
    (past : s.Past index x before seen) (turn : s.Turn index x before events after) :
    s.Past index x after (seen ++ events) := by
  cases turn with
  | start => rw [show seen = [] from past, List.nil_append, Past]
  | document result =>
    rw [show seen = [.evaluated x] from past]
    exact ⟨result, by rw [script, result]; rfl⟩
  | failure result =>
    rw [List.append_nil]
    exact ⟨result, past⟩
  | crash result =>
    rw [show seen = [.evaluated x] from past]
    exact ⟨by rw [ending, result], by rw [script, result]; rfl⟩
  | handled returns =>
    obtain ⟨result, rfl⟩ := past
    exact ⟨by simp only [ending, result, returns, if_true], List.append_nil _⟩
  | handlerCrash breaks =>
    obtain ⟨result, rfl⟩ := past
    exact ⟨by simp only [ending, result, breaks, Bool.false_eq_true, if_false], List.append_nil _⟩
  | told =>
    obtain ⟨result, rfl⟩ := past
    exact ⟨by rw [ending, result], by rw [script, result]; rfl⟩
  | finish =>
    obtain ⟨rfl, rfl⟩ := past
    exact ⟨.inl rfl, List.append_nil _⟩
  | lost =>
    obtain ⟨aborted, rfl⟩ := past
    exact ⟨.inr ⟨rfl, aborted.symm⟩, List.append_nil _⟩

end Scheduler

namespace Progress

/-- The events of one task leave those of the others alone. -/
theorem eventsOf_append (p : Progress) (index other : Nat) (events : List Event) :
    { p with events := p.events ++ events.map (index, ·) }.eventsOf other =
      p.eventsOf other ++ if index = other then events else [] := by
  by_cases same : index = other <;>
    simp [eventsOf, List.filter_append, List.filter_map, Function.comp_def, same]

theorem eventsOf_eq_nil {p : Progress} {index : Nat} (h : ∀ e ∈ p.events, e.1 < index) :
    p.eventsOf index = [] := by
  simp only [eventsOf, List.map_eq_nil_iff, List.filter_eq_nil_iff, beq_iff_eq]
  intro e member
  exact Nat.ne_of_lt (h e member)

@[simp] theorem record_rest (p : Progress) (index : Nat) (result : Option Stage) :
    (p.record index result).rest = p.rest := by
  cases result <;> rfl

@[simp] theorem record_tasks (p : Progress) (index : Nat) (result : Option Stage) :
    (p.record index result).tasks = p.tasks := by
  cases result <;> rfl

@[simp] theorem record_events (p : Progress) (index : Nat) (result : Option Stage) :
    (p.record index result).events = p.events := by
  cases result <;> rfl

@[simp] theorem length_entries_record (p : Progress) (index : Nat) (result : Option Stage) :
    (p.record index result).entries.length = p.entries.length := by
  cases result with
  | none => rfl
  | some stage => exact List.length_modify _ _ _

theorem record_other (p : Progress) {index other : Nat} (result : Option Stage) (h : index ≠ other) :
    (p.record index result).entries[other]? = p.entries[other]? := by
  cases result with
  | none => rfl
  | some stage => exact List.getElem?_modify_ne _ _ h

theorem record_here {p : Progress} {index : Nat} {displayPath : String} {result : Option Stage}
    (entry : p.entries[index]? = some ⟨displayPath, .evaluating⟩)
    (leads : ∀ stage ∈ result, Stage.evaluating.leadsTo stage = true) :
    (p.record index result).entries[index]? = some ⟨displayPath, result.getD .evaluating⟩ ∧
      (p.record index result).rejected = p.rejected := by
  cases result with
  | none => exact ⟨entry, rfl⟩
  | some stage =>
    have leads := leads stage rfl
    constructor
    · simp only [record, List.getElem?_modify_eq, entry]
      exact congrArg some (ReportEntry.advance_of_leadsTo leads)
    · have accepted : ReportEntry.rejection? ⟨displayPath, .evaluating⟩ stage = none :=
        ReportEntry.rejection?_of_leadsTo leads
      simp only [record, entry, Option.bind_some, accepted]
      exact List.append_nil _

end Progress

/-- How the entry of an instance that was passed, its task and what was seen of it belong together. -/
inductive Accounted (s : Scheduler) (p : Progress) (index : Nat) (x : Instance) : Prop
  | leftOut (excluded : s.exclusion.excludes x.displayPath = true)
    (entry : p.entries[index]? = some ⟨x.displayPath, .excluded⟩)
    (seen : p.eventsOf index = []) (taskless : ∀ t ∈ p.tasks, t.index ≠ index)
  | live {phase : Phase} (kept : s.exclusion.excludes x.displayPath = false)
    (task : ⟨index, x, phase⟩ ∈ p.tasks)
    (entry : p.entries[index]? = some ⟨x.displayPath, .evaluating⟩)
    (past : s.Past index x phase (p.eventsOf index))
  | joined {result : Option Stage} (kept : s.exclusion.excludes x.displayPath = false)
    (taskless : ∀ t ∈ p.tasks, t.index ≠ index)
    (entry : p.entries[index]? = some ⟨x.displayPath, result.getD .evaluating⟩)
    (past : s.Past index x (.finished result) (p.eventsOf index))

/-- What holds of every state of a run on the instances. -/
structure Tracked (s : Scheduler) (instances : List Instance) (p : Progress) : Prop where
  passed : p.entries.length ≤ instances.length
  rest : p.rest = instances.drop p.entries.length
  accounted : ∀ index x, index < p.entries.length → instances[index]? = some x → Accounted s p index x
  distinct : (p.tasks.map (·.index)).Nodup
  tasks : ∀ t ∈ p.tasks, t.index < p.entries.length
  events : ∀ e ∈ p.events, e.1 < p.entries.length
  rejected : p.rejected = []

variable {s : Scheduler} {instances : List Instance} {p q : Progress}

theorem Accounted.frame {index : Nat} {x : Instance} (h : Accounted s p index x)
    (entries : q.entries[index]? = p.entries[index]?) (events : q.eventsOf index = p.eventsOf index)
    (tasks : ∀ t : Task, t.index = index → (t ∈ q.tasks ↔ t ∈ p.tasks)) : Accounted s q index x := by
  have taskless (none : ∀ t ∈ p.tasks, t.index ≠ index) : ∀ t ∈ q.tasks, t.index ≠ index :=
    fun t member same => none t ((tasks t same).mp member) same
  cases h with
  | leftOut excluded entry seen none =>
    exact .leftOut excluded (entries.trans entry) (events.trans seen) (taskless none)
  | live kept task entry past =>
    exact .live kept ((tasks _ rfl).mpr task) (entries.trans entry) (by rwa [events])
  | joined kept none entry past =>
    exact .joined kept (taskless none) (entries.trans entry) (by rwa [events])

namespace Tracked

theorem next {x : Instance} {rest : List Instance} (h : Tracked s instances p) (next : p.rest = x :: rest) :
    instances[p.entries.length]? = some x ∧ p.entries.length < instances.length := by
  have here : (instances.drop p.entries.length)[0]? = some x := by rw [← h.rest, next]; rfl
  rw [List.getElem?_drop, Nat.add_zero] at here
  exact ⟨here, (List.getElem?_eq_some_iff.mp here).1⟩

theorem push {x : Instance} {rest : List Instance} {stage : Stage} {added : List Task}
    (h : Tracked s instances p) (next : p.rest = x :: rest) (leads : Stage.loaded.leadsTo stage = true)
    (indices : ∀ t ∈ added, t.index = p.entries.length) (distinct : (added.map (·.index)).Nodup)
    (account : Accounted s { p.push x stage with tasks := p.tasks ++ added } p.entries.length x) :
    Tracked s instances { p.push x stage with tasks := p.tasks ++ added } := by
  have ⟨here, bound⟩ := h.next next
  have length : (p.push x stage).entries.length = p.entries.length + 1 := by simp [Progress.push]
  refine ⟨length ▸ bound, ?_, ?_, ?_, ?_, ?_, ?_⟩
  · show p.rest.tail = instances.drop (p.push x stage).entries.length
    rw [length, ← List.tail_drop, ← h.rest]
  · intro index y inside found
    replace inside : index < p.entries.length + 1 := length ▸ inside
    rcases Nat.lt_succ_iff_lt_or_eq.mp inside with earlier | rfl
    · refine (h.accounted index y earlier found).frame (List.getElem?_append_left earlier) rfl ?_
      intro t at_
      refine List.mem_append.trans (or_iff_left fun new => ?_)
      rw [indices t new] at at_
      exact Nat.ne_of_gt earlier at_
    · rw [here] at found
      cases found
      exact account
  · rw [List.map_append, List.nodup_append]
    refine ⟨h.distinct, distinct, fun index old other new => ?_⟩
    obtain ⟨t, member, rfl⟩ := List.mem_map.mp old
    obtain ⟨u, added, rfl⟩ := List.mem_map.mp new
    rw [indices u added]
    exact Nat.ne_of_lt (h.tasks t member)
  · intro t member
    show t.index < (p.push x stage).entries.length
    rw [length]
    rcases List.mem_append.mp member with old | new
    · exact Nat.lt_succ_of_lt (h.tasks t old)
    · rw [indices t new]
      exact Nat.lt_succ_self _
  · intro e member
    show e.1 < (p.push x stage).entries.length
    rw [length]
    exact Nat.lt_succ_of_lt (h.events e member)
  · show p.rejected ++ _ = []
    rw [h.rejected, ReportEntry.rejection?_of_leadsTo leads]
    rfl

theorem leaveOut {x : Instance} {rest : List Instance} (h : Tracked s instances p)
    (next : p.rest = x :: rest) (excluded : s.exclusion.excludes x.displayPath = true) :
    Tracked s instances (p.push x .excluded) := by
  have pushed : { p.push x .excluded with tasks := p.tasks ++ [] } = p.push x .excluded := by
    rw [List.append_nil]
    rfl
  rw [← pushed]
  refine h.push next rfl (fun t member => by cases member) List.nodup_nil ?_
  rw [pushed]
  refine .leftOut excluded List.getElem?_concat_length (Progress.eventsOf_eq_nil h.events) ?_
  exact fun t member => Nat.ne_of_lt (h.tasks t member)

theorem spawn {x : Instance} {rest : List Instance} (h : Tracked s instances p)
    (next : p.rest = x :: rest) (kept : s.exclusion.excludes x.displayPath = false) :
    Tracked s instances ((p.spawn x).push x .evaluating) := by
  refine h.push next rfl (fun t member => by rw [List.mem_singleton.mp member]) (List.nodup_singleton _) ?_
  exact .live kept (List.mem_append_right _ (List.mem_singleton_self _)) List.getElem?_concat_length
    (Progress.eventsOf_eq_nil h.events)

theorem task {t : Task} (h : Tracked s instances p) (member : t ∈ p.tasks) :
    s.exclusion.excludes t.subject.displayPath = false ∧ instances[t.index]? = some t.subject ∧
      p.entries[t.index]? = some ⟨t.subject.displayPath, .evaluating⟩ ∧
      s.Past t.index t.subject t.phase (p.eventsOf t.index) := by
  have inside := h.tasks t member
  have found := List.getElem?_eq_getElem (Nat.lt_of_lt_of_le inside h.passed)
  cases h.accounted t.index _ inside found with
  | leftOut _ _ _ taskless => exact absurd rfl (taskless t member)
  | joined _ taskless _ _ => exact absurd rfl (taskless t member)
  | live kept other entry past =>
    have same := List.inj_on_of_nodup_map h.distinct member other rfl
    rw [same]
    exact ⟨kept, found, entry, past⟩

theorem turn {before after : List Task} {t : Task} {events : List Event} {phase : Phase}
    (h : Tracked s instances p) (free : Option Nat) (tasks : p.tasks = before ++ t :: after)
    (turn : s.Turn t.index t.subject t.phase events phase) :
    Tracked s instances { p with
      tasks := before ++ { t with phase } :: after
      free
      events := p.events ++ events.map (t.index, ·) } := by
  have indices : (before ++ { t with phase } :: after).map (·.index) = p.tasks.map (·.index) := by
    simp [tasks]
  have member : t ∈ p.tasks := tasks ▸ List.mem_append_right _ List.mem_cons_self
  refine ⟨h.passed, h.rest, ?_, indices ▸ h.distinct, ?_, ?_, h.rejected⟩
  · intro index x inside found
    have seen := p.eventsOf_append t.index index events
    by_cases same : t.index = index
    · subst same
      obtain ⟨kept, subject, entry, past⟩ := h.task member
      rw [subject] at found
      cases found
      refine .live kept (List.mem_append_right _ List.mem_cons_self) entry ?_
      show s.Past _ _ _ ({ p with events := p.events ++ events.map (t.index, ·) }.eventsOf t.index)
      rw [seen, if_pos rfl]
      exact past.turn turn
    · rw [if_neg same, List.append_nil] at seen
      refine (h.accounted index x inside found).frame rfl seen fun u at_ => ?_
      have other : u ≠ t := by
        rintro rfl
        exact same at_
      have moved : u ≠ { t with phase } := by
        rintro rfl
        exact same at_
      simp [tasks, other, moved]
  · intro u inside
    have old : u.index ∈ p.tasks.map (·.index) := indices ▸ List.mem_map_of_mem inside
    obtain ⟨v, member, eq⟩ := List.mem_map.mp old
    exact eq ▸ h.tasks v member
  · intro e seen
    rcases List.mem_append.mp seen with old | new
    · exact h.events e old
    · obtain ⟨_, _, rfl⟩ := List.mem_map.mp new
      exact h.tasks t member

theorem join {before after : List Task} {t : Task} {result : Option Stage} (h : Tracked s instances p)
    (tasks : p.tasks = before ++ t :: after) (ended : t.phase = .finished result) :
    Tracked s instances ({ p with tasks := before ++ after }.record t.index result) := by
  have member : t ∈ p.tasks := tasks ▸ List.mem_append_right _ List.mem_cons_self
  have remains : ∀ u ∈ before ++ after, u ∈ p.tasks := by
    intro u left
    rw [tasks]
    rcases List.mem_append.mp left with first | last
    · exact List.mem_append_left _ first
    · exact List.mem_append_right _ (List.mem_cons_of_mem _ last)
  have ⟨kept, subject, entry, past⟩ := h.task member
  rw [ended] at past
  have leads : ∀ stage ∈ result, Stage.evaluating.leadsTo stage = true := by
    rintro stage rfl
    rcases past.1 with ending | ⟨lost, _⟩
    · cases ending
      exact s.evaluating_leadsTo_ending _ _
    · cases lost
  have distinct := h.distinct
  rw [tasks, List.map_append, List.map_cons, List.nodup_middle, List.nodup_cons, ← List.map_append] at distinct
  have ⟨here, unrejected⟩ := Progress.record_here (p := { p with tasks := before ++ after }) entry leads
  refine ⟨by simpa using h.passed, by simpa using h.rest, ?_, by simpa using distinct.2, ?_, ?_,
    unrejected.trans h.rejected⟩
  · intro index x inside found
    rw [Progress.length_entries_record] at inside
    have events : ({ p with tasks := before ++ after }.record t.index result).eventsOf index =
        p.eventsOf index := by
      simp only [Progress.eventsOf, Progress.record_events]
    by_cases same : t.index = index
    · subst same
      rw [subject] at found
      cases found
      refine .joined kept ?_ here (events ▸ past)
      intro u left at_
      rw [Progress.record_tasks] at left
      exact distinct.1 (List.mem_map.mpr ⟨u, left, at_⟩)
    · refine (h.accounted index x inside found).frame (Progress.record_other _ _ same) events fun u at_ => ?_
      have other : u ≠ t := by
        rintro rfl
        exact same at_
      simp [tasks, other]
  · intro u left
    rw [Progress.record_tasks] at left
    rw [Progress.length_entries_record]
    exact h.tasks u (remains u left)
  · intro e seen
    rw [Progress.record_events] at seen
    rw [Progress.length_entries_record]
    exact h.events e seen

/-- Every step keeps what is tracked. -/
theorem step (h : Tracked s instances p) (step : s.Step p q) : Tracked s instances q := by
  cases step with
  | leaveOut next excluded => exact h.leaveOut next excluded
  | spawn next kept => exact h.spawn next kept
  | turn tasks turn _ => exact h.turn _ tasks turn
  | join _ tasks ended => exact h.join tasks ended

end Tracked

theorem Scheduler.Reaches.tracked (run : s.Reaches instances p) : Tracked s instances p := by
  induction run with
  | start =>
    exact ⟨Nat.zero_le _, rfl, fun _ _ inside _ => absurd inside (Nat.not_lt_zero _), List.nodup_nil,
      fun _ member => (by cases member), fun _ member => (by cases member), rfl⟩
  | step _ step tracked => exact tracked.step step

namespace Progress

theorem swept_entry {index : Nat} {displayPath : String} {stage : Stage}
    (entry : p.entries[index]? = some ⟨displayPath, stage⟩) :
    p.swept.entries[index]? = some ⟨displayPath, if stage = .evaluating then .aborted else stage⟩ := by
  simp only [swept, List.getElem?_map, entry, Option.map_some]
  by_cases left : stage = .evaluating
  · subst left
    rfl
  · simp only [left, if_false]

/-- Ending an entry that is being evaluated is never refused. -/
theorem swept_rejected : p.swept.rejected = p.rejected := by
  refine List.append_right_eq_self.mpr (List.filterMap_eq_nil_iff.mpr ?_)
  intro e waiting
  have evaluating := eq_of_beq (List.mem_filter.mp waiting).2
  exact ReportEntry.rejection?_of_leadsTo (by rw [evaluating]; rfl)

end Progress

/-- The stage and the events a run leaves behind for one instance. -/
theorem Accounted.settled {index : Nat} {x : Instance} (h : Accounted s p index x)
    (joined : p.tasks = []) :
    p.swept.entries[index]? = some ⟨x.displayPath,
        if s.exclusion.excludes x.displayPath then .excluded else s.ending index x⟩ ∧
      p.swept.eventsOf index = if s.exclusion.excludes x.displayPath then [] else s.script index x := by
  cases h with
  | leftOut excluded entry seen _ =>
    simp only [excluded, if_true]
    exact ⟨Progress.swept_entry entry, seen⟩
  | live _ task _ _ =>
    rw [joined] at task
    cases task
  | @joined result kept _ entry past =>
    simp only [kept, Bool.false_eq_true, if_false]
    refine ⟨(Progress.swept_entry entry).trans ?_, past.2⟩
    rcases past.1 with rfl | ⟨rfl, aborted⟩
    · have ended : s.ending index x ≠ .evaluating := by
        intro evaluating
        have follows := s.evaluating_leadsTo_ending index x
        rw [evaluating] at follows
        exact absurd follows Bool.false_ne_true
      simp only [Option.getD_some, ended, if_false]
    · simp only [Option.getD_none, if_true, aborted]

theorem Report.total_eq_sum {r : Report} (h : ∀ e ∈ r.entries, e.stage.isTerminal = true) :
    r.total = r.count .succeeded + r.count .failed + r.count .excluded + r.count .aborted := by
  obtain ⟨entries⟩ := r
  simp only [total, count]
  induction entries with
  | nil => rfl
  | cons e entries ih =>
    obtain ⟨terminal, others⟩ := List.forall_mem_cons.mp h
    have sum := ih others
    obtain ⟨displayPath, stage⟩ := e
    cases stage <;> first
      | exact absurd terminal Bool.false_ne_true
      | (simp at sum ⊢; omega)

/-- What a run that is over tells of one instance, and the calls that were made for it. -/
structure Settled (s : Scheduler) (r : Progress) (index : Nat) (x : Instance) (stage : Stage) : Prop where
  entry : r.entries[index]? = some ⟨x.displayPath, stage⟩
  excluded_iff : stage = .excluded ↔ s.exclusion.excludes x.displayPath = true
  succeeded_iff : stage = .succeeded ↔ s.exclusion.excludes x.displayPath = false ∧
    ∃ d, s.evaluate index x = .document d ∧ s.handles index x d = true
  failed_iff : stage = .failed ↔ s.exclusion.excludes x.displayPath = false ∧
    ∃ f, s.evaluate index x = .failure f
  aborted_iff : stage = .aborted ↔ s.exclusion.excludes x.displayPath = false ∧
    (s.evaluate index x = .crash ∨ ∃ d, s.evaluate index x = .document d ∧ s.handles index x d = false)
  evaluated : (r.eventsOf index).filterMap Event.evaluation? =
    if s.exclusion.excludes x.displayPath then [] else [x]
  handed : (r.eventsOf index).filterMap Event.handing? =
    if s.exclusion.excludes x.displayPath then []
    else match s.evaluate index x with
      | .document d => [(x, d)]
      | _ => []
  told : (r.eventsOf index).filterMap Event.diagnostic? =
    if s.exclusion.excludes x.displayPath then []
    else match s.evaluate index x with
      | .failure f => [.failed x.displayPath f]
      | _ => []

theorem Settled.intro {r : Progress} {index : Nat} {x : Instance}
    (entry : r.entries[index]? = some ⟨x.displayPath,
      if s.exclusion.excludes x.displayPath then .excluded else s.ending index x⟩)
    (seen : r.eventsOf index = if s.exclusion.excludes x.displayPath then [] else s.script index x) :
    Settled s r index x (if s.exclusion.excludes x.displayPath then .excluded else s.ending index x) := by
  cases excluded : s.exclusion.excludes x.displayPath with
  | true =>
    simp only [excluded, if_true] at entry seen ⊢
    constructor <;> simp [entry, seen, excluded]
  | false =>
    simp only [excluded, Bool.false_eq_true, if_false] at entry seen ⊢
    constructor
    · exact entry
    · simp [excluded, s.ending_ne_excluded]
    · simp [excluded, s.ending_eq_succeeded_iff]
    · simp [excluded, s.ending_eq_failed_iff]
    · simp [excluded, s.ending_eq_aborted_iff]
    all_goals
      rw [seen, Scheduler.script, excluded]
      cases s.evaluate index x <;> rfl

/-- What a run that is over has of each instance. -/
theorem Scheduler.completed_run_accounts {r : Progress} (run : s.Completes instances r) :
    r.entries.length = instances.length ∧
      (∀ index x, instances[index]? = some x →
        r.entries[index]? = some ⟨x.displayPath,
          if s.exclusion.excludes x.displayPath then .excluded else s.ending index x⟩ ∧
        r.eventsOf index = if s.exclusion.excludes x.displayPath then [] else s.script index x) ∧
      (∀ e ∈ r.events, e.1 < instances.length) ∧ r.rejected = [] := by
  cases run with
  | @intro p reached passed joined =>
    have tracked := reached.tracked
    have length : p.entries.length = instances.length := by
      refine Nat.le_antisymm tracked.passed (List.drop_eq_nil_iff.mp ?_)
      rw [← tracked.rest, passed]
    refine ⟨(List.length_map _).trans length, fun index x found => ?_,
      fun e seen => length ▸ tracked.events e seen, Progress.swept_rejected.trans tracked.rejected⟩
    have inside := (List.getElem?_eq_some_iff.mp found).1
    exact (tracked.accounted index x (length ▸ inside) found).settled joined

/-- A run that is over has one entry for each instance, in their order, which tells how its own calls
    ended; each call was made once and by the task it belongs to, and no stage was refused. -/
theorem Scheduler.completed_run_accounts_for_every_instance {r : Progress} (run : s.Completes instances r) :
    r.entries.length = instances.length ∧
      (∀ index x, instances[index]? = some x → ∃ stage, Settled s r index x stage) ∧
      (∀ e ∈ r.events, e.1 < instances.length) ∧ r.rejected = [] ∧
      r.report.total = r.report.count .succeeded + r.report.count .failed + r.report.count .excluded +
        r.report.count .aborted := by
  obtain ⟨length, settled, events, rejected⟩ := completed_run_accounts run
  refine ⟨length, fun index x found => ⟨_, Settled.intro (settled index x found).1 (settled index x found).2⟩,
    events, rejected, Report.total_eq_sum fun e member => ?_⟩
  obtain ⟨index, inside, rfl⟩ := List.getElem_of_mem member
  have found := List.getElem?_eq_getElem (l := instances) (i := index) (length ▸ inside)
  have entry := (List.getElem?_eq_getElem inside).symm.trans (settled index _ found).1
  rw [Option.some.inj entry]
  show Stage.isTerminal (if _ then _ else _) = true
  split
  · rfl
  · exact Stage.isTerminal_of_follows (s.evaluating_leadsTo_ending index _)

/-- Two instances with one display path, the second of which breaks off and is lost, around one that is
    left out. -/
theorem Scheduler.completed_run_accounts_for_lost_twin :
    let s : Scheduler :=
      { exclusion := ⟨some ("x", .set (.single 'x'))⟩
        evaluate := fun index _ => if index = 0 then .document .null else .crash
        handles := fun _ _ _ => true
        permits := some 1 }
    let twin : Instance := { displayPath := "./a", package := "p" }
    let excluded : Instance := { displayPath := "./x", package := "p" }
    ∃ r, s.Completes [twin, excluded, twin] r ∧ r.rejected = [] ∧
      (∃ stage, Settled s r 2 twin stage) ∧ r.report.entries.map (·.stage) = [.succeeded, .excluded, .aborted] := by
  intro s twin excluded
  have out : s.exclusion.excludes "./x" = true := by decide
  have kept : s.exclusion.excludes "./a" = false := by decide
  have reached : s.Reaches [twin, excluded, twin] (s.start [twin, excluded, twin]) := .start
  replace reached := reached.step (.spawn rfl kept)
  replace reached := reached.step (.leaveOut rfl out)
  replace reached := reached.step (.spawn rfl kept)
  -- The later task takes the permit first.
  replace reached := reached.step (.turn (show _ = [_] ++ _ :: _ from rfl) .start rfl)
  replace reached := reached.step (.turn (show _ = [_] ++ _ :: _ from rfl) (.crash rfl) rfl)
  replace reached := reached.step (.turn (show _ = [_] ++ _ :: _ from rfl) .lost rfl)
  replace reached := reached.step (.turn (show _ = [] ++ _ :: _ from rfl) .start rfl)
  replace reached := reached.step (.join rfl (show _ = [_] ++ _ :: _ from rfl) rfl)
  replace reached := reached.step (.turn (show _ = [] ++ _ :: _ from rfl) (.document rfl) rfl)
  replace reached := reached.step (.turn (show _ = [] ++ _ :: _ from rfl) (.handled rfl) rfl)
  replace reached := reached.step (.turn (show _ = [] ++ _ :: _ from rfl) .finish rfl)
  replace reached := reached.step (.join rfl (show _ = [] ++ _ :: _ from rfl) rfl)
  have completed : s.Completes [twin, excluded, twin] _ := .intro reached rfl rfl
  obtain ⟨_, settled, _, rejected, _⟩ := Scheduler.completed_run_accounts_for_every_instance completed
  exact ⟨_, completed, rejected, settled 2 twin rfl, rfl⟩

end StackLattice
