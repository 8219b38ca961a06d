import StackLattice.Run.Schedule

/-!
The tasks of a run, one step at a time and in any order. A scheduler goes over the instances and starts a
task for each that is not left out; the tasks take turns in any way their permits allow, and once the
last instance is passed their results are written back by index, in the order the tasks happen to end.
-/

namespace StackLattice

/-- The mistake of entering a stage, if there is one. -/
def ReportEntry.rejection? (e : ReportEntry) (stage : Stage) : Option StageError :=
  match e.enter stage with
  | .ok _ => none
  | .error r => some r

/-- What is seen of a task from outside. -/
inductive Event
  /-- The evaluator is called. -/
  | evaluated (i : Instance)
  /-- The handler is called. -/
  | handed (i : Instance) (d : Document)
  | told (d : Diagnostic)

namespace Event

def evaluation? : Event → Option Instance
  | evaluated i => some i
  | _ => none

def handing? : Event → Option (Instance × Document)
  | handed i d => some (i, d)
  | _ => none

def diagnostic? : Event → Option Diagnostic
  | told d => some d
  | _ => none

end Event

/-- How far a task has come. -/
inductive Phase
  | waiting
  | evaluating
  | handling (d : Document)
  | reporting (f : Failure)
  /-- Evaluating and handling are over or broke off; the permit is still held. -/
  | ended (stage : Stage)
  /-- The task is over; it has no result when it was lost. -/
  | finished (result : Option Stage)

def Phase.holdsPermit : Phase → Bool
  | waiting | finished _ => false
  | evaluating | handling _ | reporting _ | ended _ => true

structure Task where
  /-- The position of the entry that the result is for. -/
  index : Nat
  subject : Instance
  phase : Phase := .waiting

/-- How the calls made for each position end, and how many permits there are. Without a number of them a
    task never waits for one. -/
structure Scheduler where
  exclusion : Exclusion
  evaluate : Nat → Instance → Outcome
  /-- Whether the handler comes to an end. -/
  handles : Nat → Instance → Document → Bool
  permits : Option Nat

namespace Scheduler

/-- What a task does next, and what is seen of it. -/
inductive Turn (s : Scheduler) (index : Nat) (x : Instance) : Phase → List Event → Phase → Prop
  | start : s.Turn index x .waiting [.evaluated x] .evaluating
  | document {d : Document} (result : s.evaluate index x = .document d) :
    s.Turn index x .evaluating [.handed x d] (.handling d)
  | failure {f : Failure} (result : s.evaluate index x = .failure f) :
    s.Turn index x .evaluating [] (.reporting f)
  | crash (result : s.evaluate index x = .crash) : s.Turn index x .evaluating [] (.ended .aborted)
  | handled {d : Document} (returns : s.handles index x d = true) :
    s.Turn index x (.handling d) [] (.ended .succeeded)
  | handlerCrash {d : Document} (breaks : s.handles index x d = false) :
    s.Turn index x (.handling d) [] (.ended .aborted)
  | told {f : Failure} :
    s.Turn index x (.reporting f) [.told (.failed x.displayPath f)] (.ended .failed)
  | finish {stage : Stage} : s.Turn index x (.ended stage) [] (.finished (some stage))
  /-- A task that broke off may be lost instead of telling so. -/
  | lost : s.Turn index x (.ended .aborted) [] (.finished none)

/-- The free permits after a task went from one phase to another; none when it has to wait for one. -/
def permitsAfter (free : Option Nat) (before after : Phase) : Option (Option Nat) :=
  match before.holdsPermit, after.holdsPermit, free with
  | _, _, none => some none
  | false, true, some 0 => none
  | false, true, some (n + 1) => some (some n)
  | true, false, some n => some (some (n + 1))
  | _, _, some n => some (some n)

end Scheduler

/-- A run that is going on. -/
structure Progress where
  /-- The instances that were not passed yet. -/
  rest : List Instance
  entries : List ReportEntry := []
  /-- The tasks whose results were not written back yet. -/
  tasks : List Task := []
  free : Option Nat
  /-- What was seen of the tasks, with the index of the task. -/
  events : List (Nat × Event) := []
  /-- The changes of stage that were not made. -/
  rejected : List StageError := []

namespace Progress

variable (p : Progress)

/-- Adds the entry of the next instance in its first stage after loading. -/
def push (x : Instance) (stage : Stage) : Progress :=
  let entry : ReportEntry := ⟨x.displayPath, .loaded⟩
  { p with
    rest := p.rest.tail
    entries := p.entries ++ [entry.advance stage]
    rejected := p.rejected ++ (entry.rejection? stage).toList }

def spawn (x : Instance) : Progress :=
  { p with tasks := p.tasks ++ [{ index := p.entries.length, subject := x }] }

/-- Writes the result of a task back. A lost task has none. -/
def record (index : Nat) : Option Stage → Progress
  | none => p
  | some stage =>
    { p with
      entries := p.entries.modify index (·.advance stage)
      rejected := p.rejected ++ (p.entries[index]?.bind (·.rejection? stage)).toList }

/-- Ends the entries that no task reported for. -/
def swept : Progress :=
  { p with
    entries := p.entries.map fun e => if e.stage = .evaluating then e.advance .aborted else e
    rejected := p.rejected ++
      (p.entries.filter (·.stage == .evaluating)).filterMap (·.rejection? .aborted) }

def report : Report := ⟨p.entries⟩

def eventsOf (index : Nat) : List Event := (p.events.filter (·.1 == index)).map (·.2)

def diagnostics : List Diagnostic := p.events.filterMap (·.2.diagnostic?)

end Progress

namespace Scheduler

def start (s : Scheduler) (instances : List Instance) : Progress :=
  { rest := instances, free := s.permits }

inductive Step (s : Scheduler) : Progress → Progress → Prop
  | leaveOut {p : Progress} {x : Instance} {rest : List Instance} (next : p.rest = x :: rest)
    (excluded : s.exclusion.excludes x.displayPath = true) : s.Step p (p.push x .excluded)
  | spawn {p : Progress} {x : Instance} {rest : List Instance} (next : p.rest = x :: rest)
    (kept : s.exclusion.excludes x.displayPath = false) : s.Step p ((p.spawn x).push x .evaluating)
  | turn {p : Progress} {before after : List Task} {t : Task} {events : List Event} {phase : Phase}
    {free : Option Nat} (tasks : p.tasks = before ++ t :: after)
    (turn : s.Turn t.index t.subject t.phase events phase)
    (permits : permitsAfter p.free t.phase phase = some free) :
    s.Step p { p with
      tasks := before ++ { t with phase } :: after
      free
      events := p.events ++ events.map (t.index, ·) }
  | join {p : Progress} {before after : List Task} {t : Task} {result : Option Stage}
    (passed : p.rest = []) (tasks : p.tasks = before ++ t :: after) (ended : t.phase = .finished result) :
    s.Step p ({ p with tasks := before ++ after }.record t.index result)

/-- The states a run on the instances can be in. -/
inductive Reaches (s : Scheduler) (instances : List Instance) : Progress → Prop
  | start : s.Reaches instances (s.start instances)
  | step {p q : Progress} (run : s.Reaches instances p) (step : s.Step p q) : s.Reaches instances q

/-- What a run can leave behind: every instance was passed, every task joined, and the entries without a
    result are ended. -/
inductive Completes (s : Scheduler) (instances : List Instance) : Progress → Prop
  | intro {p : Progress} (run : s.Reaches instances p) (passed : p.rest = []) (joined : p.tasks = []) :
    s.Completes instances p.swept

end Scheduler

end StackLattice
