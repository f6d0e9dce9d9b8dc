import ParamSweep.Batch.Handle
import ParamSweep.Value.Basic
import ParamSweep.Decimal.Read

/-!
What the scheduler says about the tasks of a batch.

Its accounting is a list of lines `<batch>_<task>|<state>`. `accountedStates` reads it into a table
from tasks to states, `TaskStatus.ofState` tells what a state means, and `StatusReport.build` lays
the table over the list of runs.
-/

namespace ParamSweep

/-- How far a task is. -/
inductive TaskStatus where
  | completed
  | failed
  | running
  | pending
  | other
  deriving DecidableEq, Inhabited, Repr

namespace TaskStatus

/-- All of them, in the order of reports. -/
def all : List TaskStatus := [.completed, .failed, .running, .pending, .other]

/-- The name of a status. -/
def name : TaskStatus → String
  | .completed => "COMPLETED"
  | .failed => "FAILED"
  | .running => "RUNNING"
  | .pending => "PENDING"
  | .other => "OTHER"

/-- A letter from `a` to `z` as a capital. -/
def capital (c : Char) : Char := if 'a' ≤ c && c ≤ 'z' then c.toUpper else c

/-- What a state of the scheduler means; its words may stand anywhere in it, in letters of either
kind. -/
def ofState (state : String) : TaskStatus :=
  let s := String.ofList (state.toList.map capital)
  if Text.hasPart "COMPLETED" s then .completed
  else if Text.hasPart "FAILED" s || Text.hasPart "CANCELLED" s || Text.hasPart "TIMEOUT" s then
    .failed
  else if Text.hasPart "PENDING" s then .pending
  else if Text.hasPart "RUNNING" s then .running
  else .other

end TaskStatus

/-- The states of tasks, in ascending order of the tasks. -/
abbrev TaskStates := List (Nat × String)

namespace TaskStates

/-- The table with the state of a task set. -/
def insert (task : Nat) (state : String) : TaskStates → TaskStates
  | [] => [(task, state)]
  | (t, s) :: rest =>
    if task < t then (task, state) :: (t, s) :: rest
    else if task = t then (task, state) :: rest
    else (t, s) :: insert task state rest

/-- The state of a task. -/
def state? (task : Nat) (states : TaskStates) : Option String := List.lookup task states

end TaskStates

/-- The natural number that a text of digits denotes, where it fits 64 bits. -/
def wordOfDigits? (digits : List Char) : Option Nat :=
  if digits.isEmpty || !digits.all Char.isDigit then none
  else
    let n := Decimal.natural digits
    if n ≤ Decimal.wordLimit then some n else none

/-- The text behind `part` where a text starts with it. -/
def dropStart? (part cs : List Char) : Option (List Char) :=
  if Text.startsWith part cs then some (cs.drop part.length) else none

/-- The task and the state that a line of the accounting of a batch tells of. -/
def accountedState? (batch : BatchHandle) (line : List Char) : Option (Nat × String) := do
  let (token, behind) ← Text.splitOnce '|' (Text.trim line)
  let digits ← dropStart? (batch.id.toList ++ ['_']) (Text.trim token)
  let task ← wordOfDigits? digits
  some (task, String.ofList (Text.trim (behind.takeWhile (· ≠ '|'))))

/-- The states in an accounting of a batch. Of several lines for a task the last one counts, and
lines of any other form are passed over. -/
def accountedStates (batch : BatchHandle) (accounting : String) : TaskStates :=
  ((Text.lines accounting.toList).filterMap (accountedState? batch)).foldl
    (fun states p => states.insert p.1 p.2) []

/-- What a report on tasks is based on. -/
inductive StatusSource where
  | accounting
  /-- There was no accounting, and the batch was in the queue. -/
  | queuedNotYetAccounted
  /-- There was no accounting, and the batch was not in the queue. -/
  | assumedCompleted
  deriving DecidableEq, Inhabited

/-- The name of a source. -/
def StatusSource.name : StatusSource → String
  | .accounting => "accounting"
  | .queuedNotYetAccounted => "queued_not_yet_accounted"
  | .assumedCompleted => "assumed_completed"

/-- A task of a batch: the number of its run, which counts from one. -/
structure TaskReport where
  task : Nat
  run : String
  status : TaskStatus
  state : Option String
  deriving Inhabited

/-- The tasks of a batch. -/
structure StatusReport where
  batch : BatchHandle
  tasks : List TaskReport
  source : StatusSource

namespace StatusReport

/-- The tasks of a list of runs, from the task `first` on. -/
def tasksFrom (states : TaskStates) (fill : TaskStatus) (first : Nat) :
    List String → List TaskReport
  | [] => []
  | run :: rest =>
    let state := states.state? first
    ⟨first, run, (state.map TaskStatus.ofState).getD fill, state⟩ ::
      tasksFrom states fill (first + 1) rest

/-- The report on the runs of a batch; `fill` is the status of a run that has no state. -/
def build (batch : BatchHandle) (runs : List String) (states : TaskStates) (fill : TaskStatus)
    (source : StatusSource) : StatusReport :=
  ⟨batch, tasksFrom states fill 1 runs, source⟩

/-- The number of tasks. -/
def total (r : StatusReport) : Nat := r.tasks.length

/-- The number of tasks of a status. -/
def count (status : TaskStatus) (r : StatusReport) : Nat :=
  r.tasks.countP fun t => t.status == status

/-- The runs that failed, in order. -/
def failedRuns (r : StatusReport) : List String :=
  (r.tasks.filter fun t => t.status == .failed).map TaskReport.run

/-- Whether every task has come to an end. -/
def isFinished (r : StatusReport) : Bool :=
  r.count .completed + r.count .failed == r.total && r.count .pending == 0 && r.count .running == 0

/-- The counts on a line. -/
def summary (r : StatusReport) : String :=
  Text.joined " " (TaskStatus.all.map fun s => s.name ++ "=" ++ toString (r.count s))

/-- The report as a value. -/
def toValue (r : StatusReport) : Value :=
  .record
    [("batch", .str r.batch.id), ("total", .nat r.total),
     ("counts", .record (TaskStatus.all.map fun s => (s.name, .nat (r.count s)))),
     ("failed_run_names", .strings r.failedRuns),
     ("tasks", .list (r.tasks.map fun t =>
        .record
          [("task_id", .nat t.task), ("run_name", .str t.run), ("status", .str t.status.name),
           ("raw_state", .ofOption .str t.state)])),
     ("source", .str r.source.name)]

end StatusReport

end ParamSweep
