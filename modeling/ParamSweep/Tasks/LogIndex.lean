import ParamSweep.Batch.Status
import ParamSweep.Files.Tree

/-!
Where the tasks of a submission log to.

```text
<root>/sub_<stamp>/<job>/array_<task>/
```

Only the submission with the greatest name counts. A task may have directories of several jobs: the
one of the wanted batch goes first, then the one of the greatest job.
-/

namespace ParamSweep

/-- A directory of a task's logs. -/
structure TaskLogDir where
  /-- Whether its job is the wanted batch. -/
  preferred : Bool
  job : Nat
  task : Nat
  jobName : String
  taskName : String
  deriving DecidableEq, Inhabited

namespace TaskLogDir

/-- The order in which later directories go before earlier ones. -/
def le (a b : TaskLogDir) : Bool :=
  if a.preferred ≠ b.preferred then b.preferred
  else if a.job ≠ b.job then a.job < b.job
  else if a.task ≠ b.task then a.task < b.task
  else if a.jobName ≠ b.jobName then a.jobName < b.jobName
  else a.taskName ≤ b.taskName

/-- The path of a directory of the submission `dir`. -/
def path (dir : String) (d : TaskLogDir) : String :=
  Path.join (Path.join dir d.jobName) d.taskName

end TaskLogDir

/-- The directories of the tasks of the latest submission. -/
structure TaskLogIndex where
  submissionDir : Option String := none
  dirs : List (Nat × String) := []
  deriving Inhabited

/-- The names of the directories in the one at a path, as it enumerates them. -/
def directoryNames (t : FileTree) (path : String) : List String :=
  match t.list path with
  | .ok entries => (entries.filter (·.2.isDir)).map (·.1)
  | .error _ => []

/-- The greatest of some names. -/
def greatest? : List String → Option String
  | [] => none
  | name :: rest =>
    match greatest? rest with
    | some other => if other ≤ name then some name else some other
    | none => some name

/-- The directory of the latest submission. -/
def latestSubmissionDir (t : FileTree) (root : String) : Option String :=
  let names := (directoryNames t root).filter fun name =>
    name.startsWith "sub_" && t.isDir (Path.join root name)
  (greatest? names).map (Path.join root)

namespace TaskLogIndex

/-- The task that the name of a directory is for. -/
def taskOfName? (name : String) : Option Nat :=
  (dropStart? "array_".toList name.toList).bind wordOfDigits?

/-- The directories of tasks in the directory of a job. -/
def candidatesOf (t : FileTree) (dir : String) (preferred : Option Nat) (jobName : String) :
    List TaskLogDir :=
  match wordOfDigits? jobName.toList with
  | none => []
  | some job => (directoryNames t (Path.join dir jobName)).filterMap fun taskName =>
    (taskOfName? taskName).map fun task => ⟨some job == preferred, job, task, jobName, taskName⟩

/-- The directories of tasks in the directory of a submission. -/
def candidates (t : FileTree) (dir : String) (preferred : Option Nat) : List TaskLogDir :=
  (directoryNames t dir).flatMap (candidatesOf t dir preferred)

/-- The directory of a task set. -/
def setDir (task : Nat) (dir : String) : List (Nat × String) → List (Nat × String)
  | [] => [(task, dir)]
  | (t, d) :: rest =>
    if task < t then (task, dir) :: (t, d) :: rest
    else if task = t then (task, dir) :: rest
    else (t, d) :: setDir task dir rest

/-- The index of the latest submission below a root. -/
def discover (t : FileTree) (root : String) (batch : Option BatchHandle) : TaskLogIndex :=
  match latestSubmissionDir t root with
  | none => {}
  | some dir =>
    let preferred := batch.bind fun b => wordOfDigits? b.id.toList
    let found := (candidates t dir preferred).mergeSort TaskLogDir.le
    { submissionDir := some dir,
      dirs := found.foldl (fun dirs c => setDir c.task (c.path dir) dirs) [] }

/-- The directory of a task. -/
def taskDir? (i : TaskLogIndex) (task : Nat) : Option String := i.dirs.lookup task

/-- The number of tasks that have a directory. -/
def size (i : TaskLogIndex) : Nat := i.dirs.length

/-- Whether no task has a directory. -/
def isEmpty (i : TaskLogIndex) : Bool := i.dirs.isEmpty

end TaskLogIndex

end ParamSweep
