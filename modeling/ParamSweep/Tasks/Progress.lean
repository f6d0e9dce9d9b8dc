import ParamSweep.Tasks.LogIndex
import ParamSweep.Tasks.Stage
import ParamSweep.Files.Site

/-!
The progress of all tasks of a suite, and the table that shows it.
-/

namespace ParamSweep

/-- The progress of a task. -/
structure TaskProgress where
  task : Nat
  run : String
  logDir : Option String
  info : StageInfo
  deriving Inhabited

/-- The progress of the tasks of a suite. -/
structure ProgressReport where
  submissionDir : Option String
  logDirs : Nat
  tasks : List TaskProgress
  deriving Inhabited

namespace ProgressReport

/-- The progress of a task; one that has no directory is pending. -/
def taskProgress (t : FileTree) (s : MonitorSettings) (index : TaskLogIndex) (task : Nat)
    (run : String) : TaskProgress :=
  let dir := index.taskDir? task
  ⟨task, run, dir, if dir.isSome then inferStage t s dir else StageInfo.pending⟩

/-- The progress of a list of runs, from the task `first` on. -/
def tasksFrom (t : FileTree) (s : MonitorSettings) (index : TaskLogIndex) (first : Nat) :
    List String → List TaskProgress
  | [] => []
  | run :: rest => taskProgress t s index first run :: tasksFrom t s index (first + 1) rest

/-- The progress of the runs of a suite. -/
def collect (t : FileTree) (s : MonitorSettings) (index : TaskLogIndex) (runs : List String) :
    ProgressReport :=
  ⟨index.submissionDir, index.size, tasksFrom t s index 1 runs⟩

/-- The tasks that failed. -/
def failed (r : ProgressReport) : List TaskProgress :=
  r.tasks.filter fun t => t.info.stage == .failed

/-- The number of tasks in a stage. -/
def count (stage : Stage) (r : ProgressReport) : Nat :=
  r.tasks.countP fun t => t.info.stage == stage

/-- The stages that there are tasks in, with their numbers. -/
def stageCounts (r : ProgressReport) : List (Stage × Nat) :=
  (Stage.all.map fun s => (s, r.count s)).filter fun (_, n) => n ≠ 0

/-- The width of the column of run names. -/
def nameWidth (r : ProgressReport) : Nat :=
  r.tasks.foldl (fun w t => max w t.run.utf8ByteSize) 8

/-- A row of the table. -/
def row (width : Nat) (task run stage detail : String) : String :=
  Text.padLeft 5 task ++ "  " ++ Text.padRight width run ++ "  " ++
    Text.padRight 15 stage ++ "  " ++ detail

/-- The lines on a task that failed. -/
def failureLines (t : TaskProgress) : List String :=
  ["--- task " ++ toString t.task ++ " (" ++ t.run ++ ") failed ---"] ++
    (t.info.failedLog.map ("log: " ++ ·)).toList ++
    (t.info.errorTail.getD []).map ("  " ++ ·)

/-- The table, the counts, and the ends of the logs of failed tasks. -/
def lines (r : ProgressReport) : List String :=
  [row r.nameWidth "task" "run" "stage" "detail"] ++
    r.tasks.map (fun t =>
      row r.nameWidth (toString t.task) t.run t.info.stage.name t.info.detail) ++
    ["stages: " ++
      Text.joined " " (r.stageCounts.map fun (s, n) => s.name ++ "=" ++ toString n)] ++
    r.failed.flatMap failureLines

/-- The report as a value. -/
def toValue (r : ProgressReport) : Value :=
  .record
    [("submission_dir", .ofOption .str r.submissionDir), ("log_dirs_found", .nat r.logDirs),
     ("stage_counts", .record (r.stageCounts.map fun (s, n) => (s.name, .nat n))),
     ("tasks", .list (r.tasks.map fun t =>
        .record ([("task_id", .nat t.task), ("run_name", .str t.run),
          ("log_dir", .ofOption .str t.logDir)] ++ t.info.entries)))]

end ProgressReport

end ParamSweep
