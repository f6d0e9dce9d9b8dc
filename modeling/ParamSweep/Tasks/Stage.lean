import ParamSweep.Batch.Status
import ParamSweep.Files.Tree
import ParamSweep.Plan.Basic
import ParamSweep.Text.Case

/-!
How far a task is, by its logs.

A task has up to three logs, of building, starting and running the program. `StageInfo.ofLogs` is
the judgement on their texts: a marker of failure in any of them decides, otherwise the log of the
most advanced stage does.
-/

namespace ParamSweep

/-- A stage of a task. -/
inductive Stage where
  | initializing
  | build
  | buildComplete
  | start
  | startComplete
  | run
  | completed
  | failed
  | pending
  | unknown
  deriving DecidableEq, Inhabited

namespace Stage

/-- All of them, in the order of reports. -/
def all : List Stage :=
  [.initializing, .build, .buildComplete, .start, .startComplete, .run, .completed, .failed,
   .pending, .unknown]

/-- The name of a stage. -/
def name : Stage → String
  | .initializing => "initializing"
  | .build => "build"
  | .buildComplete => "build_complete"
  | .start => "start"
  | .startComplete => "start_complete"
  | .run => "run"
  | .completed => "completed"
  | .failed => "failed"
  | .pending => "pending"
  | .unknown => "unknown"

end Stage

/-- What is known of the stage of a task. -/
structure StageInfo where
  stage : Stage
  detail : String
  iteration : Option Nat := none
  failedLog : Option String := none
  errorTail : Option (List String) := none
  deriving DecidableEq, Inhabited

/-- A log of a task. -/
structure TaskLog where
  path : String
  text : String
  deriving DecidableEq, Inhabited

/-- The logs of a task that are there. -/
structure TaskLogs where
  run : Option TaskLog := none
  start : Option TaskLog := none
  build : Option TaskLog := none
  deriving DecidableEq, Inhabited

/-- The last lines of a text. -/
def lastLines (count : Nat) (text : String) : List String :=
  Text.lastOf count (Text.textLines text)

/-- The last lines of a file; a file that cannot be read has none. -/
def tailLines (t : FileTree) (path : String) (count : Nat) : List String :=
  match t.readBytes path with
  | .ok bytes => lastLines count (Text.utf8Lossy bytes)
  | .error _ => []

namespace StageMarkers

/-- Whether a line tells of a failure. -/
def failsIn (m : StageMarkers) (line : String) : Bool :=
  m.error.any (Text.hasPart · line) ||
    m.failureWords.any fun w => Text.hasPart (Text.lower w) (Text.lower line)

/-- Whether some line of a text tells of a failure. -/
def hasError (m : StageMarkers) (text : String) : Bool := (Text.textLines text).any m.failsIn

end StageMarkers

/-- Whether one of the words is in a text, in small or capital letters. -/
def containsAny (words : List String) (text : String) : Bool :=
  words.any fun w => Text.hasPart (Text.lower w) (Text.lower text)

/-- A blank or a tab. -/
def isGap (c : Char) : Bool := c = ' ' || c = '\t'

/-- The number between the gaps that a line starts with. -/
def lineIteration? (line : String) : Option Nat :=
  let behind := line.toList.dropWhile isGap
  let rest := behind.dropWhile Char.isDigit
  if line.toList.head?.any isGap && rest.head?.any isGap then
    wordOfDigits? (behind.takeWhile Char.isDigit)
  else none

/-- The number on the last line that starts with one. -/
def lastIteration? (text : String) : Option Nat :=
  (Text.textLines text).reverse.findSome? lineIteration?

/-- How the log of a run tells of its end: by a line near its end that says nothing else, or by a
word near its end. -/
def runCompletion? (m : StageMarkers) (text : String) : Option String :=
  let standsAlone := (lastLines m.standaloneWindow text).any fun l =>
    Text.lower (Text.trimmed l) == Text.lower m.standaloneDone
  if standsAlone then some "Run completed successfully"
  else if containsAny m.runCompletion (Text.joined "\n" (lastLines m.completionWindow text)) then
    some "Run finished successfully"
  else none

namespace StageInfo

/-- The stage of a task that has no directory yet. -/
def pending : StageInfo := ⟨.pending, "no log directory yet", none, none, none⟩

/-- The stage of a task whose log tells of a failure. -/
def failure (m : StageMarkers) (label : String) (log : TaskLog) : StageInfo :=
  { stage := .failed, detail := label ++ " failed", failedLog := some log.path,
    errorTail := some (lastLines m.errorTailLines log.text) }

/-- The first failure that a log tells of: the run's goes before the start's and that before the
build's. -/
def failure? (m : StageMarkers) (logs : TaskLogs) : Option StageInfo :=
  [("run", logs.run), ("start", logs.start), ("build", logs.build)].findSome? fun (label, log) =>
    log.bind fun log => if m.hasError log.text then some (failure m label log) else none

/-- The stage of a task that runs or has run. -/
def ofRunLog (m : StageMarkers) (text : String) : StageInfo :=
  let iteration := lastIteration? text
  match runCompletion? m text with
  | some detail => { stage := .completed, detail := detail, iteration := iteration }
  | none =>
    { stage := .run,
      detail := match iteration with
        | some n => "iteration " ++ toString n
        | none => "run started",
      iteration := iteration }

/-- The stage of a task that starts or has started. -/
def ofStartLog (m : StageMarkers) (text : String) : StageInfo :=
  if containsAny m.startCompletion text then
    { stage := .startComplete, detail := "initial conditions written" }
  else { stage := .start, detail := "generating initial conditions" }

/-- The stage of a task that builds or has built. -/
def ofBuildLog (m : StageMarkers) (text : String) : StageInfo :=
  if containsAny m.buildCompletion text then
    { stage := .buildComplete, detail := "build finished" }
  else { stage := .build, detail := "compiling" }

/-- The stage of a task with these logs. -/
def ofLogs (m : StageMarkers) (logs : TaskLogs) : StageInfo :=
  match failure? m logs with
  | some info => info
  | none =>
    match logs.run, logs.start, logs.build with
    | some log, _, _ => ofRunLog m log.text
    | none, some log, _ => ofStartLog m log.text
    | none, none, some log => ofBuildLog m log.text
    | none, none, none => { stage := .initializing, detail := "waiting for first log" }

/-- The information as the entries of a record. -/
def entries (i : StageInfo) : List (String × Value) :=
  [("stage", .str i.stage.name), ("iteration", .ofOption .nat i.iteration),
   ("detail", .str i.detail), ("failed_log", .ofOption .str i.failedLog),
   ("error_tail", .ofOption .strings i.errorTail)]

/-- The information as a value. -/
def toValue (i : StageInfo) : Value := .record i.entries

end StageInfo

/-- The log at a path, if it can be read. -/
def TaskLog.read? (t : FileTree) (path : String) : Option TaskLog :=
  match t.readBytes path with
  | .ok bytes => some ⟨path, Text.utf8Lossy bytes⟩
  | .error _ => none

/-- The logs in a directory. -/
def TaskLogs.read (t : FileTree) (names : LogFileNames) (dir : String) : TaskLogs :=
  { run := TaskLog.read? t (Path.join dir names.run),
    start := TaskLog.read? t (Path.join dir names.start),
    build := TaskLog.read? t (Path.join dir names.build) }

/-- The stage of the task that logs to a directory. -/
def inferStage (t : FileTree) (s : MonitorSettings) (dir : Option String) : StageInfo :=
  match dir.filter t.isDir with
  | some dir => StageInfo.ofLogs s.markers (TaskLogs.read t s.logFiles dir)
  | none => { stage := .unknown, detail := "no log directory" }

end ParamSweep
