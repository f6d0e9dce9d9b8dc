import ParamSweep.CommandLine.Arguments
import ParamSweep.CommandLine.Machine
import ParamSweep.Batch.Submission
import ParamSweep.Experiment.Listing
import ParamSweep.Output.SuiteHealth
import ParamSweep.Suite.Generate
import ParamSweep.Plan.Printer

/-!
Running a command.

A command says what it does line by line, or, where JSON is asked for, keeps silent and answers with
a single value. Every command that is about an experiment begins with a log in a directory that is
stamped with the time.
-/

namespace ParamSweep.CommandLine

/-- How a command ended, apart from errors. -/
inductive Finish where
  /-- Everything is as it should be. -/
  | fine
  /-- The command worked, but what it found is not as it should be. -/
  | bad
  /-- The value to answer with. -/
  | payload (v : Value)
  deriving Inhabited

variable {τ : Type}

/-- The directory of the log of a command. -/
def logDir (r : Roots) (name experiment : String) (now : Moment) : String :=
  Path.join (Path.join (Path.join r.logs name) experiment) ("sub_" ++ now.stamp)

/-- The path of the log of a command. -/
def logPath (r : Roots) (name experiment : String) (now : Moment) : String :=
  Path.join (logDir r name experiment now) (name ++ ".log")

/-- Makes sure that the log of a command is there. -/
def openLog (r : Roots) (name experiment : String) : Action τ Unit := do
  let now ← Action.now
  Action.ensureDir (logDir r name experiment now)
  let path := logPath r name experiment now
  if !(← Action.tree).isFile path then
    Action.change path (·.writeFile path ByteArray.empty)

/-- The plan of an experiment. -/
def planOf (l : Layout) : Action τ Plan :=
  Action.look fun t =>
    if t.isFile l.planPath then Plan.load t l.planPath
    else .error (.configuration (.noPlan l.planPath))

/-- The answer of a command: `ok`, its name, and more. -/
def answer (ok : Bool) (name : String) (more : List (String × Value)) : Finish :=
  .payload (.record ([("ok", .bool ok), ("command", .str name)] ++ more))

/-- The decision whether to build, on a line. -/
def rebuildLine (d : RebuildDecision) : String :=
  "rebuild: " ++ toString d.rebuild ++ " (" ++ d.reason.describe ++ ")"

/-- The end of a command that says whether all is well. -/
def finish (ok : Bool) : Finish := if ok then .fine else .bad

/-- Generates a suite. -/
def generate (h : Host τ) (r : Roots) (experiment : String) (limit : Option Nat)
    (rebuild json : Bool) : Action τ Finish := do
  openLog r "generate" experiment
  let g ← generateSuite h.programs (r.layout experiment)
    { limit := limit, forceRebuild := rebuild }
  if json then
    return answer true "generate"
      [("suite", g.toValue), ("log", .str (logPath r "generate" experiment (← Action.now)))]
  else
    Action.say (rebuildLine g.rebuild)
    if g.runs < g.plannedRuns then
      Action.say ("limited: " ++ toString g.runs ++ " of " ++ toString g.plannedRuns ++
        " planned runs")
    return .fine

/-- A run in the answer of `describe`. -/
def describedRun (task : Nat) (run : Run) : Value :=
  .record
    [("task_id", .nat task), ("name", .str run.name), ("branch", .str run.branch),
     ("parameters", .mapping run.parameters), ("files", .strings run.configs.keys)]

/-- A run on a line of `describe`. -/
def describedLine (task : Nat) (run : Run) : String :=
  Text.padLeft 5 (toString task) ++ "  " ++ run.name ++ "  [" ++ run.branch ++ "]  " ++
    (Value.mapping run.parameters).compact

/-- The items of a list with their numbers, from `first` on. -/
def numbered {α β : Type} (f : Nat → α → β) (first : Nat) : List α → List β
  | [] => []
  | a :: rest => f first a :: numbered f (first + 1) rest

/-- Describes the suite of a plan. -/
def describe (r : Roots) (experiment : String) (json : Bool) : Action τ Finish := do
  openLog r "describe" experiment
  let (plan, suite) ← Action.look fun t => compileExperiment t (r.layout experiment) {}
  if json then
    return answer true "describe"
      [("experiment", .str experiment), ("base_experiment", .optionalText plan.baseExperiment),
       ("planned_runs", .nat suite.plannedRuns), ("rebuild", suite.rebuild.toValue),
       ("runs", .list (numbered describedRun 1 suite.runs))]
  else
    Action.sayAll (["experiment: " ++ experiment] ++
      (plan.baseExperiment.map ("base_experiment: " ++ ·)).toList ++
      ["branches: " ++ toString plan.effectiveBranches.length,
       "runs: " ++ toString suite.runs.length, rebuildLine suite.rebuild] ++
      numbered describedLine 1 suite.runs)
    return .fine

/-- Submits a suite. -/
def submit (h : Host τ) (r : Roots) (experiment : String) (json : Bool) : Action τ Finish := do
  openLog r "submission" experiment
  let l := r.layout experiment
  let commands := (← planOf l).hpc.scheduler
  let s ← submitSuite l (h.scheduler commands) commands.submitPattern
    (logDir r "submission" experiment (← Action.now))
  return if json then answer true "submit" [("submission", s.toValue)] else .fine

/-- Asks for the status of a batch. -/
def status (h : Host τ) (r : Roots) (experiment : String) (json : Bool) : Action τ Finish := do
  openLog r "status" experiment
  let l := r.layout experiment
  let plan ← planOf l
  let batch ← Action.look (BatchFile.read · l)
  let (runs, _) ← Manifest.load l
  let report ← reconcile (h.scheduler plan.hpc.scheduler) batch runs
  if json then return answer true "status" [("status", report.toValue)]
  else
    Action.sayAll (["batch: " ++ report.batch.id, "tasks: " ++ toString report.total,
      report.summary] ++ report.failedRuns.map ("failed: " ++ ·))
    return .fine

/-- Shows the progress of the tasks by their logs. -/
def monitor (r : Roots) (experiment : String) (json : Bool) : Action τ Finish := do
  openLog r "monitor" experiment
  let l := r.layout experiment
  let plan ← planOf l
  let batch := (BatchFile.read (← Action.tree) l).toOption
  let (runs, _) ← Manifest.load l
  let t ← Action.tree
  let index := TaskLogIndex.discover t l.submissionLogsRoot batch
  let progress := ProgressReport.collect t plan.monitor index runs
  if json then return answer true "monitor" [("progress", progress.toValue)]
  else
    Action.sayAll (("task logs: " ++ progress.submissionDir.getD "none yet") :: progress.lines)
    return .fine

/-- The outcome of waiting on lines. -/
def outcomeLines : WaitOutcome → List String
  | .succeeded polls _ => ["all tasks completed after " ++ toString polls ++ " poll(s)"]
  | .completedWithFailures _ report =>
    ("finished with " ++ toString report.failedRuns.length ++ " failed task(s):") ::
      report.failedRuns.map ("  " ++ ·)
  | .timedOut polls _ =>
    ["gave up after " ++ toString polls ++ " poll(s); the batch is still in the scheduler"]

/-- Checks the integrity of a suite that has succeeded. -/
def integrityAfter (l : Layout) (sampleSize : Nat) (outcome : WaitOutcome) :
    Action τ (Option IntegrityReport) := do
  if outcome.isSuccess then
    Action.say "=== integrity verification ==="
    return some (← checkIntegrity l l.outputsDir sampleSize)
  else return none

/-- What waiting for a batch has come to. -/
structure Waited where
  outcome : WaitOutcome
  /-- The report on the integrity of a suite that has succeeded. -/
  integrity : Option IntegrityReport

/-- Whether the batch succeeded and nothing makes its results worthless. -/
def Waited.ok (w : Waited) : Bool :=
  w.outcome.isSuccess && !w.integrity.any IntegrityReport.hasCritical

/-- Waits for a batch to finish, and checks what it has left. -/
def waitAndCheck (h : Host τ) (r : Roots) (experiment : String) (how : WaitArguments) :
    Action τ Waited := do
  openLog r "wait" experiment
  let l := r.layout experiment
  let plan ← planOf l
  let batch ← Action.look (BatchFile.read · l)
  let (runs, _) ← Manifest.load l
  let options : WaitOptions :=
    { pollInterval := how.pollInterval * 1000, maxWait := how.maxWait.map (· * 1000),
      initialDelay := how.initialDelay * 1000, detailEvery := how.detailEvery }
  let outcome ← waitForCompletion (h.scheduler plan.hpc.scheduler) h.clock
    ⟨batch, runs, l.submissionLogsRoot, plan.monitor⟩ options
  return ⟨outcome, ← integrityAfter l how.sampleSize outcome⟩

/-- Waits for a batch to finish. -/
def wait (h : Host τ) (r : Roots) (experiment : String) (how : WaitArguments) (json : Bool) :
    Action τ Finish := do
  let w ← waitAndCheck h r experiment how
  if json then
    let now ← Action.now
    return answer w.ok "wait"
      [("wait", w.outcome.toValue), ("integrity", .ofOption (·.toValue now) w.integrity)]
  else
    Action.sayAll (outcomeLines w.outcome)
    return finish w.ok

/-- Judges the outputs of a suite: whether the sweep ran as it was planned, and each run alone. -/
def judgeOutputs (r : Roots) (experiment : String) (outputs : Option String) (sampleSize : Nat) :
    Action τ (IntegrityReport × SuiteHealth) := do
  openLog r "validate" experiment
  let l := r.layout experiment
  let plan ← planOf l
  let outputs := outputs.getD l.outputsDir
  let integrity ← checkIntegrity l outputs sampleSize
  return (integrity, ← analyzeSuite l outputs plan.validation)

/-- Judges the outputs of a suite. -/
def validate (r : Roots) (experiment : String) (outputs : Option String) (sampleSize : Nat)
    (json : Bool) : Action τ Finish := do
  let (integrity, report) ← judgeOutputs r experiment outputs sampleSize
  let ok := !integrity.hasCritical
  if json then
    let now ← Action.now
    let l := r.layout experiment
    return answer ok "validate"
      [("integrity", integrity.toValue now), ("integrity_path", .str l.integrityPath),
       ("report", report.toValue now), ("path", .str l.validationPath)]
  else return finish ok

/-- An experiment on a line of `list`. -/
def listedLine (t : FileTree) (r : Roots) (experiment : String) : String :=
  Text.padRight 40 experiment ++ " " ++
    if t.holds (r.layout experiment).manifestPath then "generated" else "-"

/-- Lists the experiments. -/
def list (r : Roots) (json : Bool) : Action τ Finish := do
  let t ← Action.tree
  let names := listExperiments t r.config
  if json then
    return answer true "list" [("config_root", .str r.config), ("experiments", .strings names)]
  else
    if names.isEmpty then Action.say ("no experiments under " ++ r.config)
    Action.sayAll (names.map (listedLine t r))
    return .fine

/-- The experiment's directory taken away. -/
def clean (r : Roots) (experiment : String) : Action τ Finish := do
  let dir := (r.layout experiment).experimentDir
  if (← Action.tree).holds dir then
    Action.removeDir dir
    Action.say ("removed: " ++ dir)
  else Action.say ("nothing to remove at " ++ dir)
  return .fine

/-- Whether a command is asked for JSON. -/
def Command.json : Command → Bool
  | .generate _ _ _ json => json
  | .describe _ json => json
  | .submit _ json => json
  | .status _ json => json
  | .monitor _ json => json
  | .wait _ _ json => json
  | .validate _ _ _ json => json
  | .list json => json
  | .clean _ => false

/-- The steps of a command. -/
def stepsOf (h : Host τ) (r : Roots) : Command → Action τ Finish
  | .generate experiment limit rebuild json => generate h r experiment limit rebuild json
  | .describe experiment json => describe r experiment json
  | .submit experiment json => submit h r experiment json
  | .status experiment json => status h r experiment json
  | .monitor experiment json => monitor r experiment json
  | .wait experiment how json => wait h r experiment how json
  | .validate experiment outputs sampleSize json => validate r experiment outputs sampleSize json
  | .list json => list r json
  | .clean experiment => clean r experiment

/-- The details of an error. -/
def errorDetails : Error → Value
  | .circularInheritance chain => .record [("chain", .strings chain)]
  | .schedulerCommandFailed command status stderr =>
    .record [("command", .str command), ("status", .str status), ("stderr", .str stderr)]
  | .schedulerUnavailable command => .record [("command", .str command)]
  | .unparsedSubmission stdout => .record [("stdout", .str stdout)]
  | .manifestMissing path => .record [("path", .str path)]
  | .batchHandleMissing path => .record [("path", .str path)]
  | _ => .record []

/-- The answer to a command that failed. -/
def errorPayload (e : Error) : Value :=
  .record
    [("ok", .bool false),
     ("error", .record
        [("code", .str e.code), ("message", .str e.message), ("details", errorDetails e)])]

/-- What the program leaves behind: its status, its output in lines, and its error output. -/
structure Reply where
  status : Nat := 0
  output : List String := []
  error : Option String := none
  deriving Inhabited

/-- The wording of an error on the error output. Cleaning up names the fault alone. -/
def errorLine (c : Command) (e : Error) : String :=
  match c, e with
  | .clean _, .file _ fault => "Error: " ++ fault.message
  | _, e => "Error: " ++ e.message

/-- The reply to a command that has ended, after it has said some lines. -/
def replyTo (c : Command) (said : List String) : Except Error Finish → Reply
  | .ok (.payload v) => { output := [v.compact] }
  | .ok .fine => { output := said }
  | .ok .bad => { status := 1, output := said }
  | .error e =>
    if c.json then { status := 1, output := [(errorPayload e).compact] }
    else { status := 1, output := said, error := some (errorLine c e) }

/-- The status of a program whose arguments make no sense. -/
def misuseStatus : Nat := 2

/-- The version on a line. -/
def versionLine : String := "sweep 0.3.0"

/-- A short help. -/
def helpLines : List String :=
  ["Usage: sweep [OPTIONS] <COMMAND>",
   "Commands: generate, describe, submit, status, monitor, wait, validate, list, clean"]

/-- Runs a command on a host, with its files at a time. -/
def runCommand (h : Host τ) (outside : τ) (tree : FileTree) (now : Moment) (roots : Roots)
    (command : Command) : Reply × FileTree :=
  let (result, site) :=
    (stepsOf h roots command).run { tree := tree, now := now, outside := outside }
  (replyTo command site.console result, site.tree)

/-- Runs the program with arguments on the files of a machine. -/
def run (tree : FileTree) (now : Moment) (arguments : List String) : Reply × FileTree :=
  match parse arguments with
  | .misuse => ({ status := misuseStatus, error := helpLines.head? }, tree)
  | .help => ({ output := helpLines }, tree)
  | .version => ({ output := [versionLine] }, tree)
  | .run roots command => runCommand machine 0 tree now roots command

end ParamSweep.CommandLine
