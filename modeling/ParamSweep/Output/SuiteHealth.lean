import ParamSweep.Output.Health
import ParamSweep.Experiment.Manifest

/-!
The health of all runs of a suite, and the report on it.

A run whose output cannot be read is part of the report too.
-/

namespace ParamSweep

/-- The health of a run of a suite. -/
structure RunHealth where
  task : Nat
  run : String
  outputDir : String
  /-- The health, or why the output cannot be read. -/
  health : Except String Health

namespace RunHealth

/-- The health, if the output can be read. -/
def health? (r : RunHealth) : Option Health := r.health.toOption

/-- Why the output cannot be read. -/
def loadError? (r : RunHealth) : Option String :=
  match r.health with
  | .ok _ => none
  | .error text => some text

/-- How complete a run is; one that cannot be read is not at all. -/
def completeness (r : RunHealth) : Float := (r.health?.map Health.completeness).getD 0

/-- The more complete run first, then the one of the smaller task. -/
def ranksBefore (a b : RunHealth) : Bool :=
  if b.completeness < a.completeness then true
  else if a.completeness < b.completeness then false
  else a.task ≤ b.task

/-- The run on a line. -/
def line (r : RunHealth) : String :=
  let row (status detail : String) :=
    Text.padLeft 5 (toString r.task) ++ "  " ++ Text.padRight 40 r.run ++ "  " ++
      Text.padRight 18 status ++ "  " ++ detail
  match r.health with
  | .ok h => row h.status.name ("completeness " ++ Decimal.fixedPlaces 2 h.completeness)
  | .error text => row "UNREADABLE" text

/-- The health of a run as a value. -/
def toValue (r : RunHealth) : Value :=
  .record
    [("task_id", .nat r.task), ("run_name", .str r.run), ("output_dir", .str r.outputDir),
     ("health", .ofOption Health.toValue r.health?),
     ("load_error", .ofOption .str r.loadError?)]

end RunHealth

/-- The health of the runs of a suite. -/
structure SuiteHealth where
  experiment : String
  runs : List RunHealth

namespace SuiteHealth

/-- The health of a run by its snapshots. -/
def assess (t : FileTree) (c : Criteria) (outputs : String) (task : Nat) (run : String) :
    RunHealth :=
  let dir := Path.join outputs run
  ⟨task, run, dir,
    match Snapshot.load t dir with
    | .ok snapshots => .ok (Health.ofSnapshots c snapshots none)
    | .error e => .error e.message⟩

/-- The health of a list of runs, from the task `first` on. -/
def assessFrom (t : FileTree) (c : Criteria) (outputs : String) (first : Nat) :
    List String → List RunHealth
  | [] => []
  | run :: rest => assess t c outputs first run :: assessFrom t c outputs (first + 1) rest

/-- The number of runs with a verdict. -/
def count (status : HealthStatus) (s : SuiteHealth) : Nat :=
  s.runs.countP fun r => r.health?.any fun h => h.status == status

/-- The number of runs that cannot be read. -/
def unreadable (s : SuiteHealth) : Nat := s.runs.countP fun r => r.health?.isNone

/-- The names of the runs, the most complete first. -/
def ranking (s : SuiteHealth) : List String :=
  (s.runs.mergeSort RunHealth.ranksBefore).map RunHealth.run

/-- The counts on a line. -/
def summary (s : SuiteHealth) : String :=
  "health: " ++
    Text.joined " " (HealthStatus.all.map fun v => v.name ++ "=" ++ toString (s.count v)) ++
    " UNREADABLE=" ++ toString s.unreadable

/-- The report as a value. -/
def toValue (s : SuiteHealth) (now : Moment) : Value :=
  .record
    [("schema_version", .str "validation_report_v1"), ("experiment", .str s.experiment),
     ("generated_at", .str now.text),
     ("status_counts", .record (HealthStatus.all.map fun v => (v.name, .nat (s.count v)))),
     ("unreadable", .nat s.unreadable), ("ranking", .strings s.ranking),
     ("runs", .list (s.runs.map RunHealth.toValue))]

end SuiteHealth

/-- Where the report on the health of a suite is written. -/
def Layout.validationPath (l : Layout) : String := Path.join l.analysisDir "validation.json"

variable {τ : Type}

/-- Judges all runs of an experiment by their outputs, and writes the report. -/
def analyzeSuite (l : Layout) (outputs : String) (c : Criteria) : Action τ SuiteHealth := do
  let (runs, _) ← Manifest.load l
  let t ← Action.tree
  let report : SuiteHealth := ⟨l.experiment, SuiteHealth.assessFrom t c outputs 1 runs⟩
  Action.replaceText l.validationPath (report.toValue (← Action.now)).pretty
  Action.sayAll (report.runs.map RunHealth.line)
  Action.say report.summary
  Action.say ("report: " ++ l.validationPath)
  return report

end ParamSweep
