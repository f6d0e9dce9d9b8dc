import ParamSweep.Plan.Basic
import ParamSweep.Plan.Shape
import ParamSweep.Yaml.Reader

/-!
Reading plans: the fields of each section, and plans from YAML text.
-/

namespace ParamSweep

open Shape

/-- Reads a branch. -/
def Branch.reader : Reader Branch := structured { name := "" }
  [required "name" text fun a s => { s with name := a },
   optional "settings" (tableOf anything) fun a s => { s with settings := a }]

/-- Reads an entry of the sweeps. -/
def GroupSpec.reader : Reader GroupSpec := structured { kind := "" }
  [required "type" text fun a s => { s with kind := a },
   optional "variable" (nullable text) fun a s => { s with var := a },
   optional "variables" (nullable (listOf text)) fun a s => { s with vars := a },
   optional "values" (listOf anything) fun a s => { s with values := a }]

/-- Reads a parameter target. -/
def Target.reader : Reader Target := structured { file := "", «section» := "" }
  [required "file" text fun a s => { s with file := a },
   required "section" text fun a s => { s with «section» := a }]

/-- Reads scheduler commands. -/
def SchedulerCommands.reader : Reader SchedulerCommands := structured {}
  [optional "submit" text fun a s => { s with submit := a },
   optional "accounting" text fun a s => { s with accounting := a },
   optional "queue" text fun a s => { s with queue := a },
   optional "submit_pattern" text fun a s => { s with submitPattern := a }]

/-- Reads the settings of jobs. -/
def HpcSettings.reader : Reader HpcSettings := structured {}
  [optional "sbatch" (tableOf anything) fun a s => { s with sbatch := a },
   optional "module_loads" text fun a s => { s with moduleLoads := a },
   optional "run_base_dir" text fun a s => { s with runBaseDir := a },
   optional "scheduler" SchedulerCommands.reader fun a s => { s with scheduler := a },
   optional "build_command" (nullable text) fun a s => { s with buildCommand := a },
   optional "start_command" (nullable text) fun a s => { s with startCommand := a },
   optional "run_command" (nullable text) fun a s => { s with runCommand := a }]

/-- Reads the names of log files. -/
def LogFileNames.reader : Reader LogFileNames := structured {}
  [optional "build" text fun a s => { s with build := a },
   optional "start" text fun a s => { s with start := a },
   optional "run" text fun a s => { s with run := a }]

/-- Reads stage markers. -/
def StageMarkers.reader : Reader StageMarkers := structured {}
  [optional "error" (listOf text) fun a s => { s with error := a },
   optional "failure_words" (listOf text) fun a s => { s with failureWords := a },
   optional "run_completion" (listOf text) fun a s => { s with runCompletion := a },
   optional "standalone_done" text fun a s => { s with standaloneDone := a },
   optional "start_completion" (listOf text) fun a s => { s with startCompletion := a },
   optional "build_completion" (listOf text) fun a s => { s with buildCompletion := a },
   optional "error_tail_lines" natural fun a s => { s with errorTailLines := a },
   optional "completion_window" natural fun a s => { s with completionWindow := a },
   optional "standalone_window" natural fun a s => { s with standaloneWindow := a }]

/-- Reads the settings of monitoring. -/
def MonitorSettings.reader : Reader MonitorSettings := structured {}
  [optional "log_files" LogFileNames.reader fun a s => { s with logFiles := a },
   optional "markers" StageMarkers.reader fun a s => { s with markers := a }]

/-- Reads criteria. -/
def Criteria.reader : Reader Criteria := structured {}
  [optional "min_snapshots" natural fun a s => { s with minSnapshots := a },
   optional "min_time_coverage" double fun a s => { s with minTimeCoverage := a },
   optional "min_evolution" double fun a s => { s with minEvolution := a },
   optional "max_evolution" double fun a s => { s with maxEvolution := a },
   optional "tracked_fields" (listOf text) fun a s => { s with trackedFields := a },
   optional "expected_end_time" (nullable double) fun a s => { s with expectedEndTime := a }]

namespace Plan

/-- Reads the shape of a plan. -/
def reader : Reader Plan := structured {}
  [optional "base_experiment" (nullable text) fun a s => { s with baseExperiment := a },
   optional "output_prefix" text fun a s => { s with outputPrefix := a },
   optional "prefix_data_file" (nullable text) fun a s => { s with prefixDataFile := a },
   optional "run_name_template" (nullable text) fun a s => { s with runNameTemplate := a },
   optional "constants" (tableOf anything) fun a s => { s with constants := a },
   optional "parameter_sweeps" (listOf GroupSpec.reader) fun a s =>
     { s with parameterSweeps := a },
   optional "derived_parameters" (tableOf anything) fun a s => { s with derivedParameters := a },
   optional "parameter_targets" (tableOf Target.reader) fun a s =>
     { s with parameterTargets := a },
   optional "branches" (listOf Branch.reader) fun a s => { s with branches := a },
   optional "modifications" (tableOf anything) fun a s => { s with modifications := a },
   optional "disable_auto_rebuild" truth fun a s => { s with disableAutoRebuild := a },
   optional "render_command" (nullable (listOf text)) fun a s => { s with renderCommand := a },
   optional "hpc" HpcSettings.reader fun a s => { s with hpc := a },
   optional "monitor" MonitorSettings.reader fun a s => { s with monitor := a },
   optional "validation" Criteria.reader fun a s => { s with validation := a }]

/-- The plan that a value describes; `path` is the file it is from, if it is from one. -/
def ofValue (path : Option String) (v : Value) : Except Error Plan :=
  match reader v with
  | .error fault => .error (.configuration (.invalidPlan path fault))
  | .ok p =>
    match p.fault with
    | some cause => .error (.configuration cause)
    | none => .ok p

/-- The plan that a YAML text of a file describes. -/
def ofFileText (path text : String) : Except Error Plan := do
  let v ← Yaml.read path text
  ofValue (some path) v

/-- The plan that a YAML text describes. -/
def ofText (text : String) : Except Error Plan := do
  let v ← Yaml.read "<inline plan>" text
  ofValue none v

end Plan

end ParamSweep
