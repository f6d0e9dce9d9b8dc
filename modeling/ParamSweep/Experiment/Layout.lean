import ParamSweep.Files.Path

/-!
Where the files of an experiment are.

```text
<config root>/<experiment>/plan/sweep.yaml
<config root>/<experiment>/in/*.yaml
<runs root>/<experiment>/run_manifest.txt, .batch_id, submit_suite.sh, suite.json
<runs root>/<experiment>/generated_configs/<run>/...
<logs root>/submission/<experiment>/sub_<stamp>/<job>/array_<task>/
```
-/

namespace ParamSweep

/-- The name of the sweep plan below the plan directory. -/
def planFile : String := "sweep.yaml"

/-- The directory of the plan. -/
def planDirectory : String := "plan"

/-- The directory of an experiment's own configuration files. -/
def inputsDirectory : String := "in"

/-- The file that lists the names of the runs. -/
def manifestFile : String := "run_manifest.txt"

/-- The directory of the rendered configurations, one directory for each run. -/
def generatedConfigsDirectory : String := "generated_configs"

/-- The variable by which a job learns where its logs go. -/
def submissionLogVariable : String := "SWEEP_SUBMISSION_LOG_DIR"

/-- An experiment and the roots of the trees that it has parts in. -/
structure Layout where
  experiment : String
  configRoot : String
  runsRoot : String
  logsRoot : String
  deriving DecidableEq, Inhabited

namespace Layout

/-- The experiment's configuration. -/
def configDir (l : Layout) : String := Path.join l.configRoot l.experiment

/-- The sweep plan. -/
def planPath (l : Layout) : String := Path.join (Path.join l.configDir planDirectory) planFile

/-- The experiment's generated files. -/
def experimentDir (l : Layout) : String := Path.join l.runsRoot l.experiment

/-- The list of run names. -/
def manifestPath (l : Layout) : String := Path.join l.experimentDir manifestFile

/-- The identifier of the submitted batch. -/
def batchIdPath (l : Layout) : String := Path.join l.experimentDir ".batch_id"

/-- The script that is submitted. -/
def submitScriptPath (l : Layout) : String := Path.join l.experimentDir "submit_suite.sh"

/-- The record of the generated suite. -/
def suiteRecordPath (l : Layout) : String := Path.join l.experimentDir "suite.json"

/-- The rendered configurations. -/
def generatedConfigsDir (l : Layout) : String :=
  Path.join l.experimentDir generatedConfigsDirectory

/-- The logs that the scheduler writes. -/
def schedulerLogsDir (l : Layout) : String := Path.join l.experimentDir "slurm_logs"

/-- The outputs of the runs. -/
def outputsDir (l : Layout) : String := Path.join l.experimentDir "outputs"

/-- The reports. -/
def analysisDir (l : Layout) : String := Path.join l.experimentDir "analysis"

/-- The directory that holds one directory of logs for each submission. -/
def submissionLogsRoot (l : Layout) : String :=
  Path.join (Path.join l.logsRoot "submission") l.experiment

end Layout

end ParamSweep
