import ParamSweep.Plan.Basic
import ParamSweep.Experiment.Layout

/-!
The job script of a suite.

The script is an array job: every task looks up its run in the manifest by its number, copies the
run's configuration, and runs the stages of the program. The head of the script holds the
directives to the scheduler: those that tie the script to the suite, and those of the plan, which
may not set them again.
-/

namespace ParamSweep.Script

/-- What a script is made of. -/
structure Inputs where
  experiment : String
  experimentDir : String
  logsDir : String
  hpc : HpcSettings
  logFiles : LogFileNames
  numRuns : Nat
  rebuild : Bool

/-- The directives that tie a script to its suite. -/
def reserved : List String := ["array", "job-name", "output", "error"]

/-- A directive of the plan. A false or null value sets none. -/
def directive? (key : String) : Value → Except Cause (Option String)
  | .bool true => .ok (some ("#SBATCH --" ++ key))
  | .bool false => .ok none
  | .null => .ok none
  | .str s => .ok (some ("#SBATCH --" ++ key ++ "=" ++ s))
  | .num n => .ok (some ("#SBATCH --" ++ key ++ "=" ++ (Value.num n).compact))
  | v => .error (.directiveNotScalar key v.compact)

/-- The directives of the plan. -/
def planDirectives : List (String × Value) → Except Cause (List String)
  | [] => .ok []
  | (key, value) :: rest =>
    if reserved.contains key then .error (.directiveReserved key)
    else do
      let d ← directive? key value
      let ds ← planDirectives rest
      .ok (d.toList ++ ds)

/-- The directives that tie the script to its suite. -/
def ownDirectives (i : Inputs) : List String :=
  ["#SBATCH --job-name=" ++ i.experiment,
   "#SBATCH --array=1-" ++ toString i.numRuns,
   "#SBATCH --output=" ++ i.logsDir ++ "/%A_%a.out",
   "#SBATCH --error=" ++ i.logsDir ++ "/%A_%a.err"]

/-- A text in single quotes, as one word of a shell; a quote inside it is closed, escaped and
opened again. -/
def shellQuote (s : String) : String :=
  String.ofList
    ('\'' :: (s.toList.flatMap fun c => if c = '\'' then ['\'', '\\', '\'', '\''] else [c]) ++
      ['\''])

/-- The value of a shell variable. -/
def expand (name : String) : String := "$\x7b" ++ name ++ "\x7d"

/-- The text without trailing slashes. -/
def dropSlashes (s : String) : String :=
  String.ofList (s.toList.reverse.dropWhile (· = '/')).reverse

/-- The lines that find the run of a task and prepare its directory. -/
def preparation (i : Inputs) : List String :=
  ["EXPERIMENT_DIR=\"" ++ i.experimentDir ++ "\"",
   "MANIFEST=\"" ++ expand "EXPERIMENT_DIR" ++ "/" ++ manifestFile ++ "\"",
   "RUN_NAME=$(sed -n \"" ++ expand "SLURM_ARRAY_TASK_ID" ++ "p\" \"" ++ expand "MANIFEST" ++ "\")",
   "if [ -z \"" ++ expand "RUN_NAME" ++ "\" ]; then",
   "  echo \"ERROR: no run for task " ++ expand "SLURM_ARRAY_TASK_ID" ++ " in " ++
     expand "MANIFEST" ++ "\" >&2",
   "  exit 1",
   "fi",
   "CONFIG_DIR=\"" ++ expand "EXPERIMENT_DIR" ++ "/" ++ generatedConfigsDirectory ++ "/" ++
     expand "RUN_NAME" ++ "\"",
   "RUN_DIR=\"" ++ dropSlashes i.hpc.runBaseDir ++ "/" ++ i.experiment ++ "/" ++
     expand "RUN_NAME" ++ "\"",
   "TASK_LOG_DIR=\"" ++ expand (submissionLogVariable ++ ":-" ++ expand "EXPERIMENT_DIR" ++
     "/task_logs") ++ "/" ++ expand "SLURM_ARRAY_JOB_ID" ++ "/array_" ++
     expand "SLURM_ARRAY_TASK_ID" ++ "\"",
   "mkdir -p \"" ++ expand "RUN_DIR" ++ "\" \"" ++ expand "TASK_LOG_DIR" ++ "\"",
   "cp -r \"" ++ expand "CONFIG_DIR" ++ "/.\" \"" ++ expand "RUN_DIR" ++ "/\"",
   "cd \"" ++ expand "RUN_DIR" ++ "\"",
   "export RUN_NAME RUN_DIR CONFIG_DIR TASK_LOG_DIR",
   ""]

/-- The lines that define how a stage is run: its output goes to its log, and a failure ends the
task. -/
def stageFunction : List String :=
  ["run_stage() \x7b",
   "  local stage=\"$1\" log=\"$2\"",
   "  shift 2",
   "  if ! ( eval \"$@\" ) 2>&1 | tee -a \"" ++ expand "log" ++ "\"; then",
   "    echo \"ERROR: " ++ expand "stage" ++ " failed for " ++ expand "RUN_NAME" ++
     "\" | tee -a \"" ++ expand "log" ++ "\" >&2",
   "    exit 1",
   "  fi",
   "\x7d",
   ""]

/-- The line that runs a stage. -/
def stageLine (name log command : String) : String :=
  "run_stage " ++ name ++ " \"" ++ expand "TASK_LOG_DIR" ++ "/" ++ log ++ "\" " ++
    shellQuote command

/-- The lines that run the stages. -/
def stages (i : Inputs) : List String :=
  (if i.rebuild then
    [stageLine "build" i.logFiles.build (i.hpc.buildCommand.getD "pc_build")] else []) ++
  [stageLine "start" i.logFiles.start (i.hpc.startCommand.getD "pc_start"),
   stageLine "run" i.logFiles.run (i.hpc.runCommand.getD "pc_run")]

/-- The lines that load modules. -/
def moduleLines (hpc : HpcSettings) : List String :=
  if Text.blankText hpc.moduleLoads then []
  else [String.ofList (Text.trimEnd hpc.moduleLoads.toList), ""]

/-- The lines of a script. -/
def lines (i : Inputs) : Except Cause (List String) := do
  if i.numRuns = 0 then .error .scriptWithoutRuns
  else
    let ds ← planDirectives i.hpc.sbatch
    .ok ("#!/bin/bash" :: ownDirectives i ++ ds ++ ["", "set -euo pipefail", ""] ++
      moduleLines i.hpc ++ preparation i ++ stageFunction ++ stages i)

/-- The text of a script. -/
def build (i : Inputs) : Except Cause String :=
  (lines i).map fun ls => String.join (ls.map (· ++ "\n"))

end ParamSweep.Script
