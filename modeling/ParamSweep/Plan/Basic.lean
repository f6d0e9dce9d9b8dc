import ParamSweep.Sweep.Combination

/-!
A sweep plan: what a suite of runs is derived from, and how it is built, submitted, watched and
judged. Every section has its defaults here; an empty plan is `{}`.
-/

namespace ParamSweep

/-- A variant of the suite: overlays on configuration files. -/
structure Branch where
  name : String
  /-- For each file what is merged into its data. -/
  settings : Entries Value := []
  deriving Inhabited

/-- The section of a file into which a parameter is written. -/
structure Target where
  file : String
  «section» : String
  deriving DecidableEq, Inhabited

/-- The commands of the batch scheduler, and how its answer to a submission is read. -/
structure SchedulerCommands where
  submit : String := "sbatch"
  accounting : String := "sacct"
  queue : String := "squeue"
  submitPattern : String := "Submitted batch job (\\d+)"
  deriving DecidableEq, Inhabited

/-- How the jobs of a suite run. -/
structure HpcSettings where
  sbatch : Entries Value := []
  moduleLoads : String := ""
  runBaseDir : String := "runs"
  scheduler : SchedulerCommands := {}
  buildCommand : Option String := none
  startCommand : Option String := none
  runCommand : Option String := none
  deriving Inhabited

/-- The log files of a task, one for each stage. -/
structure LogFileNames where
  build : String := "pc_build.log"
  start : String := "pc_start.log"
  run : String := "pc_run.log"
  deriving DecidableEq, Inhabited

/-- The words by which the stages of a task are told from its logs. -/
structure StageMarkers where
  /-- Parts of a line that mark a failed stage. -/
  error : List String := ["ERROR:", "FATAL ERROR:"]
  /-- Parts of a line that mark a failed stage in small or capital letters. -/
  failureWords : List String := ["failed"]
  runCompletion : List String := ["finished successfully", "done", "completed"]
  standaloneDone : String := "done"
  startCompletion : List String := ["completed successfully"]
  buildCompletion : List String := ["completed successfully", "finished"]
  errorTailLines : Nat := 15
  completionWindow : Nat := 50
  standaloneWindow : Nat := 10
  deriving DecidableEq, Inhabited

/-- How running tasks are watched. -/
structure MonitorSettings where
  logFiles : LogFileNames := {}
  markers : StageMarkers := {}
  deriving DecidableEq, Inhabited

/-- By what measures the output of a finished run is judged. -/
structure Criteria where
  minSnapshots : Nat := 10
  minTimeCoverage : Float := 0.9
  minEvolution : Float := 0.01
  maxEvolution : Float := 100.0
  /-- The fields compared between the first and the last snapshot; none means all they share. -/
  trackedFields : List String := ["rho", "ux", "pp", "ee"]
  expectedEndTime : Option Float := none
  deriving Inhabited

/-- A sweep plan. -/
structure Plan where
  baseExperiment : Option String := none
  outputPrefix : String := ""
  prefixDataFile : Option String := none
  runNameTemplate : Option String := none
  constants : Entries Value := []
  parameterSweeps : List GroupSpec := []
  derivedParameters : Entries Value := []
  parameterTargets : Entries Target := []
  branches : List Branch := []
  modifications : Entries Value := []
  disableAutoRebuild : Bool := false
  renderCommand : Option (List String) := none
  hpc : HpcSettings := {}
  monitor : MonitorSettings := {}
  validation : Criteria := {}
  deriving Inhabited

namespace Plan

/-- The branches of the suite: those of the plan, or a single one without settings. -/
def effectiveBranches (p : Plan) : List Branch :=
  if p.branches.isEmpty then [{ name := "default" }] else p.branches

/-- The first name of a list that occurs before. -/
def firstFault (seen : List String) : List Branch → Option Cause
  | [] => none
  | b :: rest =>
    if Text.blankText b.name then some .emptyBranchName
    else if seen.contains b.name then some (.duplicateBranch b.name)
    else firstFault (b.name :: seen) rest

/-- What is wrong with the criteria of a plan. -/
def criteriaFault (c : Criteria) : Option Cause :=
  if c.minSnapshots = 0 then some .noMinimumOfSnapshots
  else if c.minTimeCoverage ≤ 0 ∨ c.minEvolution ≤ 0 ∨ c.maxEvolution ≤ 0 then
    some .thresholdNotPositive
  else if c.maxEvolution < c.minEvolution then some .evolutionBoundsCrossed
  else none

/-- What is wrong with a plan beyond its shape. -/
def fault (p : Plan) : Option Cause :=
  (firstFault [] p.branches).orElse fun _ =>
    if p.renderCommand.any List.isEmpty then some .emptyRenderCommand
    else criteriaFault p.validation

end Plan

end ParamSweep
