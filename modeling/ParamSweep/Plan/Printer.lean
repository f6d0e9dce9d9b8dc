import ParamSweep.Plan.Basic

/-!
Plans as values, with all their fields.
-/

namespace ParamSweep

/-- A text or null. -/
def Value.optionalText (s : Option String) : Value := .ofOption .str s

/-- The branch as a value. -/
def Branch.toValue (b : Branch) : Value :=
  .record [("name", .str b.name), ("settings", .mapping b.settings)]

/-- The entry of the sweeps as a value. -/
def GroupSpec.toValue (s : GroupSpec) : Value :=
  .record
    [("type", .str s.kind), ("variable", .optionalText s.var),
     ("variables", .ofOption .strings s.vars), ("values", .list s.values)]

/-- The target as a value. -/
def Target.toValue (t : Target) : Value :=
  .record [("file", .str t.file), ("section", .str t.section)]

/-- The scheduler commands as a value. -/
def SchedulerCommands.toValue (c : SchedulerCommands) : Value :=
  .record
    [("submit", .str c.submit), ("accounting", .str c.accounting), ("queue", .str c.queue),
     ("submit_pattern", .str c.submitPattern)]

/-- The settings of jobs as a value. -/
def HpcSettings.toValue (h : HpcSettings) : Value :=
  .record
    [("sbatch", .mapping h.sbatch), ("module_loads", .str h.moduleLoads),
     ("run_base_dir", .str h.runBaseDir), ("scheduler", h.scheduler.toValue),
     ("build_command", .optionalText h.buildCommand),
     ("start_command", .optionalText h.startCommand),
     ("run_command", .optionalText h.runCommand)]

/-- The names of log files as a value. -/
def LogFileNames.toValue (l : LogFileNames) : Value :=
  .record [("build", .str l.build), ("start", .str l.start), ("run", .str l.run)]

/-- The markers as a value. -/
def StageMarkers.toValue (m : StageMarkers) : Value :=
  .record
    [("error", .strings m.error), ("failure_words", .strings m.failureWords),
     ("run_completion", .strings m.runCompletion), ("standalone_done", .str m.standaloneDone),
     ("start_completion", .strings m.startCompletion),
     ("build_completion", .strings m.buildCompletion),
     ("error_tail_lines", .nat m.errorTailLines),
     ("completion_window", .nat m.completionWindow),
     ("standalone_window", .nat m.standaloneWindow)]

/-- The settings of monitoring as a value. -/
def MonitorSettings.toValue (m : MonitorSettings) : Value :=
  .record [("log_files", m.logFiles.toValue), ("markers", m.markers.toValue)]

/-- The criteria as a value. -/
def Criteria.toValue (c : Criteria) : Value :=
  .record
    [("min_snapshots", .nat c.minSnapshots), ("min_time_coverage", .float c.minTimeCoverage),
     ("min_evolution", .float c.minEvolution), ("max_evolution", .float c.maxEvolution),
     ("tracked_fields", .strings c.trackedFields),
     ("expected_end_time", .ofOption .float c.expectedEndTime)]

/-- The plan as a value. -/
def Plan.toValue (p : Plan) : Value :=
  .record
    [("base_experiment", .optionalText p.baseExperiment), ("output_prefix", .str p.outputPrefix),
     ("prefix_data_file", .optionalText p.prefixDataFile),
     ("run_name_template", .optionalText p.runNameTemplate),
     ("constants", .mapping p.constants),
     ("parameter_sweeps", .list (p.parameterSweeps.map GroupSpec.toValue)),
     ("derived_parameters", .mapping p.derivedParameters),
     ("parameter_targets", .mapping (p.parameterTargets.map fun (k, t) => (k, t.toValue))),
     ("branches", .list (p.branches.map Branch.toValue)),
     ("modifications", .mapping p.modifications),
     ("disable_auto_rebuild", .bool p.disableAutoRebuild),
     ("render_command", .ofOption .strings p.renderCommand), ("hpc", p.hpc.toValue),
     ("monitor", p.monitor.toValue), ("validation", p.validation.toValue)]

end ParamSweep
