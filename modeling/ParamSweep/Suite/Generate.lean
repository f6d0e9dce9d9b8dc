import ParamSweep.Suite.Compile
import ParamSweep.Suite.Renderer
import ParamSweep.Suite.Script
import ParamSweep.Config.OutputPath
import ParamSweep.Plan.Reader
import ParamSweep.Experiment.Manifest
import ParamSweep.Digest.Sha256

/-!
Generating a suite: the compiled runs as files.

Everything is compiled and rendered before the experiment's directory is touched. Then that
directory is taken away and built anew: the rendered files of every run, the manifest, the job
script, and a record of the suite.
-/

namespace ParamSweep

/-- A run with its rendered files, by their places in the run's directory. -/
structure RenderedRun where
  name : String
  files : List (String × String)
  deriving Inhabited

/-- What generation has made. -/
structure GeneratedSuite where
  layout : Layout
  runs : Nat
  plannedRuns : Nat
  rebuild : RebuildDecision
  renderer : String
  deriving Inhabited

/-- The generated suite as a value. -/
def GeneratedSuite.toValue (g : GeneratedSuite) : Value :=
  .record
    [("experiment", .str g.layout.experiment), ("experiment_dir", .str g.layout.experimentDir),
     ("manifest_path", .str g.layout.manifestPath),
     ("submit_script", .str g.layout.submitScriptPath),
     ("suite_record", .str g.layout.suiteRecordPath), ("runs", .nat g.runs),
     ("planned_runs", .nat g.plannedRuns), ("rebuild", g.rebuild.toValue),
     ("renderer", .str g.renderer)]

/-- Reads the plan at a path. -/
def Plan.load (t : FileTree) (path : String) : Except Error Plan := do
  let text ← (t.readText path).mapError (Error.file path)
  Plan.ofFileText path text

/-- The plan of an experiment and its compiled suite. -/
def compileExperiment (t : FileTree) (l : Layout) (o : CompileOptions) :
    Except Error (Plan × CompiledSuite) :=
  if !t.isFile l.planPath then .error (.configuration (.noPlan l.planPath))
  else do
    let plan ← Plan.load t l.planPath
    let source := ConfigSource.ofTree t l.configRoot
    let (suite, _) := (compileSuite source l.experiment plan o).run {}
    .ok (plan, ← suite)

namespace Generate

/-- Renders the documents of a run that have a format. -/
def renderFiles (r : Renderer) (run : String) :
    List (String × Document) → Except Cause (List (String × String))
  | [] => .ok []
  | (file, doc) :: rest =>
    match doc.format with
    | none => renderFiles r run rest
    | some format => do
      let place := outputPath file
      let text ← (r.render format doc.data (Path.fileName place)).mapError fun cause =>
        .renderOfRun run file (Error.configuration cause).message
      let files ← renderFiles r run rest
      .ok ((place, text) :: files)

/-- Renders all runs. -/
def renderRuns (r : Renderer) : List Run → Except Cause (List RenderedRun)
  | [] => .ok []
  | run :: rest => do
    let files ← renderFiles r run.name run.configs
    let others ← renderRuns r rest
    .ok (⟨run.name, files⟩ :: others)

/-- The record of a run; its configuration is recorded by a digest. -/
def runRecord (task : Nat) (run : Run) : Value :=
  .record
    [("task_id", .nat task), ("name", .str run.name), ("branch", .str run.branch),
     ("parameters", .mapping run.parameters),
     ("config_digest", .str (Digest.ofValue (configsValue run.configs)))]

/-- The records of runs, from the task `first` on. -/
def runRecords (first : Nat) : List Run → List Value
  | [] => []
  | run :: rest => runRecord first run :: runRecords (first + 1) rest

/-- The record of a suite. -/
def suiteRecord (s : CompiledSuite) (renderer : String) (now : Moment) : Value :=
  .record
    [("schema_version", .str "suite_record_v1"), ("experiment", .str s.experiment),
     ("generated_at", .str now.text), ("renderer", .str renderer),
     ("planned_runs", .nat s.plannedRuns), ("swept_variables", .strings s.sweptVariables),
     ("rebuild", s.rebuild.toValue), ("runs", .list (runRecords 1 s.runs))]

/-- The job script of a suite. -/
def jobScript (l : Layout) (plan : Plan) (s : CompiledSuite) : Except Cause String :=
  Script.build
    { experiment := l.experiment, experimentDir := l.experimentDir,
      logsDir := l.schedulerLogsDir, hpc := plan.hpc, logFiles := plan.monitor.logFiles,
      numRuns := s.runs.length, rebuild := s.rebuild.rebuild }

variable {τ : Type}

/-- Writes the rendered files of a run. -/
def writeFiles (dir : String) : List (String × String) → Action τ Unit
  | [] => pure ()
  | (place, text) :: rest => do
    Action.replaceText (Path.join dir place) text
    writeFiles dir rest

/-- Writes the directories of all runs. -/
def writeRuns (l : Layout) : List RenderedRun → Action τ Unit
  | [] => pure ()
  | run :: rest => do
    let dir := Path.join l.generatedConfigsDir run.name
    Action.ensureDir dir
    writeFiles dir run.files
    writeRuns l rest

/-- Takes the experiment's directory away if it is there. -/
def clear (l : Layout) : Action τ Unit := do
  if (← Action.tree).holds l.experimentDir then
    Action.removeDir l.experimentDir

end Generate

variable {τ : Type}

/-- Writes a suite into the experiment's directory. -/
def writeSuite (l : Layout) (plan : Plan) (s : CompiledSuite) (r : Renderer) :
    Action τ GeneratedSuite := do
  if s.runs.isEmpty then Action.refuse .suiteWithoutRuns
  else
    let rendered ← Action.ofCause (Generate.renderRuns r s.runs)
    let script ← Action.ofCause (Generate.jobScript l plan s)
    let record := Generate.suiteRecord s r.name (← Action.now)
    Generate.clear l
    Action.ensureDir l.schedulerLogsDir
    Generate.writeRuns l rendered
    Manifest.write l s.runNames
    Action.replaceText l.submitScriptPath script
    Action.change l.submitScriptPath (·.makeExecutable l.submitScriptPath)
    Action.replaceText l.suiteRecordPath record.pretty
    Action.say ("generated " ++ toString s.runs.length ++ " run(s) in " ++ l.generatedConfigsDir)
    Action.say ("manifest: " ++ l.manifestPath)
    Action.say ("submit script: " ++ l.submitScriptPath)
    return ⟨l, s.runs.length, s.plannedRuns, s.rebuild, r.name⟩

/-- Generates the suite of an experiment. -/
def generateSuite (programs : Programs) (l : Layout) (o : CompileOptions) :
    Action τ GeneratedSuite := do
  let t ← Action.tree
  let (plan, suite) ← Action.ofExcept (compileExperiment t l o)
  let renderer ← Action.ofCause (Renderer.ofCommand? programs t plan.renderCommand)
  writeSuite l plan suite renderer

end ParamSweep
