import ParamSweep.Output.Health
import ParamSweep.Output.SuiteRecord
import ParamSweep.Experiment.Manifest
import ParamSweep.Digest.Sha256

/-!
Whether a sweep ran as it was planned.

Where `Health` judges each run alone, these checks compare the runs with each other and with the
record of the suite: outputs that are all the same, configuration that is missing, runs in which no
time passes and variables that never vary point to a broken setup.
-/

namespace ParamSweep

/-- A check of a suite. -/
inductive CheckKind where
  | outputDiversity
  | parameterFiles
  | simulationExecution
  | sweepParameters
  deriving DecidableEq, Inhabited

/-- The name of a check. -/
def CheckKind.name : CheckKind → String
  | .outputDiversity => "output_diversity"
  | .parameterFiles => "parameter_files"
  | .simulationExecution => "simulation_execution"
  | .sweepParameters => "sweep_parameters"

/-- What a check has found. -/
structure IntegrityCheck where
  kind : CheckKind
  message : String
  issues : List String
  /-- Whether issues of this check make the results worthless. -/
  weighty : Bool
  deriving Inhabited

namespace IntegrityCheck

/-- Whether there are no issues. -/
def passed (c : IntegrityCheck) : Bool := c.issues.isEmpty

/-- Whether there are issues that make the results worthless. -/
def critical (c : IntegrityCheck) : Bool := c.weighty && !c.issues.isEmpty

/-- The check on lines. -/
def lines (c : IntegrityCheck) : List String :=
  (Text.padRight 22 c.kind.name ++ "  " ++ Text.padRight 4 (if c.passed then "PASS" else "FAIL") ++
    "  " ++ c.message) :: c.issues.map ("    - " ++ ·)

/-- The check as a value. -/
def toValue (c : IntegrityCheck) : Value :=
  .record
    [("kind", .str c.kind.name), ("passed", .bool c.passed), ("critical", .bool c.critical),
     ("message", .str c.message), ("issues", .strings c.issues)]

end IntegrityCheck

/-- A run that is looked at: its snapshots, or why they cannot be read. -/
structure SampledRun where
  name : String
  outputDir : String
  snapshots : Except String (List Snapshot)

namespace Integrity

/-- The bytes of a double, the lowest first. -/
def sampleBytes (x : Float) : List UInt8 :=
  let bits := x.toBits.toNat
  (List.range 8).map fun i => UInt8.ofNat (bits / Nat.pow 256 i % 256)

/-- The bytes of a field: its name, a zero, its samples. -/
def fieldBytes (field : String) (samples : List Float) : List UInt8 :=
  Digest.bytesOf field ++ 0 :: samples.flatMap sampleBytes

/-- The bytes that stand for the fields of a snapshot. -/
def contentBytes (s : Snapshot) : List UInt8 :=
  s.fields.flatMap fun (field, samples) => fieldBytes field samples

/-- The digest of the fields of a snapshot. -/
def signature (s : Snapshot) : String := Digest.sha256 (contentBytes s)

/-- The greatest finite sample of a snapshot. -/
def peak? (s : Snapshot) : Option Float :=
  match s.samples.filter Float.isFinite with
  | [] => none
  | x :: rest => some (rest.foldl greater x)

/-- The items of a list, each once. -/
def distinct {α : Type} [BEq α] (xs : List α) : List α := xs.eraseDups

/-- The last snapshot of every run that can be read and has any. -/
def finals (runs : List SampledRun) : List Snapshot :=
  runs.filterMap fun r => r.snapshots.toOption.bind List.getLast?

/-- Whether the runs end in different states. -/
def checkOutputDiversity (runs : List SampledRun) : IntegrityCheck :=
  let last := finals runs
  let number := toString last.length
  if last.isEmpty then
    ⟨.outputDiversity, "no readable output",
      ["could not read output snapshots for any sampled run"], true⟩
  else
    let signatures := distinct (last.map signature)
    let peaks := distinct ((last.filterMap peak?).map Float.toBits)
    let same := 1 < last.length && signatures.length == 1
    let sameSignature := if same then
        ["all " ++ number ++
          " sampled runs produced identical final snapshots; " ++
            "the sweep did not change the simulation"]
      else []
    let samePeak := match peaks with
      | [bits] =>
        if 1 < last.length then
          ["all " ++ number ++ " sampled runs share the same peak value " ++
            Decimal.scientificPlaces 10 (Float.ofBits bits)]
        else []
      | _ => []
    ⟨.outputDiversity,
      toString signatures.length ++ " distinct final snapshot(s) across " ++ number ++
        " sampled run(s)",
      sameSignature ++ samePeak, same⟩

mutual

/-- Whether there is a file in a node. -/
def holdsFile : Node → Bool
  | .file _ _ => true
  | .dir entries => anyHoldsFile entries

/-- Whether there is a file in some entry. -/
def anyHoldsFile : List (String × Node) → Bool
  | [] => false
  | (_, n) :: rest => holdsFile n || anyHoldsFile rest

end

/-- Whether there is a file anywhere below a directory. -/
def hasAnyFile (t : FileTree) (dir : String) : Bool :=
  match t.list dir with
  | .ok entries => anyHoldsFile entries
  | .error _ => false

/-- Whether the runs have configuration files, and not all the same. -/
def checkParameterFiles (t : FileTree) (l : Layout) (runs : List SampledRun)
    (record : Except String SuiteRecord) : IntegrityCheck :=
  let bare := runs.filter fun r => !hasAnyFile t (Path.join l.generatedConfigsDir r.name)
  let missing := bare.map fun r => "missing generated config files for run " ++ r.name
  let digests := match record with
    | .ok record => distinct (record.runs.filterMap RecordedRun.configDigest)
    | .error _ => []
  let recorded := match record with
    | .ok record =>
      if 1 < record.runs.length && digests.length == 1 then
        ["all " ++ toString record.runs.length ++
          " runs share one config digest; parameters were not applied per run"]
      else []
    | .error text => [text]
  ⟨.parameterFiles,
    "checked " ++ toString runs.length ++ " run(s); " ++ toString digests.length ++
      " distinct config digest(s)",
    missing ++ recorded, false⟩

/-- The shortest time that counts as passing. -/
def timeFloor : Float := 1e-10

/-- What is wrong with the output of a run. -/
def executionIssue? (t : FileTree) (r : SampledRun) : Option String :=
  if !t.isDir r.outputDir then
    some ("missing output directory for run " ++ r.name ++ ": " ++ r.outputDir)
  else
    match r.snapshots with
    | .error text => some ("run " ++ r.name ++ ": " ++ text)
    | .ok snapshots =>
      if snapshots.length < 2 then
        some ("run " ++ r.name ++ " has only " ++ toString snapshots.length ++
          " snapshot(s); expected several time steps")
      else
        match snapshots.head?, snapshots.getLast? with
        | some first, some last =>
          if (last.time - first.time).abs ≤ timeFloor then
            some ("run " ++ r.name ++ ": time did not evolve (t_initial=" ++
              Decimal.scientificPlaces 6 first.time ++ ", t_final=" ++
              Decimal.scientificPlaces 6 last.time ++ ")")
          else none
        | _, _ => none

/-- Whether time passed in every run. -/
def checkExecution (t : FileTree) (runs : List SampledRun) : IntegrityCheck :=
  ⟨.simulationExecution, "checked execution of " ++ toString runs.length ++ " run(s)",
    runs.filterMap (executionIssue? t), true⟩

/-- The different values of a variable in the runs of a record. -/
def valuesOf (runs : List RecordedRun) (name : String) : List String :=
  distinct ((runs.filterMap fun r => r.parameters.find? name).map Value.compact)

/-- What is said of a variable that has one value in all of several runs. -/
def constantIssue? (runs : List RecordedRun) (name : String) : Option String :=
  match valuesOf runs name with
  | [only] =>
    if 1 < runs.length then
      some ("swept variable '" ++ name ++ "' has the same value (" ++ only ++ ") in all " ++
        toString runs.length ++ " runs")
    else none
  | _ => none

/-- Whether the swept variables vary. -/
def checkSweepParameters (record : Except String SuiteRecord) : IntegrityCheck :=
  match record with
  | .error text => ⟨.sweepParameters, "no suite record", [text], false⟩
  | .ok record =>
    let total := (record.sweptVariables.flatMap (valuesOf record.runs)).length
    ⟨.sweepParameters,
      toString total ++ " distinct value(s) across " ++ toString record.sweptVariables.length ++
        " swept variable(s)",
      record.sweptVariables.filterMap (constantIssue? record.runs), false⟩

end Integrity

/-- What the checks of a suite have found. -/
structure IntegrityReport where
  experiment : String
  /-- The runs that were looked at one by one. -/
  sampled : List String
  checks : List IntegrityCheck
  deriving Inhabited

namespace IntegrityReport

/-- Whether all checks passed. -/
def passed (r : IntegrityReport) : Bool := r.checks.all IntegrityCheck.passed

/-- The issues that make the results worthless. -/
def criticalIssues (r : IntegrityReport) : List String :=
  (r.checks.filter IntegrityCheck.critical).flatMap IntegrityCheck.issues

/-- Whether there are any. -/
def hasCritical (r : IntegrityReport) : Bool := !r.criticalIssues.isEmpty

/-- The check of a kind. -/
def check? (kind : CheckKind) (r : IntegrityReport) : Option IntegrityCheck :=
  r.checks.find? fun c => c.kind == kind

/-- The verdict on a line. -/
def verdict (r : IntegrityReport) : String :=
  if r.hasCritical then
    "integrity: " ++ toString r.criticalIssues.length ++
      " critical issue(s); results of this suite are not trustworthy"
  else if r.passed then "integrity: all checks passed"
  else "integrity: passed with warnings"

/-- The report as a value. -/
def toValue (r : IntegrityReport) (now : Moment) : Value :=
  .record
    [("schema_version", .str "integrity_report_v1"), ("experiment", .str r.experiment),
     ("generated_at", .str now.text), ("sampled", .strings r.sampled), ("passed", .bool r.passed),
     ("checks", .list (r.checks.map IntegrityCheck.toValue)),
     ("critical_issues", .strings r.criticalIssues)]

end IntegrityReport

/-- Where the report on the integrity of a suite is written. -/
def Layout.integrityPath (l : Layout) : String := Path.join l.analysisDir "integrity.json"

/-- The number of runs that are looked at unless another one is asked for. -/
def defaultSampleSize : Nat := 3

/-- A run with the snapshots that it has below a directory of outputs. -/
def SampledRun.read (t : FileTree) (outputs name : String) : SampledRun :=
  let dir := Path.join outputs name
  ⟨name, dir, (Snapshot.load t dir).mapError Error.message⟩

variable {τ : Type}

/-- Checks an experiment by its first `sampleSize` runs, or by all of them for zero, and writes the
report. -/
def checkIntegrity (l : Layout) (outputs : String) (sampleSize : Nat) :
    Action τ IntegrityReport := do
  let (names, _) ← Manifest.load l
  let t ← Action.tree
  let runs := (if sampleSize = 0 then names else names.take sampleSize).map
    (SampledRun.read t outputs)
  let record := SuiteRecord.load t l.suiteRecordPath
  let report : IntegrityReport :=
    { experiment := l.experiment, sampled := runs.map SampledRun.name,
      checks :=
        [Integrity.checkOutputDiversity runs, Integrity.checkParameterFiles t l runs record,
         Integrity.checkExecution t runs, Integrity.checkSweepParameters record] }
  Action.replaceText l.integrityPath (report.toValue (← Action.now)).pretty
  Action.sayAll (report.checks.flatMap IntegrityCheck.lines)
  Action.say report.verdict
  return report

end ParamSweep
