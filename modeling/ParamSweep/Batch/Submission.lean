import ParamSweep.Batch.Scheduler
import ParamSweep.Experiment.Manifest
import ParamSweep.Experiment.BatchFile

/-!
Submitting a generated suite as one array job.
-/

namespace ParamSweep

/-- A batch that has been submitted. -/
structure Submission where
  batch : BatchHandle
  tasks : Nat
  batchIdPath : String
  /-- The directory of the tasks' logs. -/
  logDir : String

/-- The submission as a value. -/
def Submission.toValue (s : Submission) : Value :=
  .record
    [("batch", .str s.batch.id), ("tasks", .nat s.tasks), ("batch_id_path", .str s.batchIdPath),
     ("log_dir", .str s.logDir)]

variable {τ : Type}

/-- Submits the suite of an experiment; the jobs log to `logDir`. The handle is kept only after the
scheduler's answer has been understood. -/
def submitSuite (l : Layout) (s : Scheduler τ) (pattern logDir : String) :
    Action τ Submission := do
  let t ← Action.tree
  if !t.isFile l.submitScriptPath then
    Action.refuse (.noSubmitScript l.submitScriptPath)
  else
    let (runs, _) ← Manifest.load l
    if runs.isEmpty then
      Action.refuse .manifestWithoutRuns
    else
      let logDir := t.absolute logDir
      Action.ensureDir logDir
      let answer ← Action.ask (s.submit l.submitScriptPath [(submissionLogVariable, logDir)])
      let batch ← Action.ofExcept (BatchHandle.ofSubmission pattern answer)
      BatchFile.write l batch
      Action.say ("submitted batch " ++ batch.id ++ " with " ++ toString runs.length ++
        " task(s)")
      Action.say ("task logs: " ++ logDir)
      return ⟨batch, runs.length, l.batchIdPath, logDir⟩

end ParamSweep
