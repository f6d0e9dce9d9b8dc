import ParamSweep.Experiment.Layout
import ParamSweep.Files.Site
import ParamSweep.Batch.Handle

/-!
The file in which an experiment keeps the identifier of its submitted batch.
-/

namespace ParamSweep.BatchFile

variable {τ : Type}

/-- Keeps a handle. -/
def write (l : Layout) (batch : BatchHandle) : Action τ Unit :=
  Action.replaceText l.batchIdPath batch.id

/-- The handle that is kept. -/
def read (t : FileTree) (l : Layout) : Except Error BatchHandle :=
  let path := l.batchIdPath
  if t.holds path then do
    let text ← (t.readText path).mapError (Error.file path)
    if Text.blankText text then .error (.configuration (.emptyBatchId path))
    else (BatchHandle.ofText text).mapError Error.configuration
  else .error (.batchHandleMissing path)

end ParamSweep.BatchFile
