import ParamSweep.Batch.Scheduler
import ParamSweep.Batch.Status

/-!
The status of a batch by what the scheduler knows of it.

Its accounting goes first. While that says nothing, a batch that is in the queue is taken as
pending, and one that is in neither as completed.
-/

namespace ParamSweep

variable {τ : Type}

/-- Whether the scheduler has a batch in its queue. A queue that answers with an error does not have
it, unless there is no scheduler. -/
def isQueued (s : Scheduler τ) (batch : BatchHandle) : Action τ Bool :=
  tryCatch (do return !Text.blankText (← Action.ask (s.queue batch))) fun
    | .schedulerUnavailable command => throw (.schedulerUnavailable command)
    | _ => pure false

/-- What is said of a batch that nobody knows. -/
def assumedCompletedLine (batch : BatchHandle) : String :=
  "warning: batch " ++ batch.id ++
    " is unknown to both accounting and the queue; assuming completed"

/-- The status of the runs of a batch. -/
def reconcile (s : Scheduler τ) (batch : BatchHandle) (runs : List String) :
    Action τ StatusReport := do
  let states := accountedStates batch (← Action.ask (s.accounting batch))
  if !states.isEmpty then
    return .build batch runs states .pending .accounting
  else if ← isQueued s batch then
    return .build batch runs [] .pending .queuedNotYetAccounted
  else
    Action.say (assumedCompletedLine batch)
    return .build batch runs [] .completed .assumedCompleted

end ParamSweep
