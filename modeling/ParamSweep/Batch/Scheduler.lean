import ParamSweep.Batch.Handle
import ParamSweep.Files.Site
import ParamSweep.Plan.Basic
import ParamSweep.Programs.Basic

/-!
The batch scheduler: something that takes scripts and can be asked about batches.

It lives outside the site's files, which it can read; what it does there is its own affair. The
scheduler of a machine is spoken to through three commands.
-/

namespace ParamSweep

/-- A question to the outside. -/
abbrev Query (τ : Type) := FileTree → StateM τ (Except Error String)

/-- A scheduler whose state is part of the outside. -/
structure Scheduler (τ : Type) where
  /-- Submits a script with variables in its environment; the answer is the command's output. -/
  submit : (script : String) → (environment : List (String × String)) → Query τ
  /-- Lines `<task>|<state>` on the tasks of a batch. -/
  accounting : BatchHandle → Query τ
  /-- A text that is not blank if the batch waits or runs. -/
  queue : BatchHandle → Query τ

/-- Asks the outside. -/
def Action.ask {τ : Type} (q : Query τ) : Action τ String := do
  let s ← get
  let (answer, outside) := q s.tree s.outside
  set { s with outside := outside }
  Action.ofExcept answer

namespace Scheduler
variable {τ ρ : Type}

/-- A scheduler that knows nothing of the first part of the outside. -/
def onSecond (s : Scheduler τ) : Scheduler (ρ × τ) where
  submit script environment t := fun (r, o) =>
    let (answer, o) := s.submit script environment t o
    (answer, (r, o))
  accounting batch t := fun (r, o) =>
    let (answer, o) := s.accounting batch t o
    (answer, (r, o))
  queue batch t := fun (r, o) =>
    let (answer, o) := s.queue batch t o
    (answer, (r, o))

/-- The output of a scheduler command. -/
def runCommand (programs : Programs) (tree : FileTree) (i : Invocation) : Except Error String :=
  match programs tree i with
  | .error .notFound => .error (.schedulerUnavailable i.program)
  | .error fault => .error (.schedulerCommandFailed i.program "spawn failed" fault.message)
  | .ok o =>
    match o.ending with
    | .exit 0 => .ok o.outputLossy
    | .exit code => .error (.schedulerCommandFailed i.program (toString code) o.errorText)
    | .signal _ => .error (.schedulerCommandFailed i.program "signal" o.errorText)

/-- The scheduler behind the commands of a machine. -/
def ofCommands (programs : Programs) (c : SchedulerCommands) : Scheduler τ where
  submit script environment t := pure <| runCommand programs t
    { program := c.submit, arguments := [script], environment := environment }
  accounting batch t := pure <| runCommand programs t
    { program := c.accounting, arguments := ["-j", batch.id, "--format=JobID,State", "-n", "-P"] }
  queue batch t := pure <| runCommand programs t
    { program := c.queue, arguments := ["-j", batch.id, "-h"] }

end Scheduler

end ParamSweep
