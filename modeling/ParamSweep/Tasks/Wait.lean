import ParamSweep.Batch.Reconcile
import ParamSweep.Tasks.Progress

/-!
Waiting for a batch to finish.

The scheduler is asked again and again, with a sleep in between. An answer that all is done is not
believed in the first polls while no task has logged anything. Waiting ends with an outcome, or with
an error after which asking again makes no sense. Nothing that runs is ever cancelled.
-/

namespace ParamSweep

/-- A clock: the milliseconds that have passed, and sleeping, during which others may change the
files and the outside. -/
structure Clock (τ : Type) where
  elapsed : τ → Nat
  sleep : Nat → FileTree × τ → FileTree × τ

/-- Time that passes only in sleep. -/
structure ManualTime where
  now : Nat := 0
  sleeps : List Nat := []
  deriving Inhabited

/-- The clock of a time that passes only in sleep; nothing else happens meanwhile. -/
def Clock.manual {σ : Type} : Clock (ManualTime × σ) where
  elapsed o := o.1.now
  sleep ms := fun (t, time, o) => (t, ⟨time.now + ms, time.sleeps ++ [ms]⟩, o)

/-- How to wait, in milliseconds. -/
structure WaitOptions where
  pollInterval : Nat := 60000
  maxWait : Option Nat := none
  initialDelay : Nat := 5000
  /-- Every so many polls the progress of all tasks is shown; never for zero. -/
  detailEvery : Nat := 3
  /-- The poll from which on "all done" is believed without any logs. -/
  guardPolls : Nat := 3
  deriving Inhabited

/-- What is waited for. -/
structure WaitTarget where
  batch : BatchHandle
  runs : List String
  logsRoot : String
  monitor : MonitorSettings

/-- How waiting ended. -/
inductive WaitOutcome where
  | succeeded (polls : Nat) (report : StatusReport)
  | completedWithFailures (polls : Nat) (report : StatusReport)
  | timedOut (polls : Nat) (last : Option StatusReport)

namespace WaitOutcome

/-- Whether every task completed. -/
def isSuccess : WaitOutcome → Bool
  | .succeeded _ _ => true
  | _ => false

/-- The outcome as a value. -/
def toValue : WaitOutcome → Value
  | .succeeded polls report =>
    .record [("outcome", .str "succeeded"), ("polls", .nat polls), ("report", report.toValue)]
  | .completedWithFailures polls report =>
    .record
      [("outcome", .str "completed_with_failures"), ("polls", .nat polls),
       ("report", report.toValue)]
  | .timedOut polls last =>
    .record
      [("outcome", .str "timed_out"), ("polls", .nat polls),
       ("last", .ofOption StatusReport.toValue last)]

/-- The outcome of a report that all tasks have come to an end. -/
def ofReport (polls : Nat) (report : StatusReport) : WaitOutcome :=
  if 0 < report.count .failed then .completedWithFailures polls report else .succeeded polls report

end WaitOutcome

variable {τ : Type}

/-- Sleeps. -/
def Clock.pause (c : Clock τ) (ms : Nat) : Action τ Unit := do
  let s ← get
  let (tree, outside) := c.sleep ms (s.tree, s.outside)
  set { s with tree := tree, outside := outside }

/-- The time that has passed. -/
def Clock.read (c : Clock τ) : Action τ Nat := do return c.elapsed (← get).outside

/-- Shows the progress of all tasks. -/
def showProgress (target : WaitTarget) (poll : Nat) : Action τ Unit := do
  let t ← Action.tree
  let index := TaskLogIndex.discover t target.logsRoot (some target.batch)
  Action.say ("=== poll #" ++ toString poll ++ " detailed progress ===")
  Action.sayAll (ProgressReport.collect t target.monitor index target.runs).lines

/-- What a poll finds: that waiting is over, or the report to go on with. -/
inductive PollResult where
  | finished (report : StatusReport)
  | goesOn (report : StatusReport)
  | unknown

/-- Judges the report of a poll; `shown` tells whether the progress of all tasks has been shown. -/
def settleReport (target : WaitTarget) (o : WaitOptions) (poll : Nat) (shown : Bool)
    (report : StatusReport) : Action τ PollResult := do
  if report.isFinished then
    let index := TaskLogIndex.discover (← Action.tree) target.logsRoot (some target.batch)
    if index.isEmpty && poll < o.guardPolls then
      Action.say "all tasks reported done but no task logs found yet; still waiting"
      return .goesOn report
    else
      if !shown then showProgress target poll
      return .finished report
  else
    Action.say ("poll #" ++ toString poll ++ ": " ++ report.summary)
    return .goesOn report

/-- Judges the report of a poll, after the progress of all tasks where it is due. -/
def judgeReport (target : WaitTarget) (o : WaitOptions) (poll : Nat) (report : StatusReport) :
    Action τ PollResult := do
  let detailed := 0 < o.detailEvery && poll % o.detailEvery == 0
  if detailed then showProgress target poll
  settleReport target o poll detailed report

/-- The report of a poll, if there is one. An error that stops polling is passed on. -/
def pollReport (s : Scheduler τ) (target : WaitTarget) (poll : Nat) :
    Action τ (Option StatusReport) :=
  tryCatch (do return some (← reconcile s target.batch target.runs)) fun e =>
    if e.stopsPolling then throw e
    else do
      Action.say ("poll #" ++ toString poll ++ ": status check failed: " ++ e.message)
      return none

/-- One poll. -/
def pollOnce (s : Scheduler τ) (target : WaitTarget) (o : WaitOptions) (poll : Nat) :
    Action τ PollResult := do
  match ← pollReport s target poll with
  | some report => judgeReport target o poll report
  | none => return .unknown

/-- Polls until waiting is over. `done` polls were made and `fuel` more can be counted. -/
def pollLoop (s : Scheduler τ) (c : Clock τ) (target : WaitTarget) (o : WaitOptions)
    (started : Nat) : Nat → Nat → Option StatusReport → Action τ WaitOutcome
  | 0, _, _ => throw .tooManyPolls
  | fuel + 1, done, last => do
    let poll := done + 1
    let result ← pollOnce s target o poll
    let last := match result with
      | .finished report => some report
      | .goesOn report => some report
      | .unknown => last
    match result with
    | .finished report => return .ofReport poll report
    | _ =>
      if o.maxWait.any (· < (← c.read) - started) then return .timedOut poll last
      else
        c.pause o.pollInterval
        pollLoop s c target o started fuel poll last

/-- The number of polls that can be counted, in 32 bits. -/
def maxPolls : Nat := 0xffffffff

/-- Waits for a batch to finish. -/
def waitForCompletion (s : Scheduler τ) (c : Clock τ) (target : WaitTarget) (o : WaitOptions) :
    Action τ WaitOutcome := do
  Action.say ("waiting for batch " ++ target.batch.id ++ " (" ++ toString target.runs.length ++
    " task(s)); poll every " ++ toString (o.pollInterval / 1000) ++ "s")
  if o.initialDelay ≠ 0 then c.pause o.initialDelay
  let started ← c.read
  pollLoop s c target o started maxPolls 0 none

end ParamSweep
