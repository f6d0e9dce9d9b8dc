import ParamSweep.Tasks.Wait
import ParamSweep.Programs.Shell

/-!
What the command line runs on. A `Host` has programs, a scheduler and a clock; `machine` is the one
whose programs are those of the shell, with a clock that goes on while commands of the scheduler run
and while it sleeps.
-/

namespace ParamSweep.CommandLine

/-- What commands run on. -/
structure Host (τ : Type) where
  programs : Programs
  /-- The scheduler that the settings of a plan speak of. -/
  scheduler : SchedulerCommands → Scheduler τ
  clock : Clock τ

/-- The milliseconds since the start. -/
abbrev Machine := Nat

/-- The milliseconds that a command of the scheduler takes. -/
def commandTime : Nat := 1

/-- The clock of the machine. -/
def clock : Clock Machine where
  elapsed := id
  sleep ms := fun (t, now) => (t, now + ms)

/-- A query during which time goes on. -/
def timed (q : Query Machine) : Query Machine := fun t now =>
  let (answer, now) := q t now
  (answer, now + commandTime)

/-- The scheduler behind the commands of the machine. -/
def scheduler (c : SchedulerCommands) : Scheduler Machine :=
  let s : Scheduler Machine := Scheduler.ofCommands Shell.programs c
  { submit := fun script environment => timed (s.submit script environment),
    accounting := fun batch => timed (s.accounting batch),
    queue := fun batch => timed (s.queue batch) }

/-- The machine as what commands run on. -/
def machine : Host Machine := ⟨Shell.programs, scheduler, clock⟩

end ParamSweep.CommandLine
