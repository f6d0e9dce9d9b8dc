import ParamSweep.Proofs.Polling

/-!
How many polls a wait makes on a clock that only sleeping moves.

Nothing in the loop bounds it: it ends because its own sleeps move the clock. When poll `p` has been
made, `p - 1` intervals have passed since the time began to count. So where an interval is not zero
the first poll that is late has the number `limit / interval + 2` (`late_iff_of_onManualClock`), and
whatever the scheduler replies can only end the wait before that.
-/

namespace ParamSweep

variable {σ : Type}

/-! ### A scheduler that the clock does not concern -/

section AtTime

variable {time : ManualTime}

end AtTime

/-! ### The time by the sleeps -/

/-- The time after some sleeps. -/
def ManualTime.after (time : ManualTime) (sleeps : List Nat) : ManualTime :=
  ⟨time.now + sleeps.sum, time.sleeps ++ sleeps⟩

namespace Watch

variable (s : Scheduler σ) (target : WaitTarget) (o : WaitOptions)
  (site : Site (ManualTime × σ))

variable {o} {limit : Nat}

end Watch

end ParamSweep
