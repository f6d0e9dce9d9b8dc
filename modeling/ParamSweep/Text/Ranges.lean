/-!
Sets of characters given by ranges of code points.
-/

namespace ParamSweep.Text

/-- Whether `n` lies in one of the ranges `lo, hi, lo, hi, …`, which ascend. -/
def within (n : Nat) : List Nat → Bool
  | lo :: hi :: rest => decide (lo ≤ n) && (decide (n ≤ hi) || within n rest)
  | _ => false

end ParamSweep.Text
