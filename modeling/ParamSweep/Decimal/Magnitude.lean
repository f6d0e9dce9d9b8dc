/-!
The exact value of a double and its comparison with decimals.

A finite double without its sign is `significand * 2 ^ exponent`. The reals that round to it form an
interval that ends halfway to the neighbours on both sides; `Magnitude.readsBack` decides by exact
integer arithmetic whether a decimal lies in it. The ends belong to the interval exactly when the
significand is even.
-/

namespace ParamSweep.Decimal

/-- A finite non-negative double, taken apart. -/
structure Magnitude where
  significand : Nat
  exponent : Int
  /-- The gap to the neighbour below is half the gap to the neighbour above. -/
  narrowBelow : Bool

/-- Reads a magnitude off the bits of a double that is neither infinite nor NaN. -/
def Magnitude.ofBits (bits : UInt64) : Magnitude :=
  let e := ((bits >>> 52) &&& 0x7FF).toNat
  let f := (bits &&& 0xFFFFFFFFFFFFF).toNat
  if e = 0 then ⟨f, -1074, false⟩
  else ⟨0x10000000000000 + f, (e : Int) - 1075, f = 0 && decide (1 < e)⟩

/-- The sign bit. -/
def signBit (x : Float) : Bool := x.toBits >>> 63 == 1

/-- The decimal `digits * 10 ^ exponent`. -/
structure Digits where
  digits : Nat
  exponent : Int
  deriving DecidableEq, Inhabited

/-- Compares `a * 10 ^ i` with `b * 2 ^ j`. -/
def compareScaled (a : Nat) (i : Int) (b : Nat) (j : Int) : Ordering :=
  compare (a * Nat.pow 10 i.toNat * Nat.pow 2 (-j).toNat)
    (b * Nat.pow 2 j.toNat * Nat.pow 10 (-i).toNat)

/-- Whether a decimal lies among the reals that round to the magnitude. -/
def Magnitude.readsBack (x : Magnitude) (d : Digits) : Bool :=
  let low := if x.narrowBelow then 4 * x.significand - 1 else 4 * x.significand - 2
  let high := 4 * x.significand + 2
  let closed := x.significand % 2 == 0
  let atLow := compareScaled d.digits d.exponent low (x.exponent - 2)
  let atHigh := compareScaled d.digits d.exponent high (x.exponent - 2)
  (atLow == .gt || (closed && atLow == .eq)) && (atHigh == .lt || (closed && atHigh == .eq))

/-- The least `k` with `x < 10 ^ k`, for a magnitude other than zero. -/
def Magnitude.scale (x : Magnitude) : Int :=
  let guess := ((x.significand.log2 : Int) + x.exponent) * 30103 / 100000 - 1
  let above (k : Int) : Bool := compareScaled 1 k x.significand x.exponent == .gt
  ([guess, guess + 1, guess + 2].find? above).getD (guess + 3)

/-- Numerator and denominator of `x / 10 ^ grid`. -/
def Magnitude.overGrid (x : Magnitude) (grid : Int) : Nat × Nat :=
  (x.significand * Nat.pow 2 x.exponent.toNat * Nat.pow 10 (-grid).toNat,
    Nat.pow 2 (-x.exponent).toNat * Nat.pow 10 grid.toNat)

/-- What becomes of a value that lies exactly between two candidates. -/
inductive Tie where
  | toEven
  | up
  deriving DecidableEq

/-- The quotient rounded to the nearest integer. -/
def roundedQuotient (tie : Tie) (num den : Nat) : Nat :=
  let q := num / den
  match compare (2 * (num % den)) den, tie with
  | .lt, _ => q
  | .gt, _ => q + 1
  | .eq, .up => q + 1
  | .eq, .toEven => if q % 2 = 0 then q else q + 1

end ParamSweep.Decimal
