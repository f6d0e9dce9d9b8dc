import ParamSweep.Decimal.Magnitude

/-!
The fewest decimal digits that read back to a double.

The search goes through the decimal grids from the coarsest that can hold a digit of the value. On
each grid the two neighbours of the value are tried; the first grid on which one of them reads back
wins, of two hits the nearer one, and an exact tie goes by the given rule. Should no grid of up to
seventeen digits succeed, the exact value is taken.
-/

namespace ParamSweep.Decimal

/-- Removes trailing zeros from the digits, at most `fuel` of them. -/
def Digits.strip : Nat → Digits → Digits
  | 0, d => d
  | fuel + 1, d =>
    if d.digits ≠ 0 ∧ d.digits % 10 = 0 then Digits.strip fuel ⟨d.digits / 10, d.exponent + 1⟩
    else d

/-- The neighbour of the value on the grid `10 ^ grid` that reads back, if one does. -/
def Magnitude.onGrid (tie : Tie) (x : Magnitude) (grid : Int) : Option Digits :=
  let (num, den) := x.overGrid grid
  let lower : Digits := ⟨num / den, grid⟩
  let upper : Digits := ⟨num / den + 1, grid⟩
  match x.readsBack lower, x.readsBack upper with
  | true, true => some ⟨roundedQuotient tie num den, grid⟩
  | true, false => some lower
  | false, true => some upper
  | false, false => none

/-- The decimal equal to the magnitude. -/
def Magnitude.exact (x : Magnitude) : Digits :=
  ⟨x.significand * Nat.pow 2 x.exponent.toNat * Nat.pow 5 (-x.exponent).toNat, min x.exponent 0⟩

/-- The shortest decimal that reads back to the magnitude, the nearest one of its length. -/
def Magnitude.shortest (tie : Tie) (x : Magnitude) : Digits :=
  if x.significand = 0 then ⟨0, 0⟩ else
    let k := x.scale
    let found := (List.range 17).findSome? fun n => x.onGrid tie (k - (n + 1 : Nat))
    Digits.strip 400 (found.getD x.exact)

end ParamSweep.Decimal
