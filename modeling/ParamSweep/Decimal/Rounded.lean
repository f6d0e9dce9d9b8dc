import ParamSweep.Decimal.Notation

/-!
Doubles with a set number of places. The exact value of the double is rounded, and a tie goes to
the even neighbour.
-/

namespace ParamSweep.Decimal

/-- The special texts of what is not finite, and the sign in front of anything else. -/
def signed (x : Float) (body : Magnitude → List Char) : String :=
  if x.isNaN then "NaN"
  else
    let sign := if signBit x then "-" else ""
    if x.isInf then sign ++ "inf"
    else sign ++ String.ofList (body (Magnitude.ofBits x.toBits))

/-- The value with exactly `places` digits behind the point. -/
def fixedPlaces (places : Nat) (x : Float) : String :=
  signed x fun m =>
    let (num, den) := m.overGrid (-(places : Int))
    positional false ⟨roundedQuotient .toEven num den, -(places : Int)⟩

/-- The value with one digit before the point, `places` behind it, and an exponent. -/
def scientificPlaces (places : Nat) (x : Float) : String :=
  signed x fun m =>
    if m.significand = 0 then
      scientificDigits ⟨0, 0⟩ (zeros places)
    else
      let grid := m.scale - ((places + 1 : Nat) : Int)
      let (num, den) := m.overGrid grid
      let n := roundedQuotient .toEven num den
      -- rounding up may reach the next power of ten
      let d : Digits := if n = Nat.pow 10 (places + 1) then ⟨n / 10, grid + 1⟩ else ⟨n, grid⟩
      scientificDigits d []
where
  /-- One digit, the point where more follow, the exponent of the leading digit. -/
  scientificDigits (d : Digits) (padding : List Char) : List Char :=
    let ds := naturalDigits d.digits
    let all := ds ++ padding
    let mantissa := match all with
      | c :: c' :: rest => c :: '.' :: c' :: rest
      | short => short
    mantissa ++ 'e' :: exponentText false 1 (d.exponent + (ds.length - 1 : Nat))

end ParamSweep.Decimal
