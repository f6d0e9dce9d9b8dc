/-!
From decimals to doubles.

`nearest` rounds exactly. `scaled` is the quicker reading that text documents use: the digits that
fit a 64-bit word are taken as a double, which is then multiplied or divided by a power of ten, so
its last bit may differ from the nearest double.
-/

namespace ParamSweep.Decimal

/-- The value of a run of decimal digits. -/
def natural (digits : List Char) : Nat :=
  digits.foldl (fun n c => 10 * n + (c.toNat - '0'.toNat)) 0

/-- The double nearest to `m * 10 ^ e`; beyond the range it is infinite, below it zero. -/
def nearest (m : Nat) (e : Int) : Float :=
  let magnitude := ((Nat.toDigits 10 m).length : Int) + e
  if m = 0 || magnitude < -400 then 0
  else if 400 < magnitude then Float.ofScientific 1 false 400
  else if 0 ≤ e then Float.ofScientific m false e.toNat
  else Float.ofScientific m true e.natAbs

/-- The double nearest to what a decimal text without a sign denotes: digits around an optional
point, and an optional exponent. -/
def read? (text : List Char) : Option Float :=
  let whole := text.takeWhile Char.isDigit
  let rest := text.dropWhile Char.isDigit
  let (places, rest) := match rest with
    | '.' :: r => (r.takeWhile Char.isDigit, r.dropWhile Char.isDigit)
    | r => ([], r)
  if whole.isEmpty && places.isEmpty then none
  else
    let m := natural (whole ++ places)
    match rest with
    | [] => some (nearest m (-(places.length : Int)))
    | _ :: r =>
      let (down, ds) := match r with
        | '-' :: r' => (true, r')
        | '+' :: r' => (false, r')
        | r' => (false, r')
      if rest.head?.any (fun c => c = 'e' || c = 'E') && !ds.isEmpty && ds.all Char.isDigit then
        let e : Int := natural ds
        some (nearest m ((if down then -e else e) - places.length))
      else none

/-- The greatest number in a 64-bit word. -/
def wordLimit : Nat := 0xFFFFFFFFFFFFFFFF

/-- Takes digits into the word as long as it holds them: the word and the digits that are left. -/
def fillWord : Nat → List Char → Nat × List Char
  | word, [] => (word, [])
  | word, c :: rest =>
    let next := 10 * word + (c.toNat - '0'.toNat)
    if wordLimit < next then (word, c :: rest) else fillWord next rest

/-- The greatest power of ten in one step of `scaled`. -/
def powerStep : Nat := 308

/-- `f * 10 ^ e` in steps of at most `powerStep`; `none` when that is out of range. -/
def applyExponent : Nat → Float → Int → Option Float
  | 0, f, _ => some f
  | fuel + 1, f, e =>
    if e.natAbs ≤ powerStep then
      let power := Float.ofScientific 1 false e.natAbs
      if 0 ≤ e then
        let g := f * power
        if g.isInf then none else some g
      else some (f / power)
    else if f == 0 then some f
    else if 0 ≤ e then none
    else applyExponent fuel (f / Float.ofScientific 1 false powerStep) (e + powerStep)

/-- `word * 10 ^ e`, by floating-point arithmetic. Four steps bring any word to zero. -/
def scaled (word : Nat) (e : Int) : Option Float := applyExponent 6 (Float.ofNat word) e

end ParamSweep.Decimal
