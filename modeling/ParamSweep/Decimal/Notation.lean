import ParamSweep.Decimal.Shortest

/-!
How a double is written: which digits (`Decimal.Shortest`) and how they are laid out.

The layout is a record, one value of it for each kind of text that the program writes: `json` for
values, `yaml` for rendered files, `plain` and `debug` for messages.
-/

namespace ParamSweep.Decimal

/-- The decisions of one way to write doubles. -/
structure Notation where
  /-- The least exponent of the leading digit that is written positionally; `none`: all are. -/
  plainFrom : Option Int
  /-- The first exponent of the leading digit that is no longer written positionally. -/
  plainBelow : Option Int
  /-- Whether an integral value ends in `.0`. -/
  pointZero : Bool
  /-- Whether a positive exponent carries a sign. -/
  exponentPlus : Bool
  /-- The least number of digits of an exponent. -/
  exponentWidth : Nat
  tie : Tie
  nan : String
  infinity : String

/-- Numbers in structured values: positional from `1e-5` up to, not including, `1e16`. -/
def Notation.json : Notation where
  plainFrom := some (-5)
  plainBelow := some 16
  pointZero := true
  exponentPlus := true
  exponentWidth := 1
  tie := .toEven
  nan := "null"
  infinity := "null"

/-- Numbers in rendered configuration files: as in values, without a sign on positive exponents. -/
def Notation.yaml : Notation :=
  { Notation.json with exponentPlus := false, nan := ".nan", infinity := ".inf" }

/-- Numbers in messages: always positional, integral values without a point. -/
def Notation.plain : Notation where
  plainFrom := none
  plainBelow := none
  pointZero := false
  exponentPlus := false
  exponentWidth := 1
  tie := .up
  nan := "NaN"
  infinity := "inf"

/-- Numbers of the expression language as they are quoted in its errors. -/
def Notation.debug : Notation :=
  { Notation.plain with plainFrom := some (-4), plainBelow := some 16, pointZero := true }

/-- The decimal digits of a natural number. -/
def naturalDigits (n : Nat) : List Char := Nat.toDigits 10 n

/-- Zeros. -/
def zeros (n : Nat) : List Char := List.replicate n '0'

/-- The decimal with every digit in its place. -/
def positional (pointZero : Bool) (d : Digits) : List Char :=
  let ds := naturalDigits d.digits
  if 0 ≤ d.exponent then
    ds ++ zeros d.exponent.toNat ++ (if pointZero then ['.', '0'] else [])
  else
    let places := (-d.exponent).toNat
    if ds.length ≤ places then ['0', '.'] ++ zeros (places - ds.length) ++ ds
    else ds.take (ds.length - places) ++ '.' :: ds.drop (ds.length - places)

/-- An exponent with its sign. -/
def exponentText (plus : Bool) (width : Nat) (e : Int) : List Char :=
  let ds := naturalDigits e.natAbs
  (if e < 0 then ['-'] else if plus then ['+'] else []) ++ zeros (width - ds.length) ++ ds

/-- The decimal with one digit before the point and the exponent behind. -/
def scientific (plus : Bool) (width : Nat) (d : Digits) : List Char :=
  let ds := naturalDigits d.digits
  let mantissa := match ds with
    | [] => []
    | [c] => [c]
    | c :: rest => c :: '.' :: rest
  mantissa ++ 'e' :: exponentText plus width (d.exponent + (ds.length - 1 : Nat))

/-- The text of a magnitude, given by its shortest digits. -/
def Notation.layout (style : Notation) (d : Digits) : List Char :=
  let lead := d.exponent + ((naturalDigits d.digits).length - 1 : Nat)
  let plain := d.digits = 0 ||
    ((style.plainFrom.all fun low => decide (low ≤ lead)) &&
      style.plainBelow.all fun high => decide (lead < high))
  if plain then positional style.pointZero d
  else scientific style.exponentPlus style.exponentWidth d

/-- The text of a double. -/
def Notation.write (style : Notation) (x : Float) : String :=
  if x.isNaN then style.nan
  else
    let sign := if signBit x then "-" else ""
    if x.isInf then (if style.infinity = "null" then "null" else sign ++ style.infinity)
    else sign ++ String.ofList (style.layout ((Magnitude.ofBits x.toBits).shortest style.tie))

end ParamSweep.Decimal
