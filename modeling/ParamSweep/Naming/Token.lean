import ParamSweep.Value.Json
import ParamSweep.Text.Pieces

/-!
Values in names: how a value is spelled, how a spelling becomes fit for a file name, and the name of
a run that is put together from its parameters.
-/

namespace ParamSweep.Naming

/-- Doubles in names are positional from `1e-4` up to, not including, `1e16`, and have a signed
exponent of at least two digits elsewhere. -/
def numbers : Decimal.Notation where
  plainFrom := some (-4)
  plainBelow := some 16
  pointZero := true
  exponentPlus := true
  exponentWidth := 2
  tie := .up
  nan := "NaN"
  infinity := "inf"

/-- The spelling of a value. -/
def spell : Value → String
  | .str s => s
  | .null => "none"
  | .bool true => "true"
  | .bool false => "false"
  | .num (.int n) => toString n
  | .num (.float x) => numbers.write x
  | v => v.compact

/-- Points become `p`: `1.5` is `1p5`. -/
def pointless (cs : List Char) : List Char := cs.map fun c => if c = '.' then 'p' else c

/-- Points become `p`: `1.5` is `1p5`. -/
def fsSafe (s : String) : String := String.ofList (pointless s.toList)

/-- Whether a character may stand in a token. -/
def isTokenChar (c : Char) : Bool := c.isAlphanum || c = '.' || c = '_' || c = '-'

/-- Characters that may not stand in a token become `_`. -/
def tokenChars (cs : List Char) : List Char := cs.map fun c => if isTokenChar c then c else '_'

/-- Characters that may not stand in a token become `_`. -/
def sanitize (s : String) : String := String.ofList (tokenChars s.toList)

/-- A parameter in a name: its key and its value. -/
def parameterToken (key : String) (value : Value) : String :=
  sanitize (key ++ fsSafe (spell value))

/-- The name made of the prefix, the branch and the parameters; empty parts leave no trace. -/
def fallbackName (outputPrefix branch : String) (parameters : List (String × Value)) : String :=
  let tokens := Text.joined "_" (parameters.map fun (k, v) => parameterToken k v)
  Text.joined "_" ([outputPrefix, sanitize branch, tokens].filter (· ≠ ""))

end ParamSweep.Naming
