import ParamSweep.Expression.Tree
import ParamSweep.Value.Path
import ParamSweep.Value.Json

/-!
The value of an expression in a context of named values.

Integers have 64 bits. Sums, differences, products, remainders and powers of integers are integers
as long as they fit, and doubles otherwise; a quotient is always a double. The remainder has the
sign of the divisor.
-/

namespace ParamSweep.Expression

/-- What an evaluation can fail with, apart from a name that is not there. -/
inductive Failure where
  | divisionByZero
  | notNumeric (name : String) (value : Value)
  | notFinite (x : Float)
  | wrongArity (function : String) (expected given : Nat)
  | noArguments (function : String)
  | unknownFunction (function : String)
  deriving Inhabited

/-- Why a text has no value. -/
inductive Fault where
  | unknownIdentifier (name : String)
  | malformed (offset : Nat) (cause : Malformed)
  | failed (cause : Failure)
  deriving Inhabited

/-- The wording of a failed evaluation. -/
def Failure.message : Failure → String
  | .divisionByZero => "division by zero"
  | .notNumeric name value => "'" ++ name ++ "' is not numeric (found " ++ value.compact ++ ")"
  | .notFinite x => "result " ++ Decimal.Notation.plain.write x ++ " is not finite"
  | .wrongArity function expected given =>
    function ++ "() takes " ++ toString expected ++ " argument(s), got " ++ toString given
  | .noArguments function => function ++ "() needs at least one argument"
  | .unknownFunction function => "unknown function '" ++ function ++ "'"

/-- The wording of a fault. -/
def Fault.message : Fault → String
  | .unknownIdentifier name => "unknown identifier '" ++ name ++ "'"
  | .malformed offset cause =>
    "syntax error at offset " ++ toString offset ++ ": " ++ cause.message
  | .failed cause => cause.message

/-- The double closest to an integer. Of two that are equally close it is the one with an even
mantissa. -/
def closest (n : Int) : Float := .ofModel (.ofInt n)

/-- The number as a double. -/
def toDouble : Number → Float
  | .int n => closest n
  | .float x => x

/-- The number that a value of the context stands for: truth values count as one and zero, and
integers of more than 63 bits as doubles. -/
def numberOf (name : String) : Value → Except Fault Number
  | .num (.int n) => .ok (if fits n then .int n else .float (closest n))
  | .num (.float x) => .ok (.float x)
  | .bool b => .ok (.int (if b then 1 else 0))
  | v => .error (.failed (.notNumeric name v))

/-- The integer power, if it has 64 bits. Beyond an exponent of 63 only the powers of -1, 0 and 1
have, and they depend on the parity of the exponent alone. -/
def powInt? (x : Int) (y : Nat) : Option Int :=
  if y < 64 then checked (Int.pow x y)
  else if x.natAbs ≤ 1 then some (Int.pow x (2 + y % 2))
  else none

/-- The greatest exponent of an integer power. -/
def maxExponent : Nat := 0xFFFFFFFF

/-- The remainder with the sign of the divisor. The machine's remainder has the sign of the
dividend. -/
def floorMod (x y : Int64) : Int64 :=
  let r := x % y
  if r ≠ 0 ∧ decide (r < 0) ≠ decide (y < 0) then r + y else r

/-- An operator on integers, where the result is an integer of 64 bits. -/
def applyInt? : BinOp → Int → Int → Option Int
  | .add, x, y => checked (x + y)
  | .sub, x, y => checked (x - y)
  | .mul, x, y => checked (x * y)
  | .mod, x, y => some (floorMod (Int64.ofInt x) (Int64.ofInt y)).toInt
  | .pow, x, y =>
    if 0 ≤ y && y.toNat ≤ maxExponent then powInt? x y.toNat else none
  | .div, _, _ => none

/-- An operator on doubles. -/
def applyDouble (op : BinOp) (x y : Float) : Except Fault Number :=
  match op with
  | .add => .ok (.float (x + y))
  | .sub => .ok (.float (x - y))
  | .mul => .ok (.float (x * y))
  | .div => if y == 0 then .error (.failed .divisionByZero) else .ok (.float (x / y))
  | .mod =>
    if y == 0 then .error (.failed .divisionByZero)
    else .ok (.float (x - y * (x / y).floor))
  | .pow => .ok (.float (x.pow y))

/-- An operator on numbers. -/
def applyBinary (op : BinOp) (a b : Number) : Except Fault Number :=
  match op, a, b with
  | .mod, .int _, .int 0 => .error (.failed .divisionByZero)
  | .div, _, .int 0 => .error (.failed .divisionByZero)
  | op, .int x, .int y =>
    match applyInt? op x y with
    | some n => .ok (.int n)
    | none => applyDouble op (closest x) (closest y)
  | op, a, b => applyDouble op (toDouble a) (toDouble b)

/-- The opposite number. -/
def negate : Number → Number
  | .int n => match checked (-n) with
    | some m => .int m
    | none => .float (-(closest n))
  | .float x => .float (-x)

/-- The first number that no later one beats, compared as doubles. -/
def best (beats : Float → Float → Bool) : Number → List Number → Number
  | b, [] => b
  | b, n :: rest => best beats (if beats (toDouble n) (toDouble b) then n else b) rest

/-- The magnitude of a number. The least integer has none of 64 bits and takes the greatest. -/
def magnitude : Number → Number
  | .int n => .int (min (n.natAbs : Int) maxInt)
  | .float x => .float x.abs

/-- A call of a function of one argument. -/
def unary (function : String) (f : Number → Number) : List Number → Except Fault Number
  | [a] => .ok (f a)
  | arguments => .error (.failed (.wrongArity function 1 arguments.length))

/-- A call of a function. -/
def applyFunction (function : String) (arguments : List Number) : Except Fault Number :=
  let extreme (beats : Float → Float → Bool) : Except Fault Number :=
    match arguments with
    | [] => .error (.failed (.noArguments function))
    | a :: rest => .ok (best beats a rest)
  match function with
  | "sqrt" => unary function (fun a => .float (toDouble a).sqrt) arguments
  | "exp" => unary function (fun a => .float (toDouble a).exp) arguments
  | "log" => unary function (fun a => .float (toDouble a).log) arguments
  | "abs" => unary function magnitude arguments
  | "pow" =>
    match arguments with
    | [a, b] => applyBinary .pow a b
    | _ => .error (.failed (.wrongArity function 2 arguments.length))
  | "min" => extreme fun x y => decide (x < y)
  | "max" => extreme fun x y => decide (y < x)
  | _ => .error (.failed (.unknownFunction function))

mutual

/-- The value of an expression. -/
def Expr.eval (context : Entries Value) : Expr → Except Fault Number
  | .num n => .ok n
  | .var name =>
    match context.lookup name with
    | some v => numberOf name v
    | none => .error (.unknownIdentifier name)
  | .neg e => do
    let a ← e.eval context
    .ok (negate a)
  | .binary op l r => do
    let a ← l.eval context
    let b ← r.eval context
    applyBinary op a b
  | .call function arguments => do
    let values ← evalAll context arguments
    applyFunction function values

/-- The values of several expressions, in order. -/
def evalAll (context : Entries Value) : List Expr → Except Fault (List Number)
  | [] => .ok []
  | e :: rest => do
    let a ← e.eval context
    let as ← evalAll context rest
    .ok (a :: as)

end

/-- The value of a text. -/
def evaluate (text : String) (context : Entries Value) : Except Fault Number :=
  match read text with
  | .error (offset, cause) => .error (.malformed offset cause)
  | .ok e => e.eval context

/-- A number as a value of a document; it has to be finite. -/
def toValue (n : Number) : Except Fault Value :=
  match n with
  | .int k => .ok (.int k)
  | .float x => if x.isFinite then .ok (.num (.float x)) else .error (.failed (.notFinite x))

end ParamSweep.Expression
