import ParamSweep.Value.Basic
import ParamSweep.Decimal.Read
import ParamSweep.Decimal.Notation

/-!
The words of the expression language: numbers, names, operators and brackets, each with the byte
offset at which it starts.
-/

namespace ParamSweep.Expression

/-- A word of an expression. -/
inductive Token where
  | num (n : Number)
  | ident (name : String)
  | plus
  | minus
  | star
  | slash
  | percent
  | pow
  | leftParen
  | rightParen
  | comma
  deriving Inhabited

/-- What makes a text no expression. -/
inductive Malformed where
  | invalidNumber (text : String)
  | unexpectedChar (c : Char)
  | unexpectedToken (t : Token)
  | unexpectedEnd
  | missingParen
  | trailing
  deriving Inhabited

/-- A word as it is named in messages. -/
def Token.describe : Token → String
  | .num (.int n) => "Num(Int(" ++ toString n ++ "))"
  | .num (.float x) => "Num(Float(" ++ Decimal.Notation.debug.write x ++ "))"
  | .ident name => "Ident(\"" ++ name ++ "\")"
  | .plus => "Plus"
  | .minus => "Minus"
  | .star => "Star"
  | .slash => "Slash"
  | .percent => "Percent"
  | .pow => "Pow"
  | .leftParen => "LParen"
  | .rightParen => "RParen"
  | .comma => "Comma"

/-- The wording of a syntax error. -/
def Malformed.message : Malformed → String
  | .invalidNumber text => "invalid number '" ++ text ++ "'"
  | .unexpectedChar c => "unexpected character '" ++ c.toString ++ "'"
  | .unexpectedToken t => "unexpected token " ++ t.describe
  | .unexpectedEnd => "unexpected end of expression"
  | .missingParen => "expected ')'"
  | .trailing => "unexpected trailing input"

/-- The least integer of 64 bits. -/
def minInt : Int := -0x8000000000000000

/-- The greatest integer of 64 bits. -/
def maxInt : Int := 0x7FFFFFFFFFFFFFFF

/-- Whether an integer has 64 bits. -/
def fits (n : Int) : Bool := decide (minInt ≤ n) && decide (n ≤ maxInt)

/-- The integer, if it has 64 bits. -/
def checked (n : Int) : Option Int := if fits n then some n else none

/-- A letter or digit of a number's text: the text, whether it is a decimal, and the rest. -/
def numberText : List Char → List Char × Bool × List Char
  | [] => ([], false, [])
  | c :: rest =>
    if c.isDigit then
      let (text, decimal, r) := numberText rest
      (c :: text, decimal, r)
    else if c = '.' then
      let (text, _, r) := numberText rest
      (c :: text, true, r)
    else if c = 'e' || c = 'E' then
      match rest with
      | d :: rest' =>
        if d.isDigit || ((d = '-' || d = '+') && (rest'.head?.any Char.isDigit)) then
          let (text, _, r) := numberText rest'
          (c :: d :: text, true, r)
        else ([], false, c :: rest)
      | [] => ([], false, c :: rest)
    else ([], false, c :: rest)

/-- The number that a text denotes. -/
def readNumber? (text : List Char) (decimal : Bool) : Option Number :=
  if decimal then (Decimal.read? text).map .float
  else (checked (Decimal.natural text)).map .int

/-- A letter that may start a name. -/
def startsName (c : Char) : Bool := c.isAlpha || c = '_'

/-- A letter that may continue a name. -/
def continuesName (c : Char) : Bool := c.isAlphanum || c = '_' || c = '.'

/-- The operator or bracket that a character stands for. -/
def symbol? : Char → Option Token
  | '+' => some .plus
  | '-' => some .minus
  | '*' => some .star
  | '/' => some .slash
  | '%' => some .percent
  | '^' => some .pow
  | '(' => some .leftParen
  | ')' => some .rightParen
  | ',' => some .comma
  | _ => none

/-- The character whose code is the first byte of `c` as it is stored. -/
def leadByte (c : Char) : Char :=
  let n := c.toNat
  if n < 0x80 then c
  else if n < 0x800 then Char.ofNat (0xC0 + n / 0x40)
  else if n < 0x10000 then Char.ofNat (0xE0 + n / 0x1000)
  else Char.ofNat (0xF0 + n / 0x40000)

/-- The words of a text that starts at `offset`. Every step uses a character, so as much fuel as
there are characters is enough. -/
def tokens : Nat → Nat → List Char → Except (Nat × Malformed) (List (Nat × Token))
  | _, _, [] => .ok []
  | 0, offset, _ :: _ => .error (offset, .unexpectedEnd)
  | fuel + 1, offset, c :: rest =>
    if c = ' ' || c = '\t' || c = '\n' || c = '\r' then tokens fuel (offset + 1) rest
    else if c = '*' && rest.head? = some '*' then do
      let ts ← tokens fuel (offset + 2) rest.tail
      .ok ((offset, .pow) :: ts)
    else match symbol? c with
      | some t => do
        let ts ← tokens fuel (offset + 1) rest
        .ok ((offset, t) :: ts)
      | none =>
        if c.isDigit || c = '.' then
          let (text, decimal, rest') := numberText (c :: rest)
          match readNumber? text decimal with
          | some n => do
            let ts ← tokens fuel (offset + text.length) rest'
            .ok ((offset, .num n) :: ts)
          | none => .error (offset, .invalidNumber (String.ofList text))
        else if startsName c then do
          let name := c :: rest.takeWhile continuesName
          let ts ← tokens fuel (offset + name.length) (rest.dropWhile continuesName)
          .ok ((offset, .ident (String.ofList name)) :: ts)
        else .error (offset, .unexpectedChar (leadByte c))

/-- The words of a text. -/
def tokenize (text : String) : Except (Nat × Malformed) (List (Nat × Token)) :=
  tokens text.toList.length 0 text.toList

end ParamSweep.Expression
