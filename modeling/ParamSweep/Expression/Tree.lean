import ParamSweep.Expression.Token

/-!
Expression trees and how they are read off a list of words.

Every operator between two operands has a strength, and the stronger one takes its operands first.
Of operators of one strength the left one goes first, but of powers the right one. A sign is weaker
than a power and stronger than all other operators.

An expression is read as an operand and then operator by operator, each with the expression behind
it that has only stronger operators. Each reader takes the words that are left and gives back those
it has not used.
-/

namespace ParamSweep.Expression

/-- The operators between two operands. -/
inductive BinOp where
  | add
  | sub
  | mul
  | div
  | mod
  | pow
  deriving DecidableEq, Inhabited

/-- An expression. A plus sign in front of an operand leaves no trace. -/
inductive Expr where
  | num (n : Number)
  | var (name : String)
  | neg (operand : Expr)
  | binary (op : BinOp) (left right : Expr)
  | call (function : String) (arguments : List Expr)
  deriving Inhabited

/-- How an operator binds: its strength, and whether the right one of two goes first. -/
structure Binding where
  op : BinOp
  strength : Nat
  rightFirst : Bool := false

/-- The binding of a word that is an operator. -/
def Token.binding? : Token → Option Binding
  | .plus => some { op := .add, strength := 10 }
  | .minus => some { op := .sub, strength := 10 }
  | .star => some { op := .mul, strength := 20 }
  | .slash => some { op := .div, strength := 20 }
  | .percent => some { op := .mod, strength := 20 }
  | .pow => some { op := .pow, strength := 40, rightFirst := true }
  | _ => none

/-- The strength of a sign. -/
def signStrength : Nat := 30

/-- The least strength that operators behind an operator must have to go first. -/
def Binding.behind (b : Binding) : Nat := if b.rightFirst then b.strength else b.strength + 1

/-- Words with their offsets. -/
abbrev Words := List (Nat × Token)

/-- The offset at which reading stands: that of the next word, or the end of the text. -/
def Words.offset (textEnd : Nat) : Words → Nat
  | [] => textEnd
  | (o, _) :: _ => o

/-- The operator that comes next, if it has at least a strength, and the words behind it. -/
def Words.operator? (least : Nat) : Words → Option (Binding × Words)
  | [] => none
  | (_, t) :: rest =>
    match t.binding? with
    | some b => if b.strength < least then none else some (b, rest)
    | none => none

/-- Reading may fail at an offset. -/
abbrev Reading := Except (Nat × Malformed)

/-- The word `)`. -/
def closing (textEnd : Nat) : Words → Reading Words
  | (_, .rightParen) :: rest => .ok rest
  | ws => .error (ws.offset textEnd, .missingParen)

mutual

/-- An expression whose operators have at least a strength. -/
def readAbove (textEnd : Nat) : Nat → Nat → Words → Reading (Expr × Words)
  | 0, _, ws => .error (ws.offset textEnd, .unexpectedEnd)
  | fuel + 1, least, ws => do
    let (e, rest) ← readOperand textEnd fuel ws
    readOperators textEnd fuel least e rest

/-- The operators of at least a strength that follow `left`, with what is behind them. -/
def readOperators (textEnd : Nat) : Nat → Nat → Expr → Words → Reading (Expr × Words)
  | 0, _, _, ws => .error (ws.offset textEnd, .unexpectedEnd)
  | fuel + 1, least, left, ws =>
    match ws.operator? least with
    | some (b, rest) => do
      let (right, rest') ← readAbove textEnd fuel b.behind rest
      readOperators textEnd fuel least (.binary b.op left right) rest'
    | none => .ok (left, ws)

/-- An atom or a sign with what is behind it. -/
def readOperand (textEnd : Nat) : Nat → Words → Reading (Expr × Words)
  | 0, ws => .error (ws.offset textEnd, .unexpectedEnd)
  | fuel + 1, (_, .minus) :: rest => do
    let (e, rest') ← readAbove textEnd fuel signStrength rest
    .ok (.neg e, rest')
  | fuel + 1, (_, .plus) :: rest => readAbove textEnd fuel signStrength rest
  | fuel + 1, ws => readAtom textEnd fuel ws

/-- A number, a name, a call, or an expression in brackets. -/
def readAtom (textEnd : Nat) : Nat → Words → Reading (Expr × Words)
  | 0, ws => .error (ws.offset textEnd, .unexpectedEnd)
  | _ + 1, (_, .num n) :: rest => .ok (.num n, rest)
  | _ + 1, (_, .ident name) :: (_, .leftParen) :: (_, .rightParen) :: rest =>
    .ok (.call name [], rest)
  | fuel + 1, (_, .ident name) :: (_, .leftParen) :: rest => do
    let (arguments, rest') ← readArguments textEnd fuel rest
    let rest'' ← closing textEnd rest'
    .ok (.call name arguments, rest'')
  | _ + 1, (_, .ident name) :: rest => .ok (.var name, rest)
  | fuel + 1, (_, .leftParen) :: rest => do
    let (e, rest') ← readAbove textEnd fuel 0 rest
    let rest'' ← closing textEnd rest'
    .ok (e, rest'')
  | _ + 1, (o, t) :: _ => .error (o, .unexpectedToken t)
  | _ + 1, [] => .error (textEnd, .unexpectedEnd)

/-- Expressions between commas, at least one. -/
def readArguments (textEnd : Nat) : Nat → Words → Reading (List Expr × Words)
  | 0, ws => .error (ws.offset textEnd, .unexpectedEnd)
  | fuel + 1, ws => do
    let (e, rest) ← readAbove textEnd fuel 0 ws
    match rest with
    | (_, .comma) :: rest' => do
      let (es, rest'') ← readArguments textEnd fuel rest'
      .ok (e :: es, rest'')
    | _ => .ok ([e], rest)

end

/-- Enough fuel for a list of words: at most three readers call one another before a word is
used. -/
def readingFuel (ws : Words) : Nat := 3 * ws.length + 3

/-- The expression that a whole list of words stands for. -/
def ofWords (textEnd : Nat) (ws : Words) : Reading Expr := do
  let (e, rest) ← readAbove textEnd (readingFuel ws) 0 ws
  match rest with
  | [] => .ok e
  | (o, _) :: _ => .error (o, .trailing)

/-- The expression that a text stands for. -/
def read (text : String) : Reading Expr := do
  let ws ← tokenize text
  ofWords text.utf8ByteSize ws

end ParamSweep.Expression
