import ParamSweep.Value.Basic
import ParamSweep.Decimal.Read

/-!
Reading JSON text.

The reader works from left to right on the characters and gives back what it has not used. Numbers
without a point or an exponent that fit 64 bits are integers, all others doubles by
`Decimal.scaled`. Of entries with one key the last one counts. A text may nest
`Json.maxDepth` lists and mappings, not more.
-/

namespace ParamSweep.Json

/-- A blank between tokens. -/
def isBlank (c : Char) : Bool := c = ' ' || c = '\n' || c = '\t' || c = '\r'

/-- The text from its first non-blank character on. -/
def skip (cs : List Char) : List Char := cs.dropWhile isBlank

/-- The nesting that is still read. -/
def maxDepth : Nat := 127

/-- The value of a hexadecimal digit. -/
def hexValue? (c : Char) : Option Nat :=
  if '0' ≤ c && c ≤ '9' then some (c.toNat - 48)
  else if 'a' ≤ c && c ≤ 'f' then some (c.toNat - 87)
  else if 'A' ≤ c && c ≤ 'F' then some (c.toNat - 55)
  else none

/-- Four hexadecimal digits. -/
def hex4? : List Char → Option (Nat × List Char)
  | a :: b :: c :: d :: rest => do
    let w ← hexValue? a
    let x ← hexValue? b
    let y ← hexValue? c
    let z ← hexValue? d
    some (w * 4096 + x * 256 + y * 16 + z, rest)
  | _ => none

/-- What follows the letter of a four-digit escape: one unit, or the two of a surrogate pair. -/
def unicodeEscape? (cs : List Char) : Option (Char × List Char) := do
  let (high, rest) ← hex4? cs
  if 0xD800 ≤ high && high < 0xDC00 then
    match rest with
    | '\\' :: 'u' :: rest' =>
      let (low, rest'') ← hex4? rest'
      if 0xDC00 ≤ low && low < 0xE000 then
        some (Char.ofNat (0x10000 + (high - 0xD800) * 0x400 + (low - 0xDC00)), rest'')
      else none
    | _ => none
  else if 0xDC00 ≤ high && high < 0xE000 then none
  else some (Char.ofNat high, rest)

/-- The rest of a text after its opening quote, up to and including the closing one. -/
def stringBody? : Nat → List Char → List Char → Option (String × List Char)
  | 0, _, _ => none
  | _ + 1, _, [] => none
  | fuel + 1, acc, c :: rest =>
    if c = '"' then some (String.ofList acc.reverse, rest)
    else if c = '\\' then
      match rest with
      | '"' :: r => stringBody? fuel ('"' :: acc) r
      | '\\' :: r => stringBody? fuel ('\\' :: acc) r
      | '/' :: r => stringBody? fuel ('/' :: acc) r
      | 'b' :: r => stringBody? fuel ('\x08' :: acc) r
      | 'f' :: r => stringBody? fuel ('\x0c' :: acc) r
      | 'n' :: r => stringBody? fuel ('\n' :: acc) r
      | 'r' :: r => stringBody? fuel ('\r' :: acc) r
      | 't' :: r => stringBody? fuel ('\t' :: acc) r
      | 'u' :: r => do
        let (c, r') ← unicodeEscape? r
        stringBody? fuel (c :: acc) r'
      | _ => none
    else if c.toNat < 0x20 then none
    else stringBody? fuel (c :: acc) rest

/-- A text in quotes. -/
def string? : List Char → Option (String × List Char)
  | '"' :: rest => stringBody? (rest.length + 1) [] rest
  | _ => none

/-- The greatest exponent that is taken at its value. -/
def exponentLimit : Nat := 0x7FFFFFFF

/-- A decimal after its digits: an optional exponent, and then the double. -/
def finishFloat? (negative : Bool) (word : Nat) (exponent : Int) (cs : List Char) :
    Option (Number × List Char) :=
  let signed (x : Float) : Number := .float (if negative then -x else x)
  match cs with
  | e :: rest =>
    if e = 'e' || e = 'E' then
      let (down, digits) := match rest with
        | '+' :: r => (false, r)
        | '-' :: r => (true, r)
        | r => (false, r)
      let ds := digits.takeWhile Char.isDigit
      let rest' := digits.dropWhile Char.isDigit
      if ds.isEmpty then none
      else
        let n := Decimal.natural ds
        if exponentLimit < n then
          if word ≠ 0 && !down then none else some (signed 0, rest')
        else (Decimal.scaled word (if down then exponent - n else exponent + n)).map
          fun x => (signed x, rest')
    else (Decimal.scaled word exponent).map fun x => (signed x, cs)
  | [] => (Decimal.scaled word exponent).map fun x => (signed x, cs)

/-- A number without its sign. -/
def unsigned? (negative : Bool) (cs : List Char) : Option (Number × List Char) :=
  let ds := cs.takeWhile Char.isDigit
  let rest := cs.dropWhile Char.isDigit
  if ds.isEmpty || (ds.length > 1 && ds.head? = some '0') then none
  else
    let (word, spare) := Decimal.fillWord 0 ds
    match rest with
    | '.' :: r =>
      let fs := r.takeWhile Char.isDigit
      let rest' := r.dropWhile Char.isDigit
      if fs.isEmpty then none
      else if spare.isEmpty then
        let (word', unused) := Decimal.fillWord word fs
        finishFloat? negative word' (-((fs.length - unused.length : Nat) : Int)) rest'
      else
        let (word', unused) := Decimal.fillWord word fs
        let taken := fs.length - unused.length
        finishFloat? negative word' ((spare.length : Int) - (taken : Int)) rest'
    | c :: _ =>
      if c = 'e' || c = 'E' || !spare.isEmpty then finishFloat? negative word spare.length rest
      else whole word rest
    | [] => if spare.isEmpty then whole word [] else finishFloat? negative word spare.length []
where
  /-- A number that fits a word: an integer, unless it is negative and zero or too low. -/
  whole (word : Nat) (rest : List Char) : Option (Number × List Char) :=
    if negative then
      if word = 0 || 0x8000000000000000 < word then some (.float (-(Float.ofNat word)), rest)
      else some (.int (-(word : Int)), rest)
    else some (.int word, rest)

/-- A number. -/
def number? : List Char → Option (Number × List Char)
  | '-' :: rest => unsigned? true rest
  | cs => unsigned? false cs

mutual

/-- A value that starts at the first character. `fuel` bounds the steps, `depth` the nesting. -/
def value? : Nat → Nat → List Char → Option (Value × List Char)
  | 0, _, _ => none
  | fuel + 1, depth, cs =>
    match cs with
    | 'n' :: 'u' :: 'l' :: 'l' :: rest => some (.null, rest)
    | 't' :: 'r' :: 'u' :: 'e' :: rest => some (.bool true, rest)
    | 'f' :: 'a' :: 'l' :: 's' :: 'e' :: rest => some (.bool false, rest)
    | '"' :: _ => (string? cs).map fun (s, rest) => (.str s, rest)
    | '[' :: rest =>
      match depth with
      | 0 => none
      | depth + 1 =>
        match skip rest with
        | ']' :: rest' => some (.list [], rest')
        | rest' => (items? fuel depth rest').map fun (vs, r) => (.list vs, r)
    | '\x7b' :: rest =>
      match depth with
      | 0 => none
      | depth + 1 =>
        match skip rest with
        | '\x7d' :: rest' => some (.mapping [], rest')
        | rest' => (entries? fuel depth rest').map fun (es, r) => (.mapping (Entries.ofList es), r)
    | _ => (number? cs).map fun (n, rest) => (.num n, rest)

/-- The items of a list, from the first one on, and the closing bracket. -/
def items? : Nat → Nat → List Char → Option (List Value × List Char)
  | 0, _, _ => none
  | fuel + 1, depth, cs => do
    let (v, rest) ← value? fuel depth (skip cs)
    match skip rest with
    | ']' :: r => some ([v], r)
    | ',' :: r =>
      let (vs, r') ← items? fuel depth r
      some (v :: vs, r')
    | _ => none

/-- The entries of a mapping, from the first one on, and the closing brace. -/
def entries? : Nat → Nat → List Char → Option (List (String × Value) × List Char)
  | 0, _, _ => none
  | fuel + 1, depth, cs => do
    let (k, rest) ← string? (skip cs)
    match skip rest with
    | ':' :: r =>
      let (v, rest') ← value? fuel depth (skip r)
      match skip rest' with
      | '\x7d' :: r' => some ([(k, v)], r')
      | ',' :: r' =>
        let (es, r'') ← entries? fuel depth r'
        some ((k, v) :: es, r'')
      | _ => none
    | _ => none

end

/-- The first value of a text and what follows it. -/
def first? (cs : List Char) : Option (Value × List Char) :=
  value? (2 * cs.length + 2) maxDepth (skip cs)

/-- The value that a whole text stands for. -/
def read? (text : String) : Option Value :=
  match first? text.toList with
  | some (v, rest) => if (skip rest).isEmpty then some v else none
  | none => none

end ParamSweep.Json
