import ParamSweep.Value.JsonReader

/-!
Passing over JSON values that nobody asks for.

Their text has to be well formed, but nothing of it is taken: numbers may be out of range, escapes
may name half a surrogate pair, and any nesting will do.
-/

namespace ParamSweep.Json

/-- The text behind the closing quote of a text in quotes, from behind the opening one. -/
def skipQuoted? : List Char → Option (List Char)
  | [] => none
  | '"' :: rest => some rest
  | '\\' :: 'u' :: a :: b :: c :: d :: rest =>
    if [a, b, c, d].all fun x => (hexValue? x).isSome then skipQuoted? rest else none
  | '\\' :: c :: rest => if "\"\\/bfnrt".toList.contains c then skipQuoted? rest else none
  | c :: rest => if c.toNat < 0x20 || c = '\\' then none else skipQuoted? rest

/-- The text behind digits, of which there has to be one. -/
def skipDigits? (cs : List Char) : Option (List Char) :=
  if cs.head?.any Char.isDigit then some (cs.dropWhile Char.isDigit) else none

/-- The text behind the exponent of a number, if it has one. -/
def skipExponent? : List Char → Option (List Char)
  | [] => some []
  | e :: rest =>
    if e = 'e' || e = 'E' then
      match rest with
      | '+' :: r => skipDigits? r
      | '-' :: r => skipDigits? r
      | r => skipDigits? r
    else some (e :: rest)

/-- The text behind a number without its sign. -/
def skipUnsigned? (cs : List Char) : Option (List Char) := do
  let rest ← skipDigits? cs
  if cs.head? = some '0' && cs.length ≠ rest.length + 1 then none
  else
    match rest with
    | '.' :: r => (skipDigits? r).bind skipExponent?
    | r => skipExponent? r

/-- The text behind a key and its colon. -/
def skipKey? (cs : List Char) : Option (List Char) :=
  match skip cs with
  | '"' :: rest => do
    match skip (← skipQuoted? rest) with
    | ':' :: r => some r
    | _ => none
  | _ => none

mutual

/-- The text behind a value and behind the lists (`false`) and mappings (`true`) around it, the
innermost first. -/
def skipValue? : Nat → List Bool → List Char → Option (List Char)
  | 0, _, _ => none
  | fuel + 1, around, cs =>
    match skip cs with
    | 'n' :: 'u' :: 'l' :: 'l' :: rest => skipBehind? fuel around rest
    | 't' :: 'r' :: 'u' :: 'e' :: rest => skipBehind? fuel around rest
    | 'f' :: 'a' :: 'l' :: 's' :: 'e' :: rest => skipBehind? fuel around rest
    | '"' :: rest => (skipQuoted? rest).bind (skipBehind? fuel around)
    | '[' :: rest =>
      match skip rest with
      | ']' :: r => skipBehind? fuel around r
      | r => skipValue? fuel (false :: around) r
    | '\x7b' :: rest =>
      match skip rest with
      | '\x7d' :: r => skipBehind? fuel around r
      | r => (skipKey? r).bind (skipValue? fuel (true :: around))
    | '-' :: rest => (skipUnsigned? rest).bind (skipBehind? fuel around)
    | rest => (skipUnsigned? rest).bind (skipBehind? fuel around)

/-- The text behind the lists and mappings around a value that has been passed over. -/
def skipBehind? : Nat → List Bool → List Char → Option (List Char)
  | _, [], cs => some cs
  | 0, _, _ => none
  | fuel + 1, mapping :: around, cs =>
    match skip cs with
    | ',' :: rest =>
      if mapping then (skipKey? rest).bind (skipValue? fuel (mapping :: around))
      else skipValue? fuel (mapping :: around) rest
    | ']' :: rest => if mapping then none else skipBehind? fuel around rest
    | '\x7d' :: rest => if mapping then skipBehind? fuel around rest else none
    | _ => none

end

/-- The text behind the value that a text starts with. -/
def skipFirst? (cs : List Char) : Option (List Char) := skipValue? (2 * cs.length + 2) [] cs

end ParamSweep.Json
