import ParamSweep.Value.Basic
import ParamSweep.Decimal.Notation

/-!
The JSON text of a value: on one line (`compact`), or indented by two blanks (`pretty`).

The entries of a mapping are written in the order of their keys, so one value has one compact text;
digests are taken of it.
-/

namespace ParamSweep

namespace Json

/-- A digit of a four-digit escape. -/
def hexDigit (n : Nat) : Char := (Nat.digitChar n)

/-- The escaped form of a character inside quotes. -/
def escapeChar (c : Char) : List Char :=
  if c = '"' then ['\\', '"']
  else if c = '\\' then ['\\', '\\']
  else if c = '\x08' then ['\\', 'b']
  else if c = '\x0c' then ['\\', 'f']
  else if c = '\n' then ['\\', 'n']
  else if c = '\r' then ['\\', 'r']
  else if c = '\t' then ['\\', 't']
  else if c.toNat < 0x20 then
    ['\\', 'u', '0', '0', hexDigit (c.toNat / 16), hexDigit (c.toNat % 16)]
  else [c]

/-- A text in quotes. -/
def quote (s : String) : List Char := '"' :: (s.toList.flatMap escapeChar ++ ['"'])

/-- The text of a number. -/
def number : Number → List Char
  | .int n => (toString n).toList
  | .float x => (Decimal.Notation.json.write x).toList

mutual

/-- The value on one line. -/
def chars : Value → List Char
  | .null => "null".toList
  | .bool true => "true".toList
  | .bool false => "false".toList
  | .num n => number n
  | .str s => quote s
  | .list items => '[' :: listChars items
  | .mapping entries => '\x7b' :: entryChars entries

/-- The rest of a list, from its first item on. -/
def listChars : List Value → List Char
  | [] => [']']
  | [v] => chars v ++ [']']
  | v :: rest => chars v ++ ',' :: listChars rest

/-- The rest of a mapping, from its first entry on. -/
def entryChars : List (String × Value) → List Char
  | [] => ['\x7d']
  | [(k, v)] => quote k ++ ':' :: (chars v ++ ['\x7d'])
  | (k, v) :: rest => quote k ++ ':' :: (chars v ++ ',' :: entryChars rest)

end

/-- A new line at the given depth. -/
def newline (depth : Nat) : List Char := '\n' :: List.replicate (2 * depth) ' '

mutual

/-- The value over several lines, every level of nesting indented by two blanks. -/
def prettyChars (depth : Nat) : Value → List Char
  | .list (v :: rest) => '[' :: prettyList (depth + 1) (v :: rest) ++ newline depth ++ [']']
  | .mapping (e :: rest) =>
    '\x7b' :: prettyEntries (depth + 1) (e :: rest) ++ newline depth ++ ['\x7d']
  | .list [] => ['[', ']']
  | .mapping [] => ['\x7b', '\x7d']
  | .null => "null".toList
  | .bool true => "true".toList
  | .bool false => "false".toList
  | .num n => number n
  | .str s => quote s

/-- The items of a list, each on a line. -/
def prettyList (depth : Nat) : List Value → List Char
  | [] => []
  | [v] => newline depth ++ prettyChars depth v
  | v :: rest => newline depth ++ prettyChars depth v ++ ',' :: prettyList depth rest

/-- The entries of a mapping, each on a line. -/
def prettyEntries (depth : Nat) : List (String × Value) → List Char
  | [] => []
  | [(k, v)] => newline depth ++ quote k ++ ':' :: ' ' :: prettyChars depth v
  | (k, v) :: rest =>
    newline depth ++ quote k ++ ':' :: ' ' :: prettyChars depth v ++ ',' :: prettyEntries depth rest

end

end Json

/-- The JSON text of a value on one line. -/
def Value.compact (v : Value) : String := String.ofList (Json.chars v)

/-- The JSON text of a value, indented. -/
def Value.pretty (v : Value) : String := String.ofList (Json.prettyChars 0 v)

end ParamSweep
