import ParamSweep.Yaml.Tree
import ParamSweep.Value.Json

/-!
Values as YAML text.

Collections are written in blocks, empty ones in brackets; the lists of a mapping are not indented.
A text is written plain if it reads back as itself, on lines of its own (`|`) if it has several
lines, and in quotes otherwise. Keys that are long or have several lines are announced by a question
mark.
-/

namespace ParamSweep.Yaml

/-- A line and the character that ends it. -/
structure Line where
  text : List Char
  ending : Char := '\n'

namespace Line

/-- The line moved to the right; an empty line stays empty. -/
def indented (l : Line) : Line :=
  if l.text.isEmpty then l else { l with text := ' ' :: ' ' :: l.text }

/-- `start` before the first line, the others as they are. -/
def prepend (start : List Char) : List Line → List Line
  | [] => [{ text := start }]
  | l :: rest => { l with text := start ++ l.text } :: rest

/-- `start` before the first line and the others moved to the right. -/
def hang (start : List Char) : List Line → List Line
  | [] => [{ text := start }]
  | l :: rest => { l with text := start ++ l.text } :: rest.map indented

end Line

/-! ### Texts -/

/-- A character that may be written outside of double quotes. -/
def isPlainPrintable (c : Char) : Bool :=
  let n := c.toNat
  n = 0x0A || (0x20 ≤ n && n ≤ 0x7E) || (0xA0 ≤ n && n ≤ 0xD7FF) ||
    (0xE000 ≤ n && n ≤ 0xFFFD && n ≠ 0xFEFF) || 0x10000 ≤ n

/-- The neighbours `(a, b)` in a text. -/
def adjacent (a b : Char → Bool) (cs : List Char) : Bool :=
  (cs.zip cs.tail).any fun (x, y) => a x && b y

/-- Marks that start another kind of node. -/
def isIndicator (c : Char) : Bool := "#,[]\x7b\x7d&*!|>'\"%@`".toList.contains c

/-- A blank, or the end of the text. -/
def gapHead (cs : List Char) : Bool := cs.head?.all isGap

/-- Marks inside a text that would end it: a colon before a blank, a number sign behind one. -/
def innerIndicator : List Char → Bool
  | c :: d :: rest =>
    (d = ':' && gapHead rest) || (d = '#' && isGap c) || innerIndicator (d :: rest)
  | _ => false

/-- Whether a text would be taken for something else if it were written plain. -/
def hasIndicators (cs : List Char) : Bool :=
  cs.take 3 == ['-', '-', '-'] || cs.take 3 == ['.', '.', '.'] ||
    (match cs with
      | [] => false
      | c :: rest =>
        isIndicator c || ((c = '?' || c = ':' || c = '-') && gapHead rest)) ||
    innerIndicator cs

/-- What the ways of writing a text depend on. -/
structure Shape where
  multiline : Bool
  plain : Bool
  single : Bool
  block : Bool

/-- Which ways of writing a text are open to it. -/
def Shape.of (cs : List Char) : Shape :=
  let isSpaceOnly (c : Char) : Bool := c = ' '
  let edge (c : Char) : Bool := c = ' ' || isBreak c
  let edges := cs.head?.any edge || cs.getLast?.any edge
  let special := cs.any (!isPlainPrintable ·)
  let breakSpace := adjacent isBreak isSpaceOnly cs
  let spaceBreak := adjacent isSpaceOnly isBreak cs
  let lines := cs.any isBreak
  { multiline := lines
    plain := !(edges || special || breakSpace || spaceBreak || lines || hasIndicators cs)
    single := !(special || breakSpace || spaceBreak)
    block := !(special || spaceBreak || cs.getLast? = some ' ') && !cs.isEmpty }

/-- The number with at least `width` hexadecimal digits. -/
def hexPadded (width n : Nat) : List Char :=
  let ds := (Nat.toDigits 16 n).map Char.toUpper
  List.replicate (width - ds.length) '0' ++ ds

/-- The form of a character inside double quotes. -/
def doubleQuotedChar (c : Char) : List Char :=
  let n := c.toNat
  if isPlainPrintable c && !isBreak c && c ≠ '"' && c ≠ '\\' then [c]
  else
    '\\' ::
      (if n = 0 then ['0'] else if n = 7 then ['a'] else if n = 8 then ['b']
      else if n = 9 then ['t'] else if n = 10 then ['n'] else if n = 11 then ['v']
      else if n = 12 then ['f'] else if n = 13 then ['r'] else if n = 0x1B then ['e']
      else if n = 0x22 then ['"'] else if n = 0x5C then ['\\'] else if n = 0x85 then ['N']
      else if n = 0xA0 then ['_'] else if n = 0x2028 then ['L'] else if n = 0x2029 then ['P']
      else if n ≤ 0xFF then 'x' :: hexPadded 2 n
      else if n ≤ 0xFFFF then 'u' :: hexPadded 4 n
      else 'U' :: hexPadded 8 n)

/-- A text in double quotes. -/
def doubleQuoted (cs : List Char) : List Char := '"' :: (cs.flatMap doubleQuotedChar ++ ['"'])

/-- The lines of a text with the characters that end them; the last line may lack one. -/
def brokenLines : List Char → List (List Char × Option Char)
  | [] => [([], none)]
  | c :: rest =>
    if isBreak c then ([], some c) :: brokenLines rest
    else match brokenLines rest with
      | (l, e) :: ls => (c :: l, e) :: ls
      | [] => [([c], none)]

/-- A text in single quotes. Line breaks in it are kept, and what follows them is indented. -/
def singleQuoted (cs : List Char) : List Line :=
  let body := (cs.flatMap fun c => if c = '\'' then ['\'', '\''] else [c]) ++ ['\'']
  match brokenLines body with
  | (l, e) :: rest =>
    { text := '\'' :: l, ending := e.getD '\n' } ::
      rest.map fun (l, e) =>
        { text := if l.isEmpty then l else ' ' :: ' ' :: l, ending := e.getD '\n' }
  | [] => []

/-- The indicators of a block: where the indentation cannot be told from the first line it is
given, and the line breaks at the end are dropped, kept or left as they are. -/
def blockHints (cs : List Char) : List Char :=
  let indentation := if cs.head?.any (fun c => c = ' ' || isBreak c) then ['2'] else []
  let chomping :=
    match cs.reverse with
    | [] => ['-']
    | c :: rest =>
      if !isBreak c then ['-']
      else match rest with
        | [] => ['+']
        | d :: _ => if isBreak d then ['+'] else []
  indentation ++ chomping

/-- A text on lines of its own. -/
def blockText (cs : List Char) : List Line :=
  let body := (brokenLines cs).filter fun (l, e) => !l.isEmpty || e.isSome
  { text := '|' :: blockHints cs } ::
    body.map fun (l, e) =>
      { text := if l.isEmpty then l else ' ' :: ' ' :: l, ending := e.getD '\n' }

/-- Whether a text of one line reads back as a text. -/
def readsAsText (s : String) : Bool :=
  match plainTree s with
  | some (.text _) => !paddedDigits s.toList
  | _ => false

/-- The lines of a text; `simpleKey` says that it is a key without a question mark. -/
def textLines (simpleKey : Bool) (s : String) : List Line :=
  let cs := s.toList
  let shape := Shape.of cs
  if cs.contains '\n' then
    if shape.block && !simpleKey then blockText cs else [{ text := doubleQuoted cs }]
  else if simpleKey && shape.multiline then [{ text := doubleQuoted cs }]
  else if readsAsText s && shape.plain then [{ text := cs }]
  else if shape.single then singleQuoted cs
  else [{ text := doubleQuoted cs }]

/-- The longest key, in bytes, that is written without a question mark. -/
def maxSimpleKey : Nat := 128

/-- Whether a key is written without a question mark. -/
def isSimpleKey (key : String) : Bool :=
  decide (key.utf8ByteSize ≤ maxSimpleKey) && !key.toList.any isBreak

/-! ### Values -/

/-- The text of a number. -/
def numberText : Number → List Char
  | .int n => (toString n).toList
  | .float x => (Decimal.Notation.yaml.write x).toList

/-- Where a value begins a line of its own behind the colon of a key. -/
inductive Placement where
  | inline
  | below
  | belowIndented
  deriving DecidableEq

/-- Where a value goes behind the colon of a key. -/
def placement : Value → Placement
  | .list (_ :: _) => .below
  | .mapping (_ :: _) => .belowIndented
  | _ => .inline

mutual

/-- The lines of a value. -/
def lines : Value → List Line
  | .null => [{ text := "null".toList }]
  | .bool true => [{ text := "true".toList }]
  | .bool false => [{ text := "false".toList }]
  | .num n => [{ text := numberText n }]
  | .str s => textLines false s
  | .list items => if items.isEmpty then [{ text := ['[', ']'] }] else itemLines items
  | .mapping entries =>
    if entries.isEmpty then [{ text := ['\x7b', '\x7d'] }] else entryLines entries

/-- The lines of the items of a list. -/
def itemLines : List Value → List Line
  | [] => []
  | v :: rest =>
    -- the lines of a text are indented already
    (match v with
      | .str s => Line.prepend ['-', ' '] (textLines false s)
      | v => Line.hang ['-', ' '] (lines v)) ++ itemLines rest

/-- The lines of the entries of a mapping. -/
def entryLines : List (String × Value) → List Line
  | [] => []
  | (k, v) :: rest =>
    (if isSimpleKey k then
      match textLines true k with
      | [l] =>
        match placement v with
        | .inline => Line.prepend (l.text ++ [':', ' ']) (lines v)
        | .below => { text := l.text ++ [':'] } :: lines v
        | .belowIndented => { text := l.text ++ [':'] } :: (lines v).map Line.indented
      | ls => ls
    else
      Line.prepend ['?', ' '] (textLines false k) ++
        (match v with
          | .str s => Line.prepend [':', ' '] (textLines false s)
          | v => Line.hang [':', ' '] (lines v))) ++ entryLines rest

end

/-- The YAML text of a value. -/
def render (v : Value) : String :=
  String.ofList ((lines v).flatMap fun l => l.text ++ [l.ending])

end ParamSweep.Yaml
