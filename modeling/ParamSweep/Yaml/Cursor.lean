/-!
A place in a YAML text: what is left to read, and where that is.

The end of the text shows as the NUL character, which no text may contain (`isPrintable`).
-/

namespace ParamSweep.Yaml

/-- What is left of a text, how many characters and lines precede it, and how far it is from the
start of its line. -/
structure Cursor where
  rest : List Char
  index : Nat := 0
  line : Nat := 0
  column : Nat := 0
  deriving Inhabited

/-- The characters that a text may contain. -/
def isPrintable (c : Char) : Bool :=
  let n := c.toNat
  n = 9 || n = 10 || n = 13 || (0x20 ≤ n && n ≤ 0x7E) || n = 0x85 || (0xA0 ≤ n && n ≤ 0xD7FF) ||
    (0xE000 ≤ n && n ≤ 0xFFFD) || 0x10000 ≤ n

/-- A space or a tab. -/
def isSpace (c : Char) : Bool := c = ' ' || c = '\t'

/-- A character that ends a line. -/
def isBreak (c : Char) : Bool :=
  c = '\n' || c = '\r' || c = Char.ofNat 0x85 || c = Char.ofNat 0x2028 || c = Char.ofNat 0x2029

/-- The end of a line or of the text. -/
def isLineEnd (c : Char) : Bool := isBreak c || c = '\x00'

/-- A space, a tab, or the end of a line or of the text. -/
def isGap (c : Char) : Bool := isSpace c || isLineEnd c

/-- A letter of anchors and of tag handles. -/
def isNameChar (c : Char) : Bool := c.isAlphanum || c = '_' || c = '-'

namespace Cursor

/-- The cursor at the start of a text. -/
def ofText (cs : List Char) : Cursor := { rest := cs }

/-- The character `n` places ahead. -/
def look (cur : Cursor) (n : Nat) : Char := cur.rest.getD n '\x00'

/-- The next character. -/
def head (cur : Cursor) : Char := cur.look 0

/-- The cursor behind the next character of the line. -/
def next (cur : Cursor) : Cursor :=
  match cur.rest with
  | [] => cur
  | _ :: rest => ⟨rest, cur.index + 1, cur.line, cur.column + 1⟩

/-- The cursor behind the next `n` characters of the line. -/
def forward (cur : Cursor) (n : Nat) : Cursor := n.repeat next cur

/-- The end of a line as it enters a text, and the cursor behind it. -/
def lineBreak (cur : Cursor) : List Char × Cursor :=
  match cur.rest with
  | '\r' :: '\n' :: rest => (['\n'], ⟨rest, cur.index + 2, cur.line + 1, 0⟩)
  | c :: rest =>
    if c = '\n' || c = '\r' || c = Char.ofNat 0x85 then
      (['\n'], ⟨rest, cur.index + 1, cur.line + 1, 0⟩)
    else if isBreak c then ([c], ⟨rest, cur.index + 1, cur.line + 1, 0⟩)
    else ([], cur)
  | [] => ([], cur)

/-- The cursor behind the end of a line. -/
def nextLine (cur : Cursor) : Cursor := cur.lineBreak.2

/-- The characters of the line as long as they satisfy `p`, and the cursor behind them. -/
def span (p : Char → Bool) (cur : Cursor) : List Char × Cursor :=
  let taken := cur.rest.takeWhile p
  (taken, cur.forward taken.length)

/-- The cursor behind the characters of the line that satisfy `p`. -/
def skipWhile (p : Char → Bool) (cur : Cursor) : Cursor := (cur.span p).2

/-- Whether a line of three dashes or three points starts here. -/
def atDocumentMark (cur : Cursor) : Bool :=
  cur.column = 0 && isGap (cur.look 3) &&
    (cur.rest.take 3 == ['-', '-', '-'] || cur.rest.take 3 == ['.', '.', '.'])

end Cursor

end ParamSweep.Yaml
