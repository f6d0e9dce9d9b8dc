import ParamSweep.Yaml.Scalar

/-!
The tokens of a YAML text, and the lexer that finds them.

Blocks have no brackets: the lexer keeps the columns of the open blocks and writes tokens for their
starts and ends. A mapping may begin with a key that looks like any other node until its colon is
met; the lexer remembers where such a key could begin (`KeyPlace`) and, at the colon, puts the
tokens of the key before what it has written since. A key has to end on its line, within 1024
characters.
-/

namespace ParamSweep.Yaml

/-- A token. -/
inductive Token where
  | version (major minor : Nat)
  | tagDirective (handle tagStart : String)
  | documentStart
  | documentEnd
  | blockSequenceStart
  | blockMappingStart
  | blockEnd
  | flowSequenceStart
  | flowSequenceEnd
  | flowMappingStart
  | flowMappingEnd
  | blockEntry
  | flowEntry
  | key
  | value
  | alias (name : String)
  | anchor (name : String)
  | tag (handle suffix : String)
  | scalar (plain : Bool) (text : String)
  deriving DecidableEq, Inhabited

/-- Where a key could begin: the number of tokens before it, and its place in the text. -/
structure KeyPlace where
  position : Nat
  index : Nat
  line : Nat
  column : Nat
  /-- Nothing but a key can stand there. -/
  required : Bool

/-- The state of the lexer. -/
structure Lexer where
  cursor : Cursor
  tokens : Array Token := #[]
  /-- The column of the innermost block, -1 outside of all. -/
  indent : Int := -1
  /-- The columns of the blocks around it. -/
  outer : List Int := []
  /-- Where a key could begin, for the innermost brackets first. -/
  keys : List (Option KeyPlace) := [none]
  /-- Whether a key may begin here. -/
  keyAllowed : Bool := true

namespace Lexer

/-- Whether brackets are open. -/
def inFlow (s : Lexer) : Bool := s.keys.length > 1

/-- Adds a token. -/
def push (s : Lexer) (t : Token) : Lexer := { s with tokens := s.tokens.push t }

/-- The state at another place. -/
def at' (s : Lexer) (cur : Cursor) : Lexer := { s with cursor := cur }

/-- Closes the blocks that are indented deeper than `column`. -/
def closeBlocks (column : Int) : List Int → Lexer → Lexer
  | [], s => s
  | parent :: outer, s =>
    if !s.inFlow && column < s.indent then
      closeBlocks column outer { s.push .blockEnd with indent := parent, outer := outer }
    else s

/-- Closes the blocks that are indented deeper than `column`. -/
def unroll (s : Lexer) (column : Int) : Lexer := closeBlocks column s.outer s

/-- Opens a block at `column` unless there is one, with its token at the given position. -/
def roll (s : Lexer) (column : Nat) (position : Nat) (t : Token) : Lexer :=
  if s.inFlow || (column : Int) ≤ s.indent then s
  else
    { s with
      tokens := s.tokens.insertIdxIfInBounds position t
      indent := column
      outer := s.indent :: s.outer }

/-- Gives up the key that could begin inside the innermost brackets; it must not be required. -/
def dropKey (s : Lexer) : Option Lexer :=
  match s.keys with
  | some k :: rest => if k.required then none else some { s with keys := none :: rest }
  | _ => some s

/-- Remembers that a key could begin here. -/
def saveKey (s : Lexer) : Option Lexer :=
  if s.keyAllowed then do
    let required := !s.inFlow && s.indent = s.cursor.column
    let s ← s.dropKey
    let place : KeyPlace :=
      ⟨s.tokens.size, s.cursor.index, s.cursor.line, s.cursor.column, required⟩
    some { s with keys := some place :: s.keys.tail }
  else some s

/-- The length within which a key has to end. -/
def maxKeyLength : Nat := 1024

/-- A key place that is still within reach; `none` inside says that it is not, and the whole fails
if a key was required there. -/
def refresh (cur : Cursor) : Option KeyPlace → Option (Option KeyPlace)
  | none => some none
  | some k =>
    if k.line < cur.line || k.index + maxKeyLength < cur.index then
      if k.required then none else some none
    else some (some k)

/-- Gives up the keys that are out of reach. -/
def refreshKeys (s : Lexer) : Option Lexer :=
  (s.keys.mapM (refresh s.cursor)).map fun keys => { s with keys := keys }

/-- The state at the next token: behind blanks, comments and line breaks. -/
def skipBlanks : Nat → Lexer → Lexer
  | 0, s => s
  | fuel + 1, s =>
    let cur := s.cursor
    let cur := if cur.index = 0 && cur.head = Char.ofNat 0xFEFF then cur.next else cur
    let tabs := s.inFlow || !s.keyAllowed
    let cur := cur.skipWhile fun c => c = ' ' || (tabs && c = '\t')
    let cur := if cur.head = '#' then cur.skipWhile (!isLineEnd ·) else cur
    if isBreak cur.head then
      skipBlanks fuel { s with cursor := cur.nextLine, keyAllowed := s.keyAllowed || !s.inFlow }
    else s.at' cur

/-- A decimal number of at most nine digits. -/
def versionNumber? (cur : Cursor) : Option (Nat × Cursor) :=
  let (ds, cur') := cur.span Char.isDigit
  if ds.isEmpty || ds.length > 9 then none
  else some (ds.foldl (fun n c => 10 * n + (c.toNat - 48)) 0, cur')

/-- The number of bytes of a character, read off its first byte. -/
def byteCount? (b : Nat) : Option Nat :=
  if b < 0x80 then some 1
  else if 0xC0 ≤ b && b < 0xE0 then some 2
  else if 0xE0 ≤ b && b < 0xF0 then some 3
  else if 0xF0 ≤ b && b < 0xF8 then some 4
  else none

/-- A byte written as a percent sign and two hexadecimal digits. -/
def percentByte? (cur : Cursor) : Option (Nat × Cursor) :=
  if cur.head = '%' then (hexNumber? 2 (cur.rest.drop 1)).map fun n => (n, cur.forward 3) else none

/-- The bytes after the first one of a character, taken into its number. -/
def percentTail? : Nat → Nat → Cursor → Option (Nat × Cursor)
  | 0, n, cur => some (n, cur)
  | k + 1, n, cur => do
    let (b, cur) ← percentByte? cur
    if b / 64 = 2 then percentTail? k (64 * n + b % 64) cur else none

/-- A character written in percent form. -/
def percentChar? (cur : Cursor) : Option (Char × Cursor) := do
  let (b, cur) ← percentByte? cur
  let count ← byteCount? b
  let lead := match count with
    | 1 => b
    | 2 => b % 32
    | 3 => b % 16
    | _ => b % 8
  let (n, cur) ← percentTail? (count - 1) lead cur
  let c ← characterOf? n
  some (c, cur)

/-- Whether a character may stand in a tag; `wide` admits brackets and commas. -/
def isTagChar (wide : Bool) (c : Char) : Bool :=
  isNameChar c || ";/?:@&=+$.%!~*'()".toList.contains c ||
    (wide && (c = ',' || c = '[' || c = ']'))

/-- The characters of a tag. -/
def tagText (wide : Bool) : Nat → Cursor → Option (List Char × Cursor)
  | 0, cur => some ([], cur)
  | fuel + 1, cur =>
    if !isTagChar wide cur.head then some ([], cur)
    else if cur.head = '%' then do
      let (c, cur') ← percentChar? cur
      let (cs, cur'') ← tagText wide fuel cur'
      some (c :: cs, cur'')
    else (tagText wide fuel cur.next).map fun (cs, cur') => (cur.head :: cs, cur')

/-- A tag handle: an exclamation mark, and a name with another one or without. -/
def tagHandle? (directive : Bool) (cur : Cursor) : Option (List Char × Cursor) :=
  if cur.head ≠ '!' then none
  else
    let (name, cur) := cur.next.span isNameChar
    if cur.head = '!' then some ('!' :: (name ++ ['!']), cur.next)
    else if directive && !name.isEmpty then none
    else some ('!' :: name, cur)

/-- A tag as handle and suffix. -/
def readTag (flow : Bool) (cur : Cursor) : Option (Token × Cursor) := do
  let (handle, suffix, cur) ←
    if cur.look 1 = '<' then do
      let (text, cur) ← tagText true (cur.rest.length + 1) (cur.forward 2)
      if text.isEmpty || cur.head ≠ '>' then none else some ([], text, cur.next)
    else do
      let (handle, cur) ← tagHandle? false cur
      if handle.length > 1 && handle.getLast? = some '!' then
        let (suffix, cur) ← tagText false (cur.rest.length + 1) cur
        if suffix.isEmpty then none else some (handle, suffix, cur)
      else
        let (more, cur) ← tagText false (cur.rest.length + 1) cur
        let suffix := handle.tail ++ more
        if suffix.isEmpty then some ([], ['!'], cur) else some (['!'], suffix, cur)
  if isGap cur.head || (flow && cur.head = ',') then
    some (.tag (String.ofList handle) (String.ofList suffix), cur)
  else none

/-- The name of an anchor or an alias. -/
def readAnchor (cur : Cursor) : Option (String × Cursor) :=
  let (name, cur) := cur.next.span isNameChar
  let ends := isGap cur.head || "?:,]\x7d%@`".toList.contains cur.head
  if name.isEmpty || !ends then none else some (String.ofList name, cur)

/-- A directive line. -/
def readDirective (cur : Cursor) : Option (Token × Cursor) := do
  let (name, cur) := cur.next.span isNameChar
  if name.isEmpty || !isGap cur.head then none
  else
    let (token, cur) ←
      if name = "YAML".toList then do
        let (major, cur) ← versionNumber? (cur.skipWhile isSpace)
        if cur.head ≠ '.' then none
        else
          let (minor, cur) ← versionNumber? cur.next
          some (Token.version major minor, cur)
      else if name = "TAG".toList then do
        let (handle, cur) ← tagHandle? true (cur.skipWhile isSpace)
        if !isSpace cur.head then none
        else
          let (text, cur) ← tagText true (cur.rest.length + 1) (cur.skipWhile isSpace)
          if text.isEmpty || !isGap cur.head then none
          else some (Token.tagDirective (String.ofList handle) (String.ofList text), cur)
      else none
    let cur := cur.skipWhile isSpace
    let cur := if cur.head = '#' then cur.skipWhile (!isLineEnd ·) else cur
    if isLineEnd cur.head then some (token, cur.nextLine) else none

/-- An opening bracket. -/
def openFlow (s : Lexer) (t : Token) : Option Lexer := do
  let s ← s.saveKey
  some { s.push t with keys := none :: s.keys, keyAllowed := true, cursor := s.cursor.next }

/-- A closing bracket. -/
def closeFlow (s : Lexer) (t : Token) : Option Lexer := do
  let s ← s.dropKey
  let keys := if s.inFlow then s.keys.tail else s.keys
  some { s.push t with keys := keys, keyAllowed := false, cursor := s.cursor.next }

/-- A dash before an entry of a sequence. -/
def blockEntry (s : Lexer) : Option Lexer :=
  if !s.inFlow && !s.keyAllowed then none
  else do
    let s ← (s.roll s.cursor.column s.tokens.size .blockSequenceStart).dropKey
    some { s.push .blockEntry with keyAllowed := true, cursor := s.cursor.next }

/-- A question mark before a key. -/
def explicitKey (s : Lexer) : Option Lexer :=
  if !s.inFlow && !s.keyAllowed then none
  else do
    let s ← (s.roll s.cursor.column s.tokens.size .blockMappingStart).dropKey
    some { s.push .key with keyAllowed := !s.inFlow, cursor := s.cursor.next }

/-- A colon before a value. -/
def valueMark (s : Lexer) : Option Lexer :=
  match s.keys with
  | some k :: rest =>
    let s := { s with tokens := s.tokens.insertIdxIfInBounds k.position .key, keys := none :: rest }
    let s := s.roll k.column k.position .blockMappingStart
    some { s.push .value with keyAllowed := false, cursor := s.cursor.next }
  | _ =>
    if !s.inFlow && !s.keyAllowed then none
    else
      let s := s.roll s.cursor.column s.tokens.size .blockMappingStart
      some { s.push .value with keyAllowed := !s.inFlow, cursor := s.cursor.next }

/-- A node that may be a key: its token, and the cursor behind it. -/
def node (s : Lexer) (keyAllowed : Bool) (t : Token) (cur : Cursor) : Lexer :=
  { s.push t with keyAllowed := keyAllowed, cursor := cur }

/-- Whether a plain scalar starts here. -/
def startsPlain (s : Lexer) : Bool :=
  let c := s.cursor.head
  !(isGap c || "-?:,[]\x7b\x7d#&*!|>'\"%@`".toList.contains c) ||
    (c = '-' && !isSpace (s.cursor.look 1)) ||
    (!s.inFlow && (c = '?' || c = ':') && !isGap (s.cursor.look 1))

/-- The token that starts at the cursor. -/
def token (s : Lexer) : Option Lexer :=
  let cur := s.cursor
  let c := cur.head
  if cur.column = 0 && c = '%' then do
    let s ← (s.unroll (-1)).dropKey
    let (t, cur) ← readDirective cur
    some (s.node false t cur)
  else if cur.atDocumentMark then do
    let s ← (s.unroll (-1)).dropKey
    some (s.node false (if c = '-' then .documentStart else .documentEnd) (cur.forward 3))
  else if c = '[' then s.openFlow .flowSequenceStart
  else if c = '\x7b' then s.openFlow .flowMappingStart
  else if c = ']' then s.closeFlow .flowSequenceEnd
  else if c = '\x7d' then s.closeFlow .flowMappingEnd
  else if c = ',' then do
    let s ← s.dropKey
    some (s.node true .flowEntry cur.next)
  else if c = '-' && isGap (cur.look 1) then s.blockEntry
  else if c = '?' && (s.inFlow || isGap (cur.look 1)) then s.explicitKey
  else if c = ':' && (s.inFlow || isGap (cur.look 1)) then s.valueMark
  else if c = '*' then do
    let s ← s.saveKey
    let (name, cur) ← readAnchor cur
    some (s.node false (.alias name) cur)
  else if c = '&' then do
    let s ← s.saveKey
    let (name, cur) ← readAnchor cur
    some (s.node false (.anchor name) cur)
  else if c = '!' then do
    let s ← s.saveKey
    let (t, cur) ← readTag s.inFlow cur
    some (s.node false t cur)
  else if (c = '|' || c = '>') && !s.inFlow then do
    let s ← s.dropKey
    let (text, cur) ← readBlock (c = '|') s.indent cur
    some (s.node true (.scalar false (String.ofList text)) cur)
  else if c = '\'' || c = '"' then do
    let s ← s.saveKey
    let (text, cur) ← readQuoted (c = '\'') cur
    some (s.node false (.scalar false (String.ofList text)) cur)
  else if s.startsPlain then do
    let s ← s.saveKey
    let (text, broken, cur) ← readPlain s.inFlow (s.indent + 1).toNat cur
    some (s.node broken (.scalar true (String.ofList text)) cur)
  else none

/-- Reads tokens up to the end of the text. Every token uses a character. -/
def run : Nat → Lexer → Option (List Token)
  | 0, _ => none
  | fuel + 1, s => do
    let s ← (skipBlanks (s.cursor.rest.length + 1) s).refreshKeys
    let s := s.unroll s.cursor.column
    if s.cursor.head = '\x00' then
      let s ← (s.unroll (-1)).dropKey
      some s.tokens.toList
    else
      let s ← s.token
      run fuel s

end Lexer

/-- The tokens of a text. -/
def tokens (text : String) : Option (List Token) :=
  let cs := text.toList
  if cs.all isPrintable then Lexer.run (cs.length + 2) { cursor := Cursor.ofText cs } else none

end ParamSweep.Yaml
