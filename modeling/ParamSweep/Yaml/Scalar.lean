import ParamSweep.Yaml.Cursor

/-!
The text of scalars: plain, in quotes, and in blocks.

Inside plain and quoted scalars a line break with nothing but blanks around it is folded: a single
one becomes a space, of several the first is dropped (`Fold.text`). Block scalars keep the lines
that are indented deep enough; a folded block joins lines that do not start with a blank.
-/

namespace ParamSweep.Yaml

/-- The blanks and line breaks between two words of a scalar. -/
structure Fold where
  /-- Whether there is a line break among them. -/
  broken : Bool := false
  /-- The blanks before the first line break. -/
  blanks : List Char := []
  /-- The first line break. -/
  first : List Char := []
  /-- The line breaks after it. -/
  more : List Char := []

/-- What stands for blanks and line breaks between two words. -/
def Fold.text (f : Fold) : List Char :=
  if f.broken then
    if f.first.head? = some '\n' then (if f.more.isEmpty then [' '] else f.more)
    else f.first ++ f.more
  else f.blanks

/-- Reads blanks and line breaks. A tab in the first `tabLimit` columns of a later line is no
indentation and fails. -/
def readFold (tabLimit : Nat) : Nat → Fold → Cursor → Option (Fold × Cursor)
  | 0, f, cur => some (f, cur)
  | fuel + 1, f, cur =>
    if isSpace cur.head then
      if f.broken && cur.column < tabLimit && cur.head = '\t' then none
      else if f.broken then readFold tabLimit fuel f cur.next
      else readFold tabLimit fuel { f with blanks := f.blanks ++ [cur.head] } cur.next
    else if isBreak cur.head then
      let (text, cur') := cur.lineBreak
      if f.broken then readFold tabLimit fuel { f with more := f.more ++ text } cur'
      else readFold tabLimit fuel { f with broken := true, blanks := [], first := text } cur'
    else some (f, cur)

/-- A character that ends a plain scalar inside brackets. -/
def isFlowEnd (c : Char) : Bool := c = ',' || c = '[' || c = ']' || c = '\x7b' || c = '\x7d'

/-- The next word of a plain scalar, which may be empty. -/
def plainWord (flow : Bool) : Nat → Cursor → Option (List Char × Cursor)
  | 0, cur => some ([], cur)
  | fuel + 1, cur =>
    if isGap cur.head then some ([], cur)
    else if flow && cur.head = ':' && (isFlowEnd (cur.look 1) || cur.look 1 = '?') then none
    else if cur.head = ':' && isGap (cur.look 1) then some ([], cur)
    else if flow && isFlowEnd cur.head then some ([], cur)
    else (plainWord flow fuel cur.next).map fun (word, cur') => (cur.head :: word, cur')

/-- The words of a plain scalar after the text `acc` and the fold `f`: the text, whether it ends
behind a line break, and the cursor. -/
def plainWords (flow : Bool) (indent : Nat) :
    Nat → List Char → Fold → Cursor → Option (List Char × Bool × Cursor)
  | 0, acc, f, cur => some (acc, f.broken, cur)
  | fuel + 1, acc, f, cur =>
    if cur.atDocumentMark || cur.head = '#' then some (acc, f.broken, cur)
    else do
      let (word, cur') ← plainWord flow (cur.rest.length + 1) cur
      let acc' := if word.isEmpty then acc else acc ++ f.text ++ word
      let f' : Fold := if word.isEmpty then f else {}
      if isSpace cur'.head || isBreak cur'.head then
        let (g, cur'') ← readFold indent (cur'.rest.length + 1) f' cur'
        if !flow && cur''.column < indent then some (acc', g.broken, cur'')
        else plainWords flow indent fuel acc' g cur''
      else some (acc', f'.broken, cur')

/-- A plain scalar. -/
def readPlain (flow : Bool) (indent : Nat) (cur : Cursor) : Option (List Char × Bool × Cursor) :=
  plainWords flow indent (cur.rest.length + 1) [] {} cur

/-- The value of a hexadecimal digit. -/
def hexDigit? (c : Char) : Option Nat :=
  if '0' ≤ c && c ≤ '9' then some (c.toNat - 48)
  else if 'a' ≤ c && c ≤ 'f' then some (c.toNat - 87)
  else if 'A' ≤ c && c ≤ 'F' then some (c.toNat - 55)
  else none

/-- The number that `n` hexadecimal digits denote. -/
def hexNumber? (n : Nat) (cs : List Char) : Option Nat :=
  if (cs.take n).length < n then none
  else (cs.take n).foldlM (fun acc c => (hexDigit? c).map (16 * acc + ·)) 0

/-- The character with a given number, if there is one. -/
def characterOf? (n : Nat) : Option Char :=
  if n ≤ 0x10FFFF && !(0xD800 ≤ n && n ≤ 0xDFFF) then some (Char.ofNat n) else none

/-- The character that an escape stands for, given by what follows the backslash, and the length
of that. -/
def escape? (cs : List Char) : Option (Char × Nat) :=
  let coded (n : Nat) : Option (Char × Nat) := do
    let code ← hexNumber? n (cs.drop 1)
    let c ← characterOf? code
    some (c, n + 1)
  match cs.head? with
  | some '0' => some ('\x00', 1)
  | some 'a' => some ('\x07', 1)
  | some 'b' => some ('\x08', 1)
  | some 't' => some ('\t', 1)
  | some '\t' => some ('\t', 1)
  | some 'n' => some ('\n', 1)
  | some 'v' => some ('\x0b', 1)
  | some 'f' => some ('\x0c', 1)
  | some 'r' => some ('\r', 1)
  | some 'e' => some ('\x1b', 1)
  | some ' ' => some (' ', 1)
  | some '"' => some ('"', 1)
  | some '/' => some ('/', 1)
  | some '\\' => some ('\\', 1)
  | some 'N' => some (Char.ofNat 0x85, 1)
  | some '_' => some (Char.ofNat 0xA0, 1)
  | some 'L' => some (Char.ofNat 0x2028, 1)
  | some 'P' => some (Char.ofNat 0x2029, 1)
  | some 'x' => coded 2
  | some 'u' => coded 4
  | some 'U' => coded 8
  | _ => none

/-- The next word inside quotes, whether it ended with an escaped line break, and the cursor. -/
def quotedWord (single : Bool) : Nat → Cursor → Option (List Char × Bool × Cursor)
  | 0, cur => some ([], false, cur)
  | fuel + 1, cur =>
    let c := cur.head
    if isGap c then some ([], false, cur)
    else if single then
      if c = '\'' then
        if cur.look 1 = '\'' then
          (quotedWord single fuel (cur.forward 2)).map fun (w, b, cur') => ('\'' :: w, b, cur')
        else some ([], false, cur)
      else (quotedWord single fuel cur.next).map fun (w, b, cur') => (c :: w, b, cur')
    else if c = '"' then some ([], false, cur)
    else if c = '\\' then
      if isBreak (cur.look 1) then some ([], true, cur.next.nextLine)
      else do
        let (d, n) ← escape? (cur.rest.drop 1)
        let (w, b, cur') ← quotedWord single fuel (cur.forward (n + 1))
        some (d :: w, b, cur')
    else (quotedWord single fuel cur.next).map fun (w, b, cur') => (c :: w, b, cur')

/-- The words inside quotes after the text `acc`, up to and including the closing quote. -/
def quotedWords (single : Bool) : Nat → List Char → Cursor → Option (List Char × Cursor)
  | 0, _, _ => none
  | fuel + 1, acc, cur =>
    if cur.atDocumentMark || cur.head = '\x00' then none
    else do
      let (word, escaped, cur') ← quotedWord single (cur.rest.length + 1) cur
      if !escaped && cur'.head = (if single then '\'' else '"') then some (acc ++ word, cur'.next)
      else
        let (f, cur'') ← readFold 0 (cur'.rest.length + 1) { broken := escaped } cur'
        quotedWords single fuel (acc ++ word ++ f.text) cur''

/-- A scalar in quotes. -/
def readQuoted (single : Bool) (cur : Cursor) : Option (List Char × Cursor) :=
  quotedWords single (cur.rest.length + 1) [] cur.next

/-- What becomes of the line breaks at the end of a block. -/
inductive Chomping where
  | strip
  | clip
  | keep
  deriving DecidableEq

/-- The indicators behind the `|` or `>` of a block: chomping and indentation, in either order. -/
def blockHeader? (cur : Cursor) : Option (Chomping × Option Nat × Cursor) :=
  let chomping? (c : Char) : Option Chomping :=
    if c = '+' then some .keep else if c = '-' then some .strip else none
  match chomping? cur.head with
  | some chomp =>
    let cur := cur.next
    if cur.head.isDigit then
      if cur.head = '0' then none else some (chomp, some (cur.head.toNat - 48), cur.next)
    else some (chomp, none, cur)
  | none =>
    if cur.head.isDigit then
      if cur.head = '0' then none
      else
        let n := cur.head.toNat - 48
        let cur := cur.next
        match chomping? cur.head with
        | some chomp => some (chomp, some n, cur.next)
        | none => some (.clip, some n, cur)
    else some (.clip, none, cur)

/-- Reads indentation and empty lines of a block: the line breaks and the greatest column reached.
Without a known indentation all spaces count as indentation. -/
def blockBreaks (indent : Option Nat) :
    Nat → List Char → Nat → Cursor → Option (List Char × Nat × Cursor)
  | 0, breaks, deepest, cur => some (breaks, deepest, cur)
  | fuel + 1, breaks, deepest, cur =>
    let inside (column : Nat) : Bool := indent.all fun n => decide (column < n)
    let wanted : Nat := match indent with
      | some n => n - cur.column
      | none => cur.rest.length
    let spaces := (cur.rest.take wanted).takeWhile (· = ' ')
    let cur := cur.forward spaces.length
    let deepest := max deepest cur.column
    if inside cur.column && cur.head = '\t' then none
    else if isBreak cur.head then
      let (text, cur') := cur.lineBreak
      blockBreaks indent fuel (breaks ++ text) deepest cur'
    else some (breaks, deepest, cur)

/-- The lines of a block whose text so far is `acc`; `lead` is the line break before the next line,
`trail` are the empty lines behind that, and `blankLead` says whether the last line began with a
blank. -/
def blockLines (literal : Bool) (indent : Nat) :
    Nat → List Char → List Char → List Char → Bool → Cursor →
      Option (List Char × List Char × List Char × Cursor)
  | 0, acc, lead, trail, _, cur => some (acc, lead, trail, cur)
  | fuel + 1, acc, lead, trail, blankLead, cur =>
    if cur.column = indent && cur.head ≠ '\x00' then
      let blank := isSpace cur.head
      let joint :=
        if !literal && lead.head? = some '\n' && !blankLead && !blank then
          (if trail.isEmpty then [' '] else [])
        else lead
      let (line, cur) := cur.span (!isLineEnd ·)
      let (lead', cur) := cur.lineBreak
      do
        let (trail', _, cur) ← blockBreaks (some indent) (cur.rest.length + 1) [] 0 cur
        blockLines literal indent fuel (acc ++ joint ++ trail ++ line) lead' trail' blank cur
    else some (acc, lead, trail, cur)

/-- A block scalar whose parent is indented by `parent`, -1 at the top. -/
def readBlock (literal : Bool) (parent : Int) (cur : Cursor) : Option (List Char × Cursor) := do
  let (chomp, increment, cur) ← blockHeader? cur.next
  let cur := cur.skipWhile isSpace
  let cur := if cur.head = '#' then cur.skipWhile (!isLineEnd ·) else cur
  if !isLineEnd cur.head then none
  else
    let cur := cur.nextLine
    let known := increment.map fun n => (max parent 0).toNat + n
    let (breaks, deepest, cur) ← blockBreaks known (cur.rest.length + 1) [] 0 cur
    let indent := known.getD (max deepest (max (parent + 1).toNat 1))
    let (text, lead, trail, cur) ←
      blockLines literal indent (cur.rest.length + 1) [] [] breaks false cur
    match chomp with
    | .strip => some (text, cur)
    | .clip => some (text ++ lead, cur)
    | .keep => some (text ++ lead ++ trail, cur)

end ParamSweep.Yaml
