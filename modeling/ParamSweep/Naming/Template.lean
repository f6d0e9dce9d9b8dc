import ParamSweep.Naming.Token
import ParamSweep.Text.Case
import ParamSweep.Error

/-!
Templates of names: text with placeholders `{{ path }}` and `{{ path | filter }}`.

A template is read once from left to right. At each place the longest placeholder that begins there
is taken, anything else is literal; what a placeholder stands for is not read again.
-/

namespace ParamSweep.Naming

/-- A stretch of a template. -/
inductive Piece where
  | literal (c : Char)
  | placeholder (path : String) (filter : Option String)
  deriving Inhabited

/-- A letter that may start a path. -/
def startsPath (c : Char) : Bool := c.isAlpha || c = '_'

/-- A letter that may continue a path. -/
def continuesPath (c : Char) : Bool := c.isAlphanum || c = '_' || c = '.'

/-- The two closing braces of a placeholder. -/
def closingBraces? : List Char → Option (List Char)
  | '\x7d' :: '\x7d' :: rest => some rest
  | _ => none

/-- What follows the path of a placeholder: nothing, or a bar and the name of a filter. -/
def filterPart? (cs : List Char) : Option (Option String × List Char) :=
  match Text.trimStart cs with
  | '|' :: rest =>
    let named := Text.trimStart rest
    let name := named.takeWhile startsPath
    if name.isEmpty then none
    else (closingBraces? (Text.trimStart (named.dropWhile startsPath))).map fun rest' =>
      (some (String.ofList name), rest')
  | rest => (closingBraces? rest).map fun rest' => (none, rest')

/-- The placeholder at the start of a text, and the text behind it. -/
def placeholder? : List Char → Option (Piece × List Char)
  | '\x7b' :: '\x7b' :: rest =>
    match Text.trimStart rest with
    | c :: cs =>
      if startsPath c then
        let path := c :: cs.takeWhile continuesPath
        (filterPart? (cs.dropWhile continuesPath)).map fun (filter, rest') =>
          (.placeholder (String.ofList path) filter, rest')
      else none
    | [] => none
  | _ => none

/-- The pieces of a template. Every piece uses a character, so as much fuel as there are characters
is enough. -/
def pieces : Nat → List Char → List Piece
  | _, [] => []
  | 0, _ => []
  | fuel + 1, c :: cs =>
    match placeholder? (c :: cs) with
    | some (p, rest) => p :: pieces fuel rest
    | none => .literal c :: pieces fuel cs

/-- Applies a filter to a text. -/
def applyFilter (name text : String) : Except Cause String :=
  match name with
  | "fs_safe" => .ok (fsSafe text)
  | "lower" => .ok (Text.lower text)
  | "upper" => .ok (Text.upper text)
  | _ => .error (.unknownFilter name)

/-- What a piece stands for. -/
def Piece.fill (template : String) (context : Entries Value) : Piece → Except Cause (List Char)
  | .literal c => .ok [c]
  | .placeholder path filter =>
    match context.lookup path with
    | none => .error (.unknownTemplateName template path)
    | some v =>
      match filter with
      | none => .ok (spell v).toList
      | some name => (applyFilter name (spell v)).map String.toList

/-- What a list of pieces stands for. -/
def fillAll (template : String) (context : Entries Value) : List Piece → Except Cause (List Char)
  | [] => .ok []
  | p :: rest => do
    let text ← p.fill template context
    let texts ← fillAll template context rest
    .ok (text ++ texts)

/-- The text that a template stands for; no doubled brace may be left in it. -/
def renderTemplate (template : String) (context : Entries Value) : Except Cause String := do
  let text ← fillAll template context (pieces template.toList.length template.toList)
  if Text.containsPart ['\x7b', '\x7b'] text || Text.containsPart ['\x7d', '\x7d'] text then
    .error (.unsupportedPlaceholder template)
  else .ok (String.ofList text)

end ParamSweep.Naming
