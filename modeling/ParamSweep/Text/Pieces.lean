import ParamSweep.Text.Blank

/-!
Taking texts apart and putting them together: lines, pieces between separators, parts found in a
text, replacements and columns.
-/

namespace ParamSweep.Text

/-- The pieces of a text between the places where `separator` stands. -/
def splitOn (separator : Char) : List Char → List (List Char)
  | [] => [[]]
  | c :: rest =>
    if c = separator then [] :: splitOn separator rest
    else match splitOn separator rest with
      | piece :: pieces => (c :: piece) :: pieces
      | [] => [[c]]

/-- A line without the carriage return that belongs to its line feed. -/
def dropReturn (line : List Char) : List Char :=
  if line.getLast? = some '\r' then line.dropLast else line

/-- The lines of a list of pieces between line feeds: the last piece is a line only if there is
something in it, and keeps a carriage return. -/
def linesOf : List (List Char) → List (List Char)
  | [] => []
  | [last] => if last.isEmpty then [] else [last]
  | line :: rest => dropReturn line :: linesOf rest

/-- The lines of a text. A line ends at a line feed, with or without a carriage return before it;
what follows the last line feed is a line unless it is empty. -/
def lines (cs : List Char) : List (List Char) := linesOf (splitOn '\n' cs)

/-- The lines of a text. -/
def textLines (s : String) : List String := (lines s.toList).map String.ofList

/-- Whether `part` stands at the start of a text. -/
def startsWith (part cs : List Char) : Bool := part.isPrefixOf cs

/-- Whether `part` stands somewhere in a text. -/
def containsPart (part : List Char) : List Char → Bool
  | [] => part.isEmpty
  | c :: rest => startsWith part (c :: rest) || containsPart part rest

/-- Whether the text `part` stands somewhere in the text `s`. -/
def hasPart (part s : String) : Bool := containsPart part.toList s.toList

/-- Every `old` replaced by `new`. -/
def replaceChar (old : Char) (new : List Char) (cs : List Char) : List Char :=
  cs.flatMap fun c => if c = old then new else [c]

/-- The text filled up with blanks to a width. -/
def padRight (width : Nat) (s : String) : String :=
  s ++ String.ofList (List.replicate (width - s.toList.length) ' ')

/-- The text filled up with blanks on its left. -/
def padLeft (width : Nat) (s : String) : String :=
  String.ofList (List.replicate (width - s.toList.length) ' ') ++ s

/-- The text before the first `separator` and the text behind it. -/
def splitOnce (separator : Char) (cs : List Char) : Option (List Char × List Char) :=
  match cs.dropWhile (· ≠ separator) with
  | [] => none
  | _ :: behind => some (cs.takeWhile (· ≠ separator), behind)

/-- The text before the last `separator` and the text behind it. -/
def splitLast (separator : Char) (cs : List Char) : Option (List Char × List Char) :=
  (splitOnce separator cs.reverse).map fun (behind, before) => (before.reverse, behind.reverse)

/-- The texts with `separator` between them. -/
def joined (separator : String) (texts : List String) : String := separator.intercalate texts

/-- The last `n` items of a list. -/
def lastOf {α : Type} (n : Nat) (xs : List α) : List α := xs.drop (xs.length - n)

end ParamSweep.Text
