import ParamSweep.Text.Pieces

/-!
Paths as texts: names between slashes, `.` for the directory itself and `..` for the one above.
-/

namespace ParamSweep.Path

/-- The path `name` seen from the directory `dir`; an absolute path is the same from everywhere. -/
def join (dir name : String) : String :=
  if name.startsWith "/" then name
  else if dir = "" then name
  else if dir.endsWith "/" then dir ++ name
  else dir ++ "/" ++ name

/-- Whether a path starts at the root. -/
def isAbsolute (path : String) : Bool := path.startsWith "/"

/-- The pieces of a path between its slashes, empty ones left out. -/
def parts (path : String) : List String :=
  ((Text.splitOn '/' path.toList).filter fun p => !p.isEmpty).map String.ofList

/-- The text of a path, last character first, without the slashes and lone points at its end. -/
def dropTrailing : List Char → List Char
  | '/' :: rest => dropTrailing rest
  | '.' :: '/' :: rest => dropTrailing ('/' :: rest)
  | cs => cs

/-- The path of the directory that a path lies in; empty for a single name. -/
def parent (path : String) : String :=
  let inside := (dropTrailing path.toList.reverse).dropWhile (· ≠ '/')
  let above := String.ofList (dropTrailing inside).reverse
  if above = "" && isAbsolute path then "/" else above

/-- The last name of a path; empty where the path ends above itself. -/
def fileName (path : String) : String :=
  match ((parts path).filter (· ≠ ".")).getLast? with
  | some ".." => ""
  | some name => name
  | none => ""

/-- What follows the last point of a name, unless the name starts with that point. -/
def extension? (name : String) : Option String :=
  match Text.splitLast '.' name.toList with
  | some ([], _) => none
  | some (_, behind) => some (String.ofList behind)
  | none => none

end ParamSweep.Path
