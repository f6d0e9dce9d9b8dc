import ParamSweep.Error
import ParamSweep.Value.Basic
import ParamSweep.Files.Path
import ParamSweep.Text.Utf8

/-!
A tree of files: what paths lead to, and how files and directories are made and taken away.

A path is followed name by name from the root or from the working directory, and everything on the
way has to be a directory. Once it is followed, what it leads to is a list of names, and reading and
changing the tree go by that list: `nodeAt?` and `setAt`.
-/

namespace ParamSweep

/-- A file or a directory. -/
inductive Node where
  | file (content : ByteArray) (executable : Bool)
  | dir (entries : List (String × Node))
  deriving Inhabited

namespace Node

/-- Whether this is a directory. -/
def isDir : Node → Bool
  | .dir _ => true
  | .file _ _ => false

/-- Whether this is a file. -/
def isFile : Node → Bool
  | .file _ _ => true
  | .dir _ => false

/-- What a list of names leads to. -/
def nodeAt? : List String → Node → Option Node
  | [], n => some n
  | name :: rest, .dir entries => (Entries.find? name entries).bind (nodeAt? rest)
  | _ :: _, .file _ _ => none

/-- The entries of a directory with what `names` leads to put in place, or taken away for `none`.
Nothing changes where the directory that it should be in does not exist. -/
def setAt (value : Option Node) : List String → Entries Node → Entries Node
  | [], entries => entries
  | [name], entries =>
    match value with
    | some n => entries.insert name n
    | none => entries.erase name
  | name :: rest, entries =>
    match Entries.find? name entries with
    | some (.dir inner) => entries.insert name (.dir (setAt value rest inner))
    | _ => entries

end Node

/-- The files of a machine, and the directory that paths start from. -/
structure FileTree where
  entries : Entries Node := []
  workingDir : List String := []
  deriving Inhabited

namespace FileTree

/-- The longest name in bytes. -/
def maxName : Nat := 255

/-- The longest path in bytes. -/
def maxPath : Nat := 4095

/-- What a list of names leads to from the root. -/
def nodeAt? (t : FileTree) (names : List String) : Option Node :=
  Node.nodeAt? names (.dir t.entries)

/-- The tree with what a list of names leads to put in place, or taken away. The root is a directory
whatever is put there, so only its entries can change. -/
def setAt (t : FileTree) (names : List String) (value : Option Node) : FileTree :=
  match names, value with
  | [], some (.dir entries) => { t with entries := entries }
  | names, value => { t with entries := Node.setAt value names t.entries }

/-- The path of the working directory. -/
def workingPath (t : FileTree) : String := "/" ++ Text.joined "/" t.workingDir

/-- A path that means the same in every working directory. -/
def absolute (t : FileTree) (path : String) : String :=
  if Path.isAbsolute path then path else Path.join t.workingPath path

/-- Follows names from a place. The last of them need not be there. -/
def follow (t : FileTree) : List String → List String → Except FileFault (List String)
  | here, [] => .ok here
  | here, part :: rest =>
    match t.nodeAt? here with
    | some (.dir _) =>
      if part = "." then t.follow here rest
      else if part = ".." then t.follow here.dropLast rest
      else if maxName < part.utf8ByteSize then .error .nameTooLong
      else t.follow (here ++ [part]) rest
    | some (.file _ _) => .error .notDirectory
    | none => .error .notFound

/-- The place at which a path starts. -/
def start (t : FileTree) (path : String) : List String :=
  if Path.isAbsolute path then [] else t.workingDir

/-- What makes a text no path at all. -/
def pathFault? (path : String) : Option FileFault :=
  if path.toList.contains '\x00' then some .invalidName
  else if path = "" then some .notFound
  else if maxPath < path.utf8ByteSize then some .nameTooLong
  else none

/-- The names from the root to what a path leads to, which need not be there itself. A slash at the
end asks for a directory. -/
def resolve (t : FileTree) (path : String) : Except FileFault (List String) :=
  match pathFault? path with
  | some fault => .error fault
  | none =>
    t.follow (t.start path) (Path.parts path ++ if path.endsWith "/" then ["."] else [])

/-- What a path leads to. -/
def node (t : FileTree) (path : String) : Except FileFault Node := do
  let names ← t.resolve path
  match t.nodeAt? names with
  | some n => .ok n
  | none => .error .notFound

/-- Whether a path leads to anything. -/
def holds (t : FileTree) (path : String) : Bool := (t.node path).isOk

/-- Whether a path leads to a file. -/
def isFile (t : FileTree) (path : String) : Bool :=
  match t.node path with
  | .ok n => n.isFile
  | .error _ => false

/-- Whether a path leads to a directory. -/
def isDir (t : FileTree) (path : String) : Bool :=
  match t.node path with
  | .ok n => n.isDir
  | .error _ => false

/-- The entries of the directory that a path leads to, by name. -/
def list (t : FileTree) (path : String) : Except FileFault (Entries Node) := do
  match ← t.node path with
  | .dir entries => .ok entries
  | .file _ _ => .error .notDirectory

/-- The bytes of the file that a path leads to. -/
def readBytes (t : FileTree) (path : String) : Except FileFault ByteArray := do
  match ← t.node path with
  | .file content _ => .ok content
  | .dir _ => .error .isDirectory

/-- The text of the file that a path leads to. -/
def readText (t : FileTree) (path : String) : Except FileFault String := do
  let bytes ← t.readBytes path
  match Text.utf8? bytes with
  | some text => .ok text
  | none => .error .notText

/-- Makes a directory in one that is there. -/
def makeDir (t : FileTree) (path : String) : Except FileFault FileTree :=
  match pathFault? path with
  | some fault => .error fault
  | none => do
    let names ← t.follow (t.start path) (Path.parts path)
    match t.nodeAt? names with
    | some (.dir _) => .ok t
    | some (.file _ _) => .error .alreadyThere
    | none => .ok (t.setAt names (some (.dir [])))

/-- Makes a directory and those that it lies in, at most `fuel` of them. What was made before a
fault stays. -/
def makeDirsWithin : Nat → FileTree → String → FileTree × Option FileFault
  | 0, t, _ => (t, none)
  | fuel + 1, t, path =>
    if path = "" then (t, none)
    else
      match t.makeDir path with
      | .ok t => (t, none)
      | .error .notFound =>
        match makeDirsWithin fuel t (Path.parent path) with
        | (t, some fault) => (t, some fault)
        | (t, none) =>
          match t.makeDir path with
          | .ok t => (t, none)
          | .error fault => (t, some fault)
      | .error fault => (t, some fault)

/-- Makes a directory and all those that it lies in. -/
def makeDirs (t : FileTree) (path : String) : FileTree × Option FileFault :=
  makeDirsWithin ((Path.parts path).length + 1) t path

/-- Writes a file at a path, over the file that is there. -/
def writeFile (t : FileTree) (path : String) (content : ByteArray) : Except FileFault FileTree := do
  let names ← t.resolve path
  match t.nodeAt? names with
  | some (.dir _) => .error .isDirectory
  | some (.file _ executable) => .ok (t.setAt names (some (.file content executable)))
  | none => .ok (t.setAt names (some (.file content false)))

/-- The bytes that the name of a file grows by while it is being replaced. -/
def replacementSuffix : Nat := 28

/-- Puts a new file in the place of what a path leads to, at once: first the content is written
beside it, then the name is passed on. -/
def replaceFile (t : FileTree) (path : String) (content : ByteArray) :
    Except FileFault FileTree := do
  let names ← t.resolve path
  if maxName < (Path.fileName path).utf8ByteSize + replacementSuffix then .error .nameTooLong
  else if (Path.parts path).getLast?.any fun part => part = "." || part = ".." then .error .busy
  else
    match t.nodeAt? names with
    | some (.dir _) => .error .isDirectory
    | _ => .ok (t.setAt names (some (.file content false)))

/-- Makes the file at a path executable. -/
def makeExecutable (t : FileTree) (path : String) : Except FileFault FileTree := do
  let names ← t.resolve path
  match t.nodeAt? names with
  | some (.file content _) => .ok (t.setAt names (some (.file content true)))
  | some (.dir _) => .ok t
  | none => .error .notFound

/-- Takes away a directory with all that is in it. A path that ends in `.` or `..` does not name the
directory in the one above, so there only the contents go; for `.` that is a fault. The root itself
cannot be taken away either. -/
def removeDir (t : FileTree) (path : String) : FileTree × Option FileFault :=
  match t.resolve path with
  | .error fault => (t, some fault)
  | .ok names =>
    match t.nodeAt? names, (Path.parts path).getLast? with
    | some (.dir _), some "." => (t.setAt names (some (.dir [])), some .invalidArgument)
    | some (.dir _), some ".." => (t.setAt names (some (.dir [])), none)
    | some (.dir _), none => (t.setAt names (some (.dir [])), some .busy)
    | some (.dir _), some _ => (t.setAt names none, none)
    | some (.file _ _), _ => (t, some .notDirectory)
    | none, _ => (t, some .notFound)

end FileTree

end ParamSweep
