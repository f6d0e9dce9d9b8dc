import ParamSweep.CommandLine.Run
import ParamSweep.Files.Change
import Std.Time.DateTime.Timestamp

/-!
The program: it takes the files of the working directory, and of the directories that its arguments
name, into a tree, runs the command that the arguments ask for on it, and makes the changes that the
command has made there in the files.
-/

namespace ParamSweep.Main

/-- How deep directories are taken in. -/
def maxDepth : Nat := 64

/-- Whether the bytes of a file tell which program runs it. -/
def namesProgram (content : ByteArray) : Bool := content.toList.take 2 = [0x23, 0x21]

/-- The file or the directory at a path, if it can be read. -/
def loadWithin : Nat → String → IO (Option Node)
  | 0, _ => return none
  | fuel + 1, path => do
    try
      let place ← IO.FS.realPath path
      if ← place.isDir then
        let mut entries : Entries Node := []
        for e in ← place.readDir do
          if let some n ← loadWithin fuel e.path.toString then
            entries := entries.insert e.fileName n
        return some (.dir entries)
      else
        let content ← IO.FS.readBinFile place
        return some (.file content (namesProgram content))
    catch _ => return none

/-- A tree with what is at a path taken in as well. -/
def take (t : FileTree) (path : String) : IO FileTree := do
  let full := t.absolute path
  match ← loadWithin maxDepth full with
  | none => return t
  | some n =>
    let (t, _) := t.makeDirs (Path.parent full)
    match t.resolve full with
    | .ok names => return if (t.nodeAt? names).isSome then t else t.setAt names (some n)
    | .error _ => return t

/-- The directories that arguments may name, each by an argument of its own or behind `=`. -/
def named (arguments : List String) : List String :=
  arguments.flatMap fun a =>
    match Text.splitOnce '=' a.toList with
    | some (_, value) => [a, String.ofList value]
    | none => [a]

/-- The tree of the files that a command may be about. -/
def load (arguments : List String) : IO FileTree := do
  let dir := (← IO.currentDir).toString
  let start : FileTree := { workingDir := Path.parts dir }
  let (start, _) := start.makeDirs dir
  let names := Path.parts dir
  let start :=
    match ← loadWithin maxDepth dir with
    | some n => if names.isEmpty then start else start.setAt names (some n)
    | none => start
  (named arguments).foldlM take start

/-- Makes a change in the files. -/
def make : Change → IO Unit
  | .remove path => do
    let place ← IO.FS.realPath path
    if ← place.isDir then IO.FS.removeDirAll place else IO.FS.removeFile place
  | .makeDir path => IO.FS.createDirAll path
  | .write path content executable => do
    IO.FS.writeBinFile path content
    if executable then
      let all : IO.AccessRight := { read := true, write := true, execution := true }
      let some : IO.AccessRight := { read := true, execution := true }
      IO.setAccessRights path { user := all, group := some, other := some }

/-- The time. -/
def now : IO Moment := do
  return Moment.ofEpoch (← Std.Time.Timestamp.now).toNanosecondsSinceUnixEpoch.val.toNat

/-- Runs the command that the arguments ask for. -/
def runOn (arguments : List String) : IO Nat := do
  let tree ← load arguments
  let (reply, after) := CommandLine.run tree (← now) arguments
  (tree.changes after).forM make
  reply.output.forM fun line => IO.println line
  if let some text := reply.error then IO.eprintln text
  return reply.status

end ParamSweep.Main

def main (arguments : List String) : IO UInt32 := do
  return (← ParamSweep.Main.runOn arguments).toUInt32
