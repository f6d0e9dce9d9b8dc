import ParamSweep.Files.Tree

/-!
What has changed between two trees, as a list of changes that lead from the first to the second.

Changes stand in the order in which they can be made: what goes away goes first, and a directory is
made before anything in it.
-/

namespace ParamSweep

/-- A change at a path. -/
inductive Change where
  | remove (path : String)
  | makeDir (path : String)
  | write (path : String) (content : ByteArray) (executable : Bool)
  deriving Inhabited

namespace Change

/-- What is no longer there. -/
def removals (dir : String) (old new : Entries Node) : List Change :=
  (old.filter fun e => (Entries.find? e.1 new).isNone).map fun e =>
    .remove (Path.join dir e.1)

mutual

/-- The changes that turn `old`, if there is anything, into a node at a path. -/
def ofNode (path : String) (old : Option Node) : Node → List Change
  | .file content executable =>
    match old with
    | some (.file before runnable) =>
      if before = content && runnable = executable then []
      else [.write path content executable]
    | some (.dir _) => [.remove path, .write path content executable]
    | none => [.write path content executable]
  | .dir entries =>
    match old with
    | some (.dir before) => removals path before entries ++ ofEntries path before entries
    | some (.file _ _) => .remove path :: .makeDir path :: ofEntries path [] entries
    | none => .makeDir path :: ofEntries path [] entries

/-- The changes in a directory at the names that are there afterwards. -/
def ofEntries (dir : String) (old : Entries Node) : List (String × Node) → List Change
  | [] => []
  | (name, n) :: rest =>
    ofNode (Path.join dir name) (Entries.find? name old) n ++ ofEntries dir old rest

end

end Change

/-- The changes that lead from one tree to another. -/
def FileTree.changes (old new : FileTree) : List Change :=
  Change.ofNode "/" (some (.dir old.entries)) (.dir new.entries)

end ParamSweep
