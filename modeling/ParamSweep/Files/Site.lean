import ParamSweep.Files.Moment
import ParamSweep.Files.Tree

/-!
The site that operations work on: its files, the lines said to the user, and whatever lies beyond
both, of which nothing is known here.

An `Action` is an operation on a site. What it has done before it fails stays done.
-/

namespace ParamSweep

/-- Files, the lines said so far, and the world outside. -/
structure Site (τ : Type) where
  tree : FileTree
  now : Moment := {}
  console : List String := []
  outside : τ
  deriving Inhabited

/-- An operation on a site. -/
abbrev Action (τ α : Type) := ExceptT Error (StateM (Site τ)) α

namespace Action
variable {τ α : Type}

/-- The action that leaves the site as it is and gives an answer. -/
def ofExcept (r : Except Error α) : Action τ α := ExceptT.mk (pure r)

/-- The action with an answer or a cause. -/
def ofCause (r : Except Cause α) : Action τ α := ofExcept (r.mapError Error.configuration)

/-- The action that fails for a cause. -/
def refuse (cause : Cause) : Action τ α := throw (.configuration cause)

/-- The time. -/
def now : Action τ Moment := do return (← get).now

/-- The files as they are now. -/
def tree : Action τ FileTree := do return (← get).tree

/-- An answer that the files give. -/
def look (f : FileTree → Except Error α) : Action τ α := do ofExcept (f (← tree))

/-- Says a line to the user. -/
def say (line : String) : Action τ Unit :=
  modify fun s => { s with console := s.console ++ [line] }

/-- Says lines to the user. -/
def sayAll (lines : List String) : Action τ Unit :=
  modify fun s => { s with console := s.console ++ lines }

/-- Changes the files; the error names the path. -/
def change (path : String) (f : FileTree → Except FileFault FileTree) : Action τ Unit := do
  match f (← tree) with
  | .ok t => modify fun s => { s with tree := t }
  | .error fault => throw (.file path fault)

/-- Changes the files as far as it goes; the error names the path. -/
def changeAsFar (path : String) (f : FileTree → FileTree × Option FileFault) : Action τ Unit := do
  let (t, fault) := f (← tree)
  modify fun s => { s with tree := t }
  match fault with
  | some fault => throw (.file path fault)
  | none => pure ()

/-- Makes a directory and all those that it lies in. -/
def ensureDir (path : String) : Action τ Unit := changeAsFar path (·.makeDirs path)

/-- Takes away a directory with all that is in it. -/
def removeDir (path : String) : Action τ Unit := changeAsFar path (·.removeDir path)

/-- Writes a whole file at once, and makes the directory that it lies in. -/
def replaceFile (path : String) (content : ByteArray) : Action τ Unit := do
  ensureDir (Path.parent path)
  change path (·.replaceFile path content)

/-- Writes a text as a whole file. -/
def replaceText (path text : String) : Action τ Unit := replaceFile path text.toUTF8

end Action

end ParamSweep
