import ParamSweep.Experiment.Layout
import ParamSweep.Files.Site

/-!
The manifest of an experiment: the names of its runs, one on a line.

The run on line `k` is the run of task `k`. A manifest that is lost can be made again from the
directories of the runs, but only in the order of their names, so that the numbers of the tasks may
change.
-/

namespace ParamSweep

namespace Manifest

/-- Whether a name can stand on a line: it is not blank, has no blanks around it and no line ends
in it. -/
def fitsLine (name : String) : Bool :=
  !Text.blankText name && Text.trimmed name == name &&
    !name.toList.contains '\n' && !name.toList.contains '\r'

/-- The text of a manifest. -/
def body (names : List String) : String := String.join (names.map (· ++ "\n"))

/-- The names in the text of a manifest; blanks around a name and blank lines do not count. -/
def parse (text : String) : List String :=
  ((Text.textLines text).map Text.trimmed).filter (· ≠ "")

/-- How the manifest that is there came to be. -/
inductive Origin where
  | existing
  | regenerated (runs : Nat)
  deriving DecidableEq, Inhabited

namespace Origin

/-- Whether the numbers of the tasks may have changed. -/
def isOrderUnsafe : Origin → Bool
  | .existing => false
  | .regenerated _ => true

/-- The number of runs that were found again. -/
def regenerated? : Origin → Option Nat
  | .existing => none
  | .regenerated runs => some runs

end Origin

variable {τ : Type}

/-- Writes the manifest of an experiment. -/
def write (l : Layout) (names : List String) : Action τ Unit :=
  match names.find? fun n => !fitsLine n with
  | some name => Action.refuse (.unwritableRunName name)
  | none => Action.replaceText l.manifestPath (body names)

/-- The names in the manifest of an experiment. -/
def read (t : FileTree) (l : Layout) : Except Error (List String) :=
  if t.holds l.manifestPath then
    ((t.readText l.manifestPath).mapError (Error.file l.manifestPath)).map parse
  else .error (.manifestMissing l.manifestPath)

/-- The names of the run directories of an experiment, ascending. -/
def runDirectories (t : FileTree) (l : Layout) : List String :=
  match t.list l.generatedConfigsDir with
  | .ok entries => (entries.filter (·.2.isDir)).map (·.1)
  | .error _ => []

/-- What is said when a manifest has been made again. -/
def regeneratedLine (runs : Nat) : String :=
  "warning: regenerated manifest with " ++ toString runs ++
    " runs sorted by name; task-id mapping may differ from the original generation"

/-- Sees to it that there is a manifest: one that is lost is made again from the run directories. -/
def ensure (l : Layout) : Action τ Origin := do
  let t ← Action.tree
  if t.holds l.manifestPath then return .existing
  else
    let names := runDirectories t l
    if names.isEmpty then throw (.manifestMissing l.manifestPath)
    else
      write l names
      Action.say (regeneratedLine names.length)
      return .regenerated names.length

/-- The names in the manifest, which is made again if it is lost. -/
def load (l : Layout) : Action τ (List String × Origin) := do
  let origin ← ensure l
  let names ← Action.look (read · l)
  return (names, origin)

end Manifest

end ParamSweep
