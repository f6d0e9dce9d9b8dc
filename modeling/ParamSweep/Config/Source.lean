import ParamSweep.Experiment.Layout
import ParamSweep.Files.Tree
import ParamSweep.Yaml.Reader

/-!
Where the configuration of experiments comes from.

A source knows the experiments, the one that each of them builds on, and their files. On disk an
experiment is a directory: its own files are in `in`, and one of two metadata files beside that
directory may name the base.
-/

namespace ParamSweep

/-- A source of configuration. -/
structure ConfigSource where
  /-- Whether there is an experiment of a name. -/
  contains : String → Bool
  /-- The experiment that one builds on. -/
  base? : String → Except Error (Option String)
  /-- The names of an experiment's own files. -/
  fileNames : String → Except Error (List String)
  /-- The content of an experiment's own file, if it has it. -/
  load : String → String → Except Error (Option Value)
  /-- A number that the number of different bases does not exceed. -/
  bound : Nat

/-- The value that a YAML file holds. -/
def FileTree.readYaml (t : FileTree) (path : String) : Except Error Value := do
  let text ← (t.readText path).mapError (Error.file path)
  Yaml.read path text

/-- The files that may name the base of an experiment; the first one that is there counts. -/
def metadataFiles : List String := ["experiment.yaml", "analysis_config.yaml"]

/-- The key under which they name it. -/
def basePointerKey : String := "base_config"

/-- The base that the content of a metadata file names. -/
def basePointer (path : String) (metadata : Value) : Except Error (Option String) :=
  match metadata.get? basePointerKey with
  | none => .ok none
  | some .null => .ok none
  | some (.str s) =>
    if Text.blankText s then
      .error (.configuration (.basePointerNotName path (Value.str s).compact))
    else .ok (some (Text.trimmed s))
  | some v => .error (.configuration (.basePointerNotName path v.compact))

/-- Whether a name is that of a YAML file. -/
def isYamlName (name : String) : Bool :=
  Path.extension? name == some "yaml" || Path.extension? name == some "yml"

mutual

/-- The number of files in a node. -/
def Node.fileCount : Node → Nat
  | .file _ _ => 1
  | .dir entries => Node.fileCounts entries

/-- The number of files in all entries. -/
def Node.fileCounts : List (String × Node) → Nat
  | [] => 0
  | (_, n) :: rest => n.fileCount + Node.fileCounts rest

end

namespace ConfigSource

/-- The base of an experiment below a root. -/
def baseIn (t : FileTree) (root experiment : String) : Except Error (Option String) :=
  match metadataFiles.find? fun name => t.isFile (Path.join (Path.join root experiment) name) with
  | none => .ok none
  | some name => do
    let path := Path.join (Path.join root experiment) name
    basePointer path (← t.readYaml path)

/-- The directory of an experiment's own files. -/
def inputsIn (root experiment : String) : String :=
  Path.join (Path.join root experiment) inputsDirectory

/-- The names of the YAML files of an experiment. -/
def fileNamesIn (t : FileTree) (root experiment : String) : Except Error (List String) :=
  match t.list (inputsIn root experiment) with
  | .ok entries => .ok ((entries.filter fun (name, n) => n.isFile && isYamlName name).map (·.1))
  | .error _ => .ok []

/-- The content of a file of an experiment. -/
def loadIn (t : FileTree) (root experiment file : String) : Except Error (Option Value) :=
  let path := Path.join (inputsIn root experiment) file
  if t.isFile path then (t.readYaml path).map some else .ok none

/-- The configuration below a root. -/
def ofTree (t : FileTree) (root : String) : ConfigSource where
  contains experiment := t.isDir (Path.join root experiment)
  base? := baseIn t root
  fileNames := fileNamesIn t root
  load := loadIn t root
  bound := Node.fileCounts t.entries

end ConfigSource

end ParamSweep
