import ParamSweep.Value.JsonRecord
import ParamSweep.Files.Tree

/-!
What the record of a generated suite tells of its runs.
-/

namespace ParamSweep

/-- A run in the record of a suite. -/
structure RecordedRun where
  name : String := ""
  parameters : Entries Value := []
  configDigest : Option String := none
  deriving Inhabited

/-- The record of a suite. -/
structure SuiteRecord where
  sweptVariables : List String := []
  runs : List RecordedRun := []
  deriving Inhabited

/-- The nesting that is left inside the parameters of a run. -/
def RecordedRun.parameterDepth : Nat := Json.maxDepth - 4

/-- Reads a run. -/
def RecordedRun.read? : List Char → Option (RecordedRun × List Char) :=
  Json.record?
    [.of "name" true Json.string? fun a r => { r with name := a },
     .of "parameters" false (Json.table? parameterDepth) fun a r => { r with parameters := a },
     .of "config_digest" false Json.optionalString? fun a r => { r with configDigest := a }]
    {}

namespace SuiteRecord

/-- Reads a record. -/
def read? : List Char → Option (SuiteRecord × List Char) :=
  Json.record?
    [.of "swept_variables" false (Json.listOf? Json.string?) fun a r =>
       { r with sweptVariables := a },
     .of "runs" false (Json.listOf? RecordedRun.read?) fun a r => { r with runs := a }]
    {}

/-- The record that a text stands for. -/
def ofText? (text : String) : Option SuiteRecord :=
  match read? text.toList with
  | some (record, rest) => if (Json.skip rest).isEmpty then some record else none
  | none => none

/-- The record in a file, or why there is none. -/
def load (t : FileTree) (path : String) : Except String SuiteRecord :=
  match t.readBytes path with
  | .error fault => .error ("suite record " ++ path ++ ": " ++ fault.message)
  | .ok bytes =>
    match (Text.utf8? bytes).bind ofText? with
    | some record => .ok record
    | none => .error ("suite record " ++ path)

end SuiteRecord

end ParamSweep
