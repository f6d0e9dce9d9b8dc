import ParamSweep.Merge

/-!
Configuration documents: a format and a mapping.

A file is read as a document in one of two forms: with `format` and `data` at its top level, or
as a bare mapping, which is then all data. In the first form a bare key beside them is not read.
-/

namespace ParamSweep

/-- A document. Without a format it takes part in everything but rendering. -/
structure Document where
  format : Option String
  data : Value
  deriving Inhabited

/-- What a value is, in messages. -/
def Value.kind : Value → String
  | .null => "null"
  | .bool _ => "a boolean"
  | .num _ => "a number"
  | .str _ => "a string"
  | .list _ => "a list"
  | .mapping _ => "a mapping"

namespace Document

/-- The format named by an entry of a file. -/
def formatOf (file : String) : Option Value → Except Cause (Option String)
  | none => .ok none
  | some .null => .ok none
  | some (.str s) => .ok (some s)
  | some v => .error (.formatNotText file v.kind)

/-- The data held by an entry of a file. -/
def dataOf (file : String) : Option Value → Except Cause Value
  | none => .ok (.mapping [])
  | some .null => .ok (.mapping [])
  | some (.mapping entries) => .ok (.mapping entries)
  | some v => .error (.dataNotMapping file v.kind)

/-- The document that the content of a file stands for. -/
def ofValue (file : String) : Value → Except Cause Document
  | .mapping entries =>
    if !Entries.contains "format" entries && !Entries.contains "data" entries then
      .ok ⟨none, .mapping entries⟩
    else do
      let format ← formatOf file (Entries.find? "format" entries)
      let data ← dataOf file (Entries.find? "data" entries)
      .ok ⟨format, data⟩
  | v => .error (.documentNotMapping file v.kind)

/-- The document as a value. -/
def toValue (d : Document) : Value :=
  .record [("format", .ofOption .str d.format), ("data", d.data)]

/-- `layer` laid over `base`: the data merged, the format of the layer if it names one. -/
def overlay (base layer : Document) : Except Error Document := do
  let data ← merged base.data layer.data
  .ok ⟨layer.format.orElse fun _ => base.format, data⟩

end Document

end ParamSweep
