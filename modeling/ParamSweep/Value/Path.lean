import ParamSweep.Value.Basic
import ParamSweep.Text.Pieces

/-!
Dotted paths into nested mappings: `data.grid.nx` is the entry `nx` of the entry `grid` of the
entry `data`.
-/

namespace ParamSweep

/-- The keys that a dotted path names. -/
def pathKeys (path : String) : List String := (Text.splitOn '.' path.toList).map String.ofList

/-- What lies at the end of a path of keys. -/
def Value.descend : Value → List String → Option Value
  | v, [] => some v
  | v, k :: rest => (v.get? k).bind fun w => w.descend rest

/-- What a table holds at a dotted path. -/
def Entries.lookup (path : String) (t : Entries Value) : Option Value :=
  (Value.mapping t).descend (pathKeys path)

end ParamSweep
