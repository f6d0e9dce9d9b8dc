import ParamSweep.Experiment.Layout
import ParamSweep.Files.Tree

/-!
The experiments that have a sweep plan.
-/

namespace ParamSweep

/-- The names of the experiments below a configuration root, ascending. -/
def listExperiments (t : FileTree) (configRoot : String) : List String :=
  match t.list configRoot with
  | .ok entries => (entries.map (·.1)).filter fun name =>
      t.isFile (Path.join (Path.join (Path.join configRoot name) planDirectory) planFile)
  | .error _ => []

end ParamSweep
