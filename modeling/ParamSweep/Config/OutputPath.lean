import ParamSweep.Text.Pieces

/-!
Where the rendered form of a configuration file goes in a run's directory.

The extension is dropped and underscores become points: `run_in.yaml` is rendered to `run.in`. Two
files of the build go into the directory `src`.
-/

namespace ParamSweep

/-- The rendered files that belong to the build. -/
def buildFiles : List String := ["Makefile.local", "cparam.local"]

/-- The name of the rendered form of a file. -/
def outputFilename (file : String) : String :=
  let stem := match Text.splitLast '.' file.toList with
    | some (before, _) => before
    | none => file.toList
  String.ofList (Text.replaceChar '_' ['.'] stem)

/-- The place of the rendered form of a file in the run's directory. -/
def outputPath (file : String) : String :=
  let name := outputFilename file
  if buildFiles.contains name then "src/" ++ name else name

end ParamSweep
