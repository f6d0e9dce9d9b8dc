import ParamSweep.Programs.Basic
import ParamSweep.Value.Json
import ParamSweep.Yaml.Printer

/-!
Rendering: from the data of a document to the text of a file.

The formats YAML and JSON are written by the library itself. Any other format is the business of a
program that reads a request on its input and answers with the text.
-/

namespace ParamSweep

/-- A way of rendering: its name, and the text for a format, data and a file name. -/
structure Renderer where
  name : String
  render : String → Value → String → Except Cause String

namespace Renderer

/-- Writes YAML and JSON. -/
def structured : Renderer where
  name := "structured"
  render format data file :=
    match format with
    | "yaml" => .ok (Yaml.render data)
    | "yml" => .ok (Yaml.render data)
    | "json" => .ok (data.pretty ++ "\n")
    | other => .error (.unsupportedFormat other file)

/-- What a render program is asked. -/
def request (format : String) (data : Value) (file : String) : Value :=
  .record [("format", .str format), ("data", data), ("output_filename", .str file)]

/-- Runs a render program. -/
def runProgram (programs : Programs) (tree : FileTree) (program : String)
    (arguments : List String) (format : String) (data : Value) (file : String) :
    Except Cause String :=
  let input := (request format data file).compact.toUTF8.data.toList
  match programs tree { program := program, arguments := arguments, input := input } with
  | .error .notFound => .error (.renderCommandNotFound program)
  | .error fault => .error (.renderCommandNotStarted program fault)
  | .ok o =>
    if o.ending.isSuccess then
      match o.outputText? with
      | some text => .ok text
      | none => .error (.renderedNotText program file)
    else .error (.renderCommandFailed program file o.ending.describe o.errorText)

/-- Renders by a program among the files of a tree. -/
def command (programs : Programs) (tree : FileTree) (argv : List String) :
    Except Cause Renderer :=
  match argv with
  | [] => .error .noRenderCommand
  | program :: arguments =>
    .ok { name := Text.joined " " argv, render := runProgram programs tree program arguments }

/-- Renders as a plan asks: by its program if it names one. -/
def ofCommand? (programs : Programs) (tree : FileTree) :
    Option (List String) → Except Cause Renderer
  | some argv => command programs tree argv
  | none => .ok structured

end Renderer

end ParamSweep
