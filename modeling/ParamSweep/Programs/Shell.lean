import ParamSweep.Programs.Command
import ParamSweep.Programs.Tools

/-!
Running programs: the collection of small tools, the shell, and files that name the shell as their
interpreter.

A shell keeps its parameters, what is left of its input and what it has written. `exit` and a signal
to itself end it, everything else goes on to the next pipeline. Scripts that start scripts are
followed to a fixed depth.
-/

namespace ParamSweep.Shell

/-- A shell at work. -/
structure State where
  /-- The name by which it complains. -/
  name : String
  arguments : List String := []
  settings : List (String × String) := []
  input : List UInt8 := []
  output : List UInt8 := []
  errors : List UInt8 := []
  status : Nat := 0
  ended : Option Ending := none

/-- The process number that `$$` stands for. -/
def processNumber : String := "4711"

/-- The value of a parameter. -/
def State.value (s : State) (name : String) : String :=
  match name with
  | "@" => Text.joined " " s.arguments
  | "*" => Text.joined " " s.arguments
  | "#" => toString s.arguments.length
  | "$" => processNumber
  | "?" => toString s.status
  | "0" => s.name
  | name =>
    match name.toNat? with
    | some n => (s.arguments[n - 1]?).getD ""
    | none => (s.settings.lookup name).getD ""

/-- The words that a text splits into at blanks. -/
def splitBlanks (text : String) : List String :=
  ((Text.splitOn ' ' (text.toList.map fun c => if c = '\n' || c = '\t' then ' ' else c)).filter
    fun w => !w.isEmpty).map String.ofList

/-- Words that are being put together: those that are complete, and the last one if it was begun. -/
structure Fields where
  complete : List String := []
  current : Option String := none

/-- The last field grows by a text. -/
def Fields.append (f : Fields) (text : String) : Fields :=
  { f with current := some (f.current.getD "" ++ text) }

/-- The last field is complete. -/
def Fields.next (f : Fields) : Fields :=
  match f.current with
  | some w => ⟨f.complete ++ [w], none⟩
  | none => f

/-- Adds texts as fields of their own, the first and the last joined to what stands around. -/
def Fields.spread (f : Fields) : List String → Fields
  | [] => f
  | [w] => f.append w
  | w :: rest => Fields.spread (f.append w).next rest

/-- Adds a stretch of a word. -/
def Fields.add (s : State) (f : Fields) : Fragment → Fields
  | .text t => f.append (String.ofList t)
  | .parameter "@" true => f.spread s.arguments
  | .parameter name true => f.append (s.value name)
  | .parameter name false => f.spread (splitBlanks (s.value name))

/-- The words that a word of a command stands for. -/
def expand (s : State) (w : Word) : List String := (w.foldl (Fields.add s) {}).next.complete

/-- The text that a word stands for where one is wanted. -/
def expandOne (s : State) (w : Word) : String := Text.joined " " (expand s w)

/-- Where an output of a command goes. -/
inductive Target where
  | output
  | errors
  | nowhere
  deriving DecidableEq

/-- Where both outputs of a command go, and its input. -/
structure Wiring where
  output : Target := .output
  errors : Target := .errors
  input : List UInt8

/-- The wiring changed by a redirection. A file that is written to swallows the output. -/
def Wiring.redirect (t : FileTree) (s : State) (w : Wiring) : Redirection → Except String Wiring
  | .duplicate 1 2 => .ok { w with output := w.errors }
  | .duplicate 2 1 => .ok { w with errors := w.output }
  | .duplicate _ _ => .ok w
  | .toFile 2 _ => .ok { w with errors := .nowhere }
  | .toFile _ _ => .ok { w with output := .nowhere }
  | .fromFile file =>
    let name := expandOne s file
    if name = "/dev/null" then .ok { w with input := [] }
    else
      match t.readBytes name with
      | .ok content => .ok { w with input := content.data.toList }
      | .error _ => .error ("cannot open " ++ name ++ ": No such file")

/-- Bytes added to where they go. -/
def State.write (s : State) (target : Target) (bytes : List UInt8) : State :=
  match target with
  | .output => { s with output := s.output ++ bytes }
  | .errors => { s with errors := s.errors ++ bytes }
  | .nowhere => s

/-- The status that an ending leaves. -/
def statusOf : Ending → Nat
  | .exit code => code % 256
  | .signal number => 128 + number

/-- The signal that an argument of `kill` names. -/
def signal? (argument : String) : Option Nat :=
  match argument.toList with
  | '-' :: rest =>
    let name := String.ofList rest
    name.toNat?.orElse fun _ =>
      (Ending.signalNames.find? fun (_, n) => n == name || "SIG" ++ n == name).map (·.1)
  | _ => none

/-- The commands that act on the shell itself. -/
def builtin? (s : State) : List String → Option State
  | [] => some { s with status := 0 }
  | ":" :: _ => some { s with status := 0 }
  | "exit" :: arguments =>
    let code := (arguments.head?.bind String.toNat?).getD s.status
    some { s with ended := some (.exit (code % 256)) }
  | "kill" :: arguments =>
    if arguments.getLast? = some processNumber then
      some { s with ended := some (.signal ((arguments.head?.bind signal?).getD 15)) }
    else none
  | "shift" :: _ => some { s with arguments := s.arguments.drop 1, status := 0 }
  | "set" :: _ => some { s with status := 0 }
  | _ => none

/-- The assignment that a word is. -/
def assignment? (s : State) (w : Word) : Option (String × String) :=
  match w with
  | .text t :: _ =>
    match Text.splitOnce '=' t with
    | some (name, _) =>
      if !name.isEmpty && name.all isNameChar && !name.head?.any Char.isDigit then
        let value := expandOne s w
        some (String.ofList name, (value.drop (name.length + 1)).toString)
      else none
    | none => none
  | _ => none

/-- Takes the assignments at the start of a command. -/
def assign (s : State) : List Word → State × List Word
  | [] => (s, [])
  | w :: rest =>
    match assignment? s w with
    | some (name, value) =>
      assign { s with settings := (name, value) :: s.settings.filter (·.1 ≠ name) } rest
    | none => (s, w :: rest)

/-- Starts another program for a shell. -/
abbrev Start := Invocation → Except FileFault Outcome

/-- Runs a command with its input; the command's output goes to the state's. -/
def runCommand (t : FileTree) (start : Start) (s : State) (c : Command) : State :=
  let (s, words) := assign s c.words
  let fail (status : Nat) (text : String) : State :=
    { s.write .errors (Tool.line (s.name ++ ": " ++ toString c.line ++ ": " ++ text)) with
      status := status }
  match c.redirections.foldlM (Wiring.redirect t s) { input := s.input } with
  | .error text => fail 2 text
  | .ok wiring =>
    let arguments := words.flatMap (expand s)
    match builtin? s arguments with
    | some s => s
    | none =>
      let program := arguments.head?.getD ""
      let rest := arguments.drop 1
      let outcome :=
        if program = "echo" then .ok (Tool.echo false rest)
        else start ⟨program, rest, s.settings, wiring.input⟩
      match outcome with
      | .ok o =>
        let s := if Tool.readsInput program rest then { s with input := [] } else s
        { (s.write wiring.output o.output).write wiring.errors o.errors with
          status := statusOf o.ending }
      | .error .notFound => fail 127 (program ++ ": not found")
      | .error .permissionDenied => fail 126 (program ++ ": Permission denied")
      | .error fault => fail 126 (program ++ ": " ++ fault.message)

/-- Runs the commands of a pipeline, each with the output of the one before it as its input. -/
def runPipeline (t : FileTree) (start : Start) (s : State) : List Command → State
  | [] => s
  | [c] => runCommand t start s c
  | c :: rest =>
    let inner := runCommand t start { s with output := [] } c
    let signalled := match inner.ended with
      | some (.signal n) => some (Ending.signal n)
      | _ => none
    let behind := runPipeline t start
      { s with input := inner.output, errors := inner.errors, ended := signalled } rest
    { behind with input := [] }

/-- Whether a pipeline is run after a status. -/
def Condition.holds (status : Nat) : Condition → Bool
  | .always => true
  | .afterSuccess => status == 0
  | .afterFailure => status != 0

/-- Runs the pipelines of a script in order, until the shell ends. -/
def runSteps (t : FileTree) (start : Start) (s : State) : List Step → State
  | [] => s
  | step :: rest =>
    if s.ended.isSome then s
    else if Condition.holds s.status step.condition then
      runSteps t start (runPipeline t start s step.pipeline) rest
    else runSteps t start s rest

/-- Runs a script. -/
def runScript (t : FileTree) (start : Start) (s : State) (text : String) : Outcome :=
  match read? text with
  | none => Tool.complain 2 (s.name ++ ": 1: Syntax error")
  | some steps =>
    let s := runSteps t start s steps
    { ending := s.ended.getD (.exit s.status), output := s.output, errors := s.errors }

/-- The interpreter that the first line of a file names. -/
def interpreter? (text : String) : Option String :=
  match text.toList with
  | '#' :: '!' :: rest =>
    some (String.ofList (Text.trim (rest.takeWhile (· ≠ '\n'))))
  | _ => none

/-- The names of the shell. -/
def names : List String :=
  ["sh", "/bin/sh", "/usr/bin/sh", "bash", "/bin/bash", "/usr/bin/bash", "/usr/bin/env sh",
   "/usr/bin/env bash", "dash", "/bin/dash"]

/-- The name of a tool without the directory that the tools are in. -/
def toolName (program : String) : String :=
  if program.startsWith "/usr/bin/" then (program.drop 9).toString
  else if program.startsWith "/bin/" then (program.drop 5).toString
  else program

/-- Starts a program. A name without a slash is that of a tool or of the shell, a path that of one
of them or of an executable file. -/
def start (t : FileTree) : Nat → Invocation → Except FileFault Outcome
  | 0, _ => .error .notProgram
  | depth + 1, i =>
    let shell (name : String) (arguments : List String) (text : String) : Outcome :=
      runScript t (start t depth)
        { name := name, arguments := arguments, settings := i.environment, input := i.input } text
    if names.contains i.program then
      match i.arguments with
      | "-c" :: text :: rest => .ok (shell (rest.head?.getD i.program) (rest.drop 1) text)
      | [] => .ok (shell i.program [] (Text.utf8Lossy ⟨i.input.toArray⟩))
      | file :: rest =>
        match t.readBytes file with
        | .ok content => .ok (shell file rest (Text.utf8Lossy content))
        | .error _ =>
          .ok (Tool.complain 2 (i.program ++ ": 0: cannot open " ++ file ++ ": No such file"))
    else
      match Tool.run? t (toolName i.program) i.arguments i.input with
      | some o => .ok o
      | none =>
        if !i.program.toList.contains '/' then .error .notFound
        else
          match t.node i.program with
          | .error fault => .error fault
          | .ok (.dir _) => .error .permissionDenied
          | .ok (.file content executable) =>
            if !executable then .error .permissionDenied
            else
              let text := Text.utf8Lossy content
              match interpreter? text with
              | none => .error .notProgram
              | some name =>
                if names.contains name then .ok (shell i.program i.arguments text)
                else .error .notFound

/-- The number of scripts that may have started each other. -/
def maxDepth : Nat := 16

/-- The programs of a machine with these tools and this shell. -/
def programs : Programs := fun t i =>
  if i.isPassable then start t maxDepth i else .error .invalidText

end ParamSweep.Shell
