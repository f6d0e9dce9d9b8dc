import ParamSweep.Files.Tree

/-!
Programs as the library sees them: they are started with arguments, an environment and an input, and
leave outputs and an ending behind. They may read files and change none.
-/

namespace ParamSweep

/-- How a program came to its end. -/
inductive Ending where
  | exit (code : Nat)
  | signal (number : Nat)
  deriving DecidableEq, Inhabited

namespace Ending

/-- The names of signals. -/
def signalNames : List (Nat × String) :=
  [(1, "HUP"), (2, "INT"), (3, "QUIT"), (4, "ILL"), (5, "TRAP"), (6, "ABRT"), (7, "BUS"),
   (8, "FPE"), (9, "KILL"), (10, "USR1"), (11, "SEGV"), (12, "USR2"), (13, "PIPE"), (14, "ALRM"),
   (15, "TERM")]

/-- Whether the program reached its end without a fault. -/
def isSuccess (e : Ending) : Bool := e = .exit 0

/-- The wording of an ending. -/
def describe : Ending → String
  | .exit code => "exit status: " ++ toString code
  | .signal number =>
    "signal: " ++ toString number ++
      match signalNames.lookup number with
      | some name => " (SIG" ++ name ++ ")"
      | none => ""

end Ending

/-- What a program is started with. -/
structure Invocation where
  program : String
  arguments : List String := []
  environment : List (String × String) := []
  input : List UInt8 := []
  deriving Inhabited

/-- The texts that the program gets. -/
def Invocation.texts (i : Invocation) : List String :=
  i.program :: i.arguments ++ i.environment.flatMap fun (name, value) => [name, value]

/-- Whether all of the texts can be passed on: they end at their first NUL. -/
def Invocation.isPassable (i : Invocation) : Bool :=
  i.texts.all fun text => !text.toList.contains '\x00'

/-- What a program leaves behind. -/
structure Outcome where
  ending : Ending := .exit 0
  output : List UInt8 := []
  errors : List UInt8 := []
  deriving Inhabited

namespace Outcome

/-- The output as text, if it is text. -/
def outputText? (o : Outcome) : Option String := Text.utf8? ⟨o.output.toArray⟩

/-- The output as text, whatever it is. -/
def outputLossy (o : Outcome) : String := Text.utf8Lossy ⟨o.output.toArray⟩

/-- The error output as text without blanks around it. -/
def errorText (o : Outcome) : String := Text.trimmed (Text.utf8Lossy ⟨o.errors.toArray⟩)

end Outcome

/-- The programs of a machine: what starting one among its files does. -/
abbrev Programs := FileTree → Invocation → Except FileFault Outcome

end ParamSweep
