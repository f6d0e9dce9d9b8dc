import ParamSweep.Experiment.Layout
import ParamSweep.Decimal.Read
import ParamSweep.Output.Integrity

/-!
The arguments of the command line.

A command is named by the first argument that is no option. Options of the whole program may stand
before or behind it, and behind it they go first. An option may be given once at either place, a
value follows it or is joined to it by `=`, and `--` ends the options.
-/

namespace ParamSweep.CommandLine

/-- The roots of the trees that experiments have parts in. -/
structure Roots where
  config : String := "config"
  runs : String := "runs"
  logs : String := "logs"
  deriving DecidableEq, Inhabited

/-- The layout of an experiment below the roots. -/
def Roots.layout (r : Roots) (experiment : String) : Layout :=
  ⟨experiment, r.config, r.runs, r.logs⟩

/-- How the command `wait` waits, in seconds. -/
structure WaitArguments where
  pollInterval : Nat := 60
  maxWait : Option Nat := none
  initialDelay : Nat := 5
  detailEvery : Nat := 3
  sampleSize : Nat := defaultSampleSize
  deriving DecidableEq, Inhabited

/-- A command. -/
inductive Command where
  | generate (experiment : String) (limit : Option Nat) (rebuild json : Bool)
  | describe (experiment : String) (json : Bool)
  | submit (experiment : String) (json : Bool)
  | status (experiment : String) (json : Bool)
  | monitor (experiment : String) (json : Bool)
  | wait (experiment : String) (how : WaitArguments) (json : Bool)
  | validate (experiment : String) (outputs : Option String) (sampleSize : Nat) (json : Bool)
  | list (json : Bool)
  | clean (experiment : String)
  deriving DecidableEq, Inhabited

/-- What arguments ask for. -/
inductive Request where
  | run (roots : Roots) (command : Command)
  | version
  | help
  /-- The arguments make no sense. -/
  | misuse
  deriving DecidableEq, Inhabited

/-- What kind of value an option takes. -/
inductive OptionKind where
  | flag
  | path
  /-- A natural number of 64 bits. -/
  | word
  /-- A natural number of 32 bits, which may be written with a sign. -/
  | halfWord
  deriving DecidableEq, Inhabited

/-- An option: its name and its kind. -/
abbrev OptionSpec := String × OptionKind

/-- The digits of a number without a plus sign before them. -/
def dropPlus : List Char → List Char
  | '+' :: rest => rest
  | cs => cs

/-- The natural number that a text of digits denotes, if it is no greater than `limit`. -/
def numberUpTo? (limit : Nat) (digits : List Char) : Option Nat :=
  if digits.isEmpty || !digits.all Char.isDigit then none
  else
    let n := Decimal.natural digits
    if n ≤ limit then some n else none

/-- The number that a value of an option denotes. -/
def OptionKind.number? (kind : OptionKind) (text : String) : Option Nat :=
  match kind, text.toList with
  | .halfWord, '-' :: digits => numberUpTo? 0 digits
  | .halfWord, cs => numberUpTo? 0xFFFFFFFF (dropPlus cs)
  | _, cs => numberUpTo? Decimal.wordLimit (dropPlus cs)

/-- Whether a text is a value of a kind. -/
def OptionKind.accepts (kind : OptionKind) (text : String) : Bool :=
  match kind with
  | .flag => false
  | .path => text ≠ ""
  | kind => (kind.number? text).isSome

/-- The options of the whole program that have a value. -/
def globalOptions : List OptionSpec :=
  [("config-root", .path), ("runs-root", .path), ("logs-root", .path), ("verbose", .flag)]

/-- Options with their values, flags with an empty one. -/
abbrev Given := List (String × String)

/-- An option that is now given too; one that was given already is a mistake. -/
def give? (given : Given) (name value : String) : Option Given :=
  if (given.lookup name).isSome then none else some ((name, value) :: given)

/-- Whether an argument is an option or ends them. -/
def isOption (argument : String) : Bool := argument.startsWith "-" && argument ≠ "-"

/-- What is found at the start of a list of arguments. -/
inductive Found where
  /-- Options, and the arguments behind them. -/
  | options (given : Given) (rest : List String)
  | version
  | help
  | misuse

/-- Reads the letters behind a single dash. `top` says that no command has been named. -/
def readLetters (top : Bool) (rest : List String) : Given → List Char → Found
  | given, [] => .options given rest
  | given, 'v' :: cs =>
    match give? given "verbose" "" with
    | some given => readLetters top rest given cs
    | none => .misuse
  | _, 'h' :: _ => .help
  | _, 'V' :: _ => if top then .version else .misuse
  | _, _ :: _ => .misuse

/-- Reads an option that begins with two dashes. -/
def readLong (specs : List OptionSpec) (top : Bool) (given : Given) (body : String)
    (rest : List String) : Found :=
  let (name, joined) := match Text.splitOnce '=' body.toList with
    | some (name, value) => (String.ofList name, some (String.ofList value))
    | none => (body, none)
  let take (kind : OptionKind) (value : String) (rest : List String) : Found :=
    if kind.accepts value then
      match give? given name value with
      | some given => .options given rest
      | none => .misuse
    else .misuse
  match specs.lookup name, joined, rest with
  | some .flag, none, rest =>
    match give? given name "" with
    | some given => .options given rest
    | none => .misuse
  | some .flag, some _, _ => .misuse
  | some kind, some value, rest => take kind value rest
  | some kind, none, value :: rest => if isOption value then .misuse else take kind value rest
  | some _, none, [] => .misuse
  | none, none, _ =>
    if name = "help" then .help else if name = "version" && top then .version else .misuse
  | none, some _, _ => .misuse

/-- Arguments that have been read: options and the others, in order. -/
inductive Read where
  | done (given : Given) (positional : List String)
  | version
  | help
  | misuse

/-- Reads the arguments of a command. Each step uses up an argument. -/
def readArguments (specs : List OptionSpec) : Nat → Given → List String → List String → Read
  | 0, given, positional, _ => .done given positional
  | _ + 1, given, positional, [] => .done given positional
  | fuel + 1, given, positional, a :: rest =>
    let next : Found → Read
      | .options given rest => readArguments specs fuel given positional rest
      | .version => .version
      | .help => .help
      | .misuse => .misuse
    if a = "--" then .done given (positional ++ rest)
    else if a.startsWith "--" then next (readLong specs false given (a.drop 2).toString rest)
    else if isOption a then next (readLetters false rest given (a.toList.drop 1))
    else readArguments specs fuel given (positional ++ [a]) rest

/-- The options before the command, the name of the command, and the arguments behind it. -/
inductive Head where
  | command (given : Given) (name : String) (rest : List String)
  | version
  | help
  | misuse

/-- Reads the arguments up to the name of the command. -/
def readHead : Nat → Given → List String → Head
  | 0, _, _ => .misuse
  | _ + 1, _, [] => .misuse
  | fuel + 1, given, a :: rest =>
    let next : Found → Head
      | .options given rest => readHead fuel given rest
      | .version => .version
      | .help => .help
      | .misuse => .misuse
    if a = "--" then .misuse
    else if a.startsWith "--" then next (readLong globalOptions true given (a.drop 2).toString rest)
    else if isOption a then next (readLetters true rest given (a.toList.drop 1))
    else .command given a rest

/-- The options of a command besides those of the program; `none` for no command. -/
def optionsOf? : String → Option (List OptionSpec)
  | "generate" => some [("limit", .word), ("rebuild", .flag), ("json", .flag)]
  | "describe" => some [("json", .flag)]
  | "submit" => some [("json", .flag)]
  | "status" => some [("json", .flag)]
  | "monitor" => some [("json", .flag)]
  | "wait" => some
      [("poll-interval", .word), ("max-wait", .word), ("initial-delay", .word),
       ("detail-every", .halfWord), ("sample-size", .word), ("json", .flag)]
  | "validate" => some [("outputs", .path), ("sample-size", .word), ("json", .flag)]
  | "list" => some [("json", .flag)]
  | "clean" => some []
  | _ => none

/-- Whether a flag is given. -/
def Given.has (g : Given) (name : String) : Bool := (g.lookup name).isSome

/-- The number that an option is given. -/
def Given.number? (g : Given) (name : String) : Option Nat :=
  (g.lookup name).bind (OptionKind.number? .halfWord) |>.orElse fun _ =>
    (g.lookup name).bind (OptionKind.number? .word)

/-- The command of a name with options and an experiment. -/
def experimentCommand? (name experiment : String) (g : Given) : Option Command :=
  let json := g.has "json"
  match name with
  | "generate" => some (.generate experiment (g.number? "limit") (g.has "rebuild") json)
  | "describe" => some (.describe experiment json)
  | "submit" => some (.submit experiment json)
  | "status" => some (.status experiment json)
  | "monitor" => some (.monitor experiment json)
  | "wait" =>
    let d : WaitArguments := {}
    some (.wait experiment
      { pollInterval := (g.number? "poll-interval").getD d.pollInterval,
        maxWait := g.number? "max-wait",
        initialDelay := (g.number? "initial-delay").getD d.initialDelay,
        detailEvery := (g.number? "detail-every").getD d.detailEvery,
        sampleSize := (g.number? "sample-size").getD d.sampleSize } json)
  | "validate" =>
    some (.validate experiment (g.lookup "outputs")
      ((g.number? "sample-size").getD defaultSampleSize) json)
  | "clean" => some (.clean experiment)
  | _ => none

/-- The command of a name with options and other arguments. -/
def command? (name : String) (g : Given) : List String → Option Command
  | [] => if name = "list" then some (.list (g.has "json")) else none
  | [experiment] => experimentCommand? name experiment g
  | _ => none

/-- The roots that options ask for; those behind the command go first. -/
def rootsOf (before behind : Given) : Roots :=
  let root (name default : String) : String :=
    ((behind.lookup name).orElse fun _ => before.lookup name).getD default
  ⟨root "config-root" "config", root "runs-root" "runs", root "logs-root" "logs"⟩

/-- What a list of arguments asks for. -/
def parse (arguments : List String) : Request :=
  match readHead (arguments.length + 1) [] arguments with
  | .version => .version
  | .help => .help
  | .misuse => .misuse
  | .command before name rest =>
    if name = "help" then .help
    else
      match optionsOf? name with
      | none => .misuse
      | some specs =>
        match readArguments (globalOptions ++ specs) (rest.length + 1) [] [] rest with
        | .version => .version
        | .help => .help
        | .misuse => .misuse
        | .done behind positional =>
          match command? name behind positional with
          | some command => .run (rootsOf before behind) command
          | none => .misuse

end ParamSweep.CommandLine
