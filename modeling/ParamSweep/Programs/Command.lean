import ParamSweep.Text.Pieces

/-!
Shell scripts: simple commands, pipelines of them, and lists of pipelines.

A script is read line by line into words and operators. Quotes and backslashes keep characters from
having a meaning; what is left of `$` in a word is a parameter, which is filled in when the command
is run. Compound commands are not part of the language.
-/

namespace ParamSweep.Shell

/-- A stretch of a word. -/
inductive Fragment where
  /-- Text that stands for itself. -/
  | text (s : List Char)
  /-- The value of a parameter; outside quotes it is split at blanks. -/
  | parameter (name : String) (quoted : Bool)
  deriving DecidableEq, Inhabited

/-- A word of a command. -/
abbrev Word := List Fragment

/-- Where an output goes, or an input comes from. -/
inductive Redirection where
  /-- The output `stream` goes where the output `target` goes. -/
  | duplicate (stream target : Nat)
  /-- The output `stream` goes to a file. -/
  | toFile (stream : Nat) (file : Word)
  /-- The input comes from a file. -/
  | fromFile (file : Word)
  deriving Inhabited

/-- A program with its arguments. -/
structure Command where
  words : List Word := []
  redirections : List Redirection := []
  /-- The number of the line. -/
  line : Nat := 1
  deriving Inhabited

/-- When a pipeline of a list is run. -/
inductive Condition where
  | always
  | afterSuccess
  | afterFailure
  deriving DecidableEq, Inhabited

/-- A pipeline of a list. -/
structure Step where
  condition : Condition
  pipeline : List Command
  deriving Inhabited

/-- A token of a script. -/
inductive Token where
  | word (w : Word)
  | newline
  | semicolon
  | and
  | or
  | pipe
  /-- `n>&m` -/
  | duplicate (stream target : Nat)
  /-- `n>` or `n>>`, before the word that names the file. -/
  | output (stream : Nat)
  /-- `<`, before the word that names the file. -/
  | input
  deriving Inhabited

/-- A character that a parameter's name may be made of. -/
def isNameChar (c : Char) : Bool := c.isAlphanum || c = '_'

/-- A one-character name of a special parameter. -/
def isSpecial (c : Char) : Bool := c.isDigit || "@*#$?!-".toList.contains c

/-- The parameter whose name follows a dollar sign, and the text behind it. -/
def parameter? : List Char → Option (String × List Char)
  | '\x7b' :: rest =>
    match rest.dropWhile (· ≠ '\x7d') with
    | _ :: behind => some (String.ofList (rest.takeWhile (· ≠ '\x7d')), behind)
    | [] => none
  | c :: rest =>
    if isSpecial c then some (String.singleton c, rest)
    else if isNameChar c then
      some (String.ofList (c :: rest.takeWhile isNameChar), rest.dropWhile isNameChar)
    else none
  | [] => none

/-- A word with a character added to the text at its end. -/
def addChar (c : Char) (w : Word) : Word :=
  match w.getLast? with
  | some (.text s) => w.dropLast ++ [.text (s ++ [c])]
  | _ => w ++ [.text [c]]

/-- A word that has a text, if only an empty one. -/
def addText (w : Word) : Word :=
  match w.getLast? with
  | some (.text _) => w
  | _ => w ++ [.text []]

/-- A character that ends a word. -/
def endsWord (c : Char) : Bool := " \t\n;|&<>".toList.contains c

/-- Reads a word: what is read of it, whether inside double quotes, and the text ahead. -/
def word? : Nat → Word → Bool → List Char → Option (Word × List Char)
  | 0, _, _, _ => none
  | _ + 1, w, false, [] => some (w, [])
  | _ + 1, _, true, [] => none
  | fuel + 1, w, quoted, c :: rest =>
    if c = '"' then word? fuel (addText w) (!quoted) rest
    else if c = '$' then
      match parameter? rest with
      | some (name, behind) => word? fuel (w ++ [.parameter name quoted]) quoted behind
      | none => word? fuel (addChar '$' w) quoted rest
    else if c = '\\' then
      match rest with
      | [] => word? fuel (addChar '\\' w) quoted []
      | '\n' :: r => word? fuel w quoted r
      | d :: r =>
        if !quoted || "$\"\\`".toList.contains d then word? fuel (addChar d w) quoted r
        else word? fuel (addChar d (addChar '\\' w)) quoted r
    else if quoted then word? fuel (addChar c w) true rest
    else if c = '\'' then
      match rest.dropWhile (· ≠ '\'') with
      | _ :: behind =>
        word? fuel ((rest.takeWhile (· ≠ '\'')).foldl (fun w d => addChar d w) (addText w)) false
          behind
      | [] => none
    else if endsWord c then some (w, c :: rest)
    else word? fuel (addChar c w) false rest

/-- The redirection of the output `stream` whose sign has been read. -/
def redirection (stream : Nat) : List Char → Token × List Char
  | '&' :: d :: rest =>
    if d.isDigit then (.duplicate stream (d.toNat - 48), rest)
    else (.output stream, '&' :: d :: rest)
  | '>' :: rest => (.output stream, rest)
  | rest => (.output stream, rest)

/-- The tokens of a script; `none` for a quote that is not closed or an operator that is not part of
the language. -/
def tokens? : Nat → List Char → Option (List Token)
  | 0, _ => none
  | _ + 1, [] => some []
  | fuel + 1, c :: rest =>
    let single (t : Token) (r : List Char) := (tokens? fuel r).map (t :: ·)
    match c, rest with
    | ' ', _ => tokens? fuel rest
    | '\t', _ => tokens? fuel rest
    | '\n', _ => single .newline rest
    | ';', _ => single .semicolon rest
    | '#', _ => tokens? fuel (rest.dropWhile (· ≠ '\n'))
    | '&', '&' :: r => single .and r
    | '|', '|' :: r => single .or r
    | '|', _ => single .pipe rest
    | '<', _ => single .input rest
    | '>', _ => let (t, r) := redirection 1 rest; single t r
    | '1', '>' :: r => let (t, r') := redirection 1 r; single t r'
    | '2', '>' :: r => let (t, r') := redirection 2 r; single t r'
    | '\\', '\n' :: r => tokens? fuel r
    | '&', _ => none
    | '(', _ => none
    | ')', _ => none
    | _, _ => do
      let (w, r) ← word? (rest.length + 2) [] false (c :: rest)
      single (.word w) r

/-- A list that is being read: the pipelines that are complete, the one that is not, and the command
at its end. -/
structure Reading where
  steps : List Step := []
  condition : Condition := .always
  pipeline : List Command := []
  command : Command := {}
  line : Nat := 1

namespace Reading

/-- Whether no command has been begun. -/
def idle (r : Reading) : Bool := r.command.words.isEmpty && r.command.redirections.isEmpty

/-- The command at the end joins its pipeline. -/
def endCommand (r : Reading) : Option Reading :=
  if r.idle then none
  else some { r with pipeline := r.pipeline ++ [r.command], command := { line := r.line } }

/-- The pipeline at the end is complete; the next one is run on a condition. -/
def endPipeline (next : Condition) (r : Reading) : Option Reading := do
  let r ← r.endCommand
  some { r with steps := r.steps ++ [⟨r.condition, r.pipeline⟩], pipeline := [], condition := next }

/-- The end of a list of pipelines, where a list may also be empty. -/
def endList (r : Reading) : Option Reading :=
  if r.idle && r.pipeline.isEmpty && r.condition = .always then some r else r.endPipeline .always

/-- The command at the end changed. -/
def grow (f : Command → Command) (r : Reading) : Reading := { r with command := f r.command }

end Reading

/-- Reads tokens into pipelines. -/
def steps? (r : Reading) : List Token → Option (List Step)
  | [] => r.endList.map Reading.steps
  | .word w :: rest => steps? (r.grow fun c => { c with words := c.words ++ [w] }) rest
  | .duplicate s t :: rest =>
    steps? (r.grow fun c => { c with redirections := c.redirections ++ [.duplicate s t] }) rest
  | .output s :: .word w :: rest =>
    steps? (r.grow fun c => { c with redirections := c.redirections ++ [.toFile s w] }) rest
  | .input :: .word w :: rest =>
    steps? (r.grow fun c => { c with redirections := c.redirections ++ [.fromFile w] }) rest
  | .output _ :: _ => none
  | .input :: _ => none
  | .semicolon :: rest => (r.endPipeline .always).bind (steps? · rest)
  | .newline :: rest => do
    let r ← r.endList
    let line := r.line + 1
    steps? { r with line := line, command := { line := line } } rest
  | .and :: rest => (r.endPipeline .afterSuccess).bind (steps? · rest)
  | .or :: rest => (r.endPipeline .afterFailure).bind (steps? · rest)
  | .pipe :: rest => r.endCommand.bind (steps? · rest)

/-- The pipelines of a script. -/
def read? (text : String) : Option (List Step) := do
  let ts ← tokens? (text.toList.length + 1) text.toList
  steps? {} ts

end ParamSweep.Shell
