import ParamSweep.Programs.Basic
import ParamSweep.Decimal.Read
import ParamSweep.Digest.Sha256

/-!
The small programs that scripts are made of: they write texts, pass bytes on, change them, take a
part of them or count them.
-/

namespace ParamSweep.Tool

/-- The bytes of a text. -/
def bytes (s : String) : List UInt8 := s.toUTF8.data.toList

/-- A line of a text. -/
def line (s : String) : List UInt8 := bytes s ++ [10]

/-- The end of a program that complains. -/
def complain (code : Nat) (text : String) : Outcome := { ending := .exit code, errors := line text }

/-- The value of a run of octal digits, taken modulo the size of a byte. -/
def octal (ds : List Char) : UInt8 :=
  UInt8.ofNat (ds.foldl (fun n c => 8 * n + (c.toNat - 48)) 0)

/-- Whether a character is an octal digit. -/
def isOctal (c : Char) : Bool := '0' ≤ c && c ≤ '7'

/-- The byte of a letter behind a backslash. -/
def escaped? (c : Char) : Option UInt8 :=
  ("abfnrtv\\".toList.zip [7, 8, 12, 10, 13, 9, 11, 92]).lookup c

/-- The octal digits at the start of a text, at most `most`, and the text behind them. -/
def octalDigits (most : Nat) (cs : List Char) : List Char × List Char :=
  let ds := (cs.take most).takeWhile isOctal
  (ds, cs.drop ds.length)

/-- The bytes of a text in which backslashes have a meaning. `zero` asks octal escapes for a leading
zero. The second part says whether `\c` ended the text. -/
def unescape (zero : Bool) : Nat → List Char → List UInt8 × Bool
  | 0, _ => ([], false)
  | _ + 1, [] => ([], false)
  | fuel + 1, '\\' :: c :: rest =>
    if c = 'c' then ([], true)
    else
      let (ds, behind) := octalDigits 3 (if zero then rest else c :: rest)
      if (zero && c = '0') || (!zero && !ds.isEmpty) then
        let (bs, ended) := unescape zero fuel behind
        (octal ds :: bs, ended)
      else
        let (bs, ended) := unescape zero fuel rest
        match escaped? c with
        | some b => (b :: bs, ended)
        | none => (bytes (String.ofList ['\\', c]) ++ bs, ended)
  | fuel + 1, c :: rest =>
    let (bs, ended) := unescape zero fuel rest
    (bytes (String.singleton c) ++ bs, ended)

/-- Writes the arguments on a line; `plain` leaves backslashes alone. -/
def echo (plain : Bool) (arguments : List String) : Outcome :=
  let (lineEnd, words) := match arguments with
    | "-n" :: rest => (false, rest)
    | words => (true, words)
  let text := (Text.joined " " words).toList
  let (bs, ended) :=
    if plain then (bytes (String.ofList text), false) else unescape true (text.length + 1) text
  { output := bs ++ if lineEnd && !ended then [10] else [] }

/-- Writes a format once: the bytes and the arguments that are left. -/
def formatOnce : Nat → List Char → List String → List UInt8 × List String
  | 0, _, arguments => ([], arguments)
  | _ + 1, [], arguments => ([], arguments)
  | fuel + 1, '%' :: c :: rest, arguments =>
    if c = '%' then
      let (bs, left) := formatOnce fuel rest arguments
      (37 :: bs, left)
    else
      let value := arguments.head?.getD (if c = 'd' then "0" else "")
      let (bs, left) := formatOnce fuel rest (arguments.drop 1)
      let text := if c = 'b' then (unescape true (value.length + 1) value.toList).1 else bytes value
      (text ++ bs, left)
  | fuel + 1, '\\' :: c :: rest, arguments =>
    let (ds, behind) := octalDigits 3 (c :: rest)
    if ds.isEmpty then
      let (bs, left) := formatOnce fuel rest arguments
      match escaped? c with
      | some b => (b :: bs, left)
      | none => (if c = '"' then 34 :: bs else bytes (String.ofList ['\\', c]) ++ bs, left)
    else
      let (bs, left) := formatOnce fuel behind arguments
      (octal ds :: bs, left)
  | fuel + 1, c :: rest, arguments =>
    let (bs, left) := formatOnce fuel rest arguments
    (bytes (String.singleton c) ++ bs, left)

/-- Writes a format again as long as it uses up arguments. -/
def formatAll (format : List Char) : Nat → List String → List UInt8
  | 0, _ => []
  | rounds + 1, arguments =>
    let (bs, left) := formatOnce (format.length + 1) format arguments
    if left.isEmpty || left.length = arguments.length then bs
    else bs ++ formatAll format rounds left

/-- Writes its arguments by a format. -/
def printf : List String → Outcome
  | [] => complain 2 "printf: usage: printf format [arg ...]"
  | format :: arguments =>
    { output := formatAll format.toList (arguments.length + 1) arguments }

/-- Passes on the input and the contents of files. -/
def cat (t : FileTree) (input : List UInt8) : List String → Outcome
  | [] => { output := input }
  | names => names.foldl add {}
where
  /-- What a name adds to the output. -/
  add (o : Outcome) (name : String) : Outcome :=
    if name = "-" then { o with output := o.output ++ input }
    else
      match t.readBytes name with
      | .ok content => { o with output := o.output ++ content.data.toList }
      | .error fault =>
        { o with
          ending := .exit 1,
          errors := o.errors ++ line ("cat: " ++ name ++ ": " ++ plainFault fault) }
  /-- The wording of a fault without its number. -/
  plainFault (fault : FileFault) : String :=
    match Text.splitOnce '(' fault.message.toList with
    | some (before, _) => String.ofList (Text.trimEnd before)
    | none => fault.message

/-- The characters that a set of characters lists, ranges written out. -/
def setChars : Nat → List Char → List Char
  | 0, _ => []
  | _ + 1, [] => []
  | fuel + 1, '\\' :: c :: rest =>
    (match escaped? c with
      | some b => Char.ofNat b.toNat
      | none => c) :: setChars fuel rest
  | fuel + 1, a :: '-' :: b :: rest =>
    if a ≤ b then
      (List.range (b.toNat - a.toNat + 1)).map (fun i => Char.ofNat (a.toNat + i)) ++
        setChars fuel rest
    else a :: setChars fuel ('-' :: b :: rest)
  | fuel + 1, c :: rest => c :: setChars fuel rest

/-- The bytes of a set of characters; the classes of capital and small letters are sets too. -/
def setBytes (text : String) : List UInt8 :=
  let cs := match text with
    | "[:upper:]" => "A-Z".toList
    | "[:lower:]" => "a-z".toList
    | "[:digit:]" => "0-9".toList
    | "[:space:]" => " \t\n\x0b\x0c\r".toList
    | other => other.toList
  bytes (String.ofList (setChars (cs.length + 1) cs))

/-- Changes or takes out bytes. The last byte of the second set stands for all that are missing. -/
def tr (input : List UInt8) : List String → Outcome
  | ["-d", set] =>
    let bs := setBytes set
    { output := input.filter fun b => !bs.contains b }
  | [fromSet, toSet] =>
    let old := setBytes fromSet
    let new := setBytes toSet
    match new.getLast? with
    | none => complain 1 "tr: when not truncating set1, string2 must be non-empty"
    | some last =>
      let pairs := old.zip (new ++ List.replicate (old.length - new.length) last)
      { output := input.map fun b => (pairs.reverse.lookup b).getD b }
  | _ => complain 1 "tr: missing operand"

/-- The number of stretches without blanks. -/
def countWords : Bool → List UInt8 → Nat
  | _, [] => 0
  | inside, b :: rest =>
    if b = 32 || (9 ≤ b && b ≤ 13) then countWords false rest
    else (if inside then 0 else 1) + countWords true rest

/-- Counts lines, words and bytes. A single count stands alone. -/
def wc (input : List UInt8) (arguments : List String) : Outcome :=
  let wanted (letter : Char) : Bool :=
    arguments.any fun a => a.startsWith "-" && a.toList.contains letter
  let all := !(arguments.any (·.startsWith "-"))
  let counts := (if all || wanted 'l' then [input.countP (· == 10)] else []) ++
    (if all || wanted 'w' then [countWords false input] else []) ++
    (if all || wanted 'c' then [input.length] else [])
  match counts with
  | [n] => { output := line (toString n) }
  | counts => { output := line (Text.joined " " (counts.map fun n => Text.padLeft 7 (toString n))) }

/-- The input in lines, each with its line feed. -/
def inLines : List UInt8 → List (List UInt8)
  | [] => []
  | b :: rest =>
    if b = 10 then [10] :: inLines rest
    else match inLines rest with
      | [] => [[b]]
      | l :: ls =>
        (b :: l) :: ls

/-- A count that the arguments of `head` and `tail` ask for, and whether it is one of bytes. -/
def wantedCount : List String → Option (Bool × Nat)
  | ["-n", n] => n.toNat?.map (false, ·)
  | ["-c", n] => n.toNat?.map (true, ·)
  | [a] =>
    match a.toList with
    | '-' :: 'n' :: ds => (String.ofList ds).toNat?.map (false, ·)
    | '-' :: 'c' :: ds => (String.ofList ds).toNat?.map (true, ·)
    | '-' :: ds => (String.ofList ds).toNat?.map (false, ·)
    | _ => none
  | [] => some (false, 10)
  | _ => none

/-- The first lines or bytes of the input. -/
def head (input : List UInt8) (arguments : List String) : Outcome :=
  match wantedCount arguments with
  | some (true, n) => { output := input.take n }
  | some (false, n) => { output := ((inLines input).take n).flatten }
  | none => complain 1 "head: invalid arguments"

/-- The last lines or bytes of the input. -/
def tail (input : List UInt8) (arguments : List String) : Outcome :=
  match wantedCount arguments with
  | some (true, n) => { output := Text.lastOf n input }
  | some (false, n) => { output := (Text.lastOf n (inLines input)).flatten }
  | none => complain 1 "tail: invalid arguments"

/-- The working directory on a line. -/
def workingDir (t : FileTree) : Outcome := { output := line t.workingPath }

/-- The effect of a program of this collection. -/
def run? (t : FileTree) (name : String) (arguments : List String) (input : List UInt8) :
    Option Outcome :=
  match name with
  | "echo" => some (echo true arguments)
  | "printf" => some (printf arguments)
  | "cat" => some (cat t input arguments)
  | "tr" => some (tr input arguments)
  | "wc" => some (wc input arguments)
  | "head" => some (head input arguments)
  | "tail" => some (tail input arguments)
  | "pwd" => some (workingDir t)
  | "true" => some {}
  | "sleep" => some {}
  | "false" => some { ending := .exit 1 }
  | _ => none

/-- Whether a program passes on or uses up its input. -/
def readsInput (name : String) (arguments : List String) : Bool :=
  match name with
  | "cat" => arguments.isEmpty || arguments.contains "-"
  | "tr" => true
  | "wc" => true
  | "head" => true
  | "tail" => true
  | _ => false

end ParamSweep.Tool
