import ParamSweep.Pattern.Basic

/-!
Reading patterns.

The pattern language has literals, classes in brackets, groups (numbered, named or bare),
alternatives, repetitions with and without bounds, edges, and flags inside groups. It has neither
back references nor assertions about what surrounds a match. A text that is no pattern gives `none`.
-/

namespace ParamSweep.Pattern

/-- The flags under which a part of a pattern is read. -/
structure Flags where
  ignoreCase : Bool := false
  multiline : Bool := false
  dotAll : Bool := false
  lazy : Bool := false
  spaced : Bool := false

/-- What is left of a pattern, and the number of the last group. -/
structure Source where
  rest : List Char
  groups : Nat
  names : List String := []

/-- One character as a set. -/
def CharSet.single (c : Char) : CharSet := .range c c

/-- A set under the flag that ignores case. -/
def Flags.fold (f : Flags) (s : CharSet) : CharSet := if f.ignoreCase then .anyCase s else s

/-- A natural number. -/
def decimal? (cs : List Char) : Option (Nat × List Char) :=
  let ds := cs.takeWhile Char.isDigit
  if ds.isEmpty || ds.length > 9 then none
  else some (ds.foldl (fun n c => 10 * n + (c.toNat - 48)) 0, cs.dropWhile Char.isDigit)

/-- The value of hexadecimal digits as a character. -/
def hexChar? (ds : List Char) : Option Char := do
  if ds.isEmpty || ds.length > 8 then none
  else
    let n ← ds.foldlM (fun acc c =>
      if '0' ≤ c && c ≤ '9' then some (16 * acc + (c.toNat - 48))
      else if 'a' ≤ c && c ≤ 'f' then some (16 * acc + (c.toNat - 87))
      else if 'A' ≤ c && c ≤ 'F' then some (16 * acc + (c.toNat - 55))
      else none) 0
    if n ≤ 0x10FFFF && !(0xD800 ≤ n && n ≤ 0xDFFF) then some (Char.ofNat n) else none

/-- A character given by `width` hexadecimal digits, or by any number of them in braces. -/
def hexEscape? (width : Nat) (cs : List Char) : Option (Char × List Char) :=
  match cs with
  | '\x7b' :: rest =>
    match rest.dropWhile (· ≠ '\x7d') with
    | _ :: behind => (hexChar? (rest.takeWhile (· ≠ '\x7d'))).map (·, behind)
    | [] => none
  | _ => if cs.length < width then none else (hexChar? (cs.take width)).map (·, cs.drop width)

/-- What an escape stands for. -/
inductive Escape where
  | char (c : Char)
  | set (s : CharSet)
  | edge (e : Edge)

/-- Whether a character may follow a backslash to stand for itself. -/
def isEscapable (c : Char) : Bool := c.toNat < 128 && !c.isAlphanum

/-- The escape behind a backslash. -/
def escape? : List Char → Option (Escape × List Char)
  | [] => none
  | c :: rest =>
    match c with
    | 'a' => some (.char '\x07', rest)
    | 'f' => some (.char '\x0c', rest)
    | 't' => some (.char '\t', rest)
    | 'n' => some (.char '\n', rest)
    | 'r' => some (.char '\r', rest)
    | 'v' => some (.char '\x0b', rest)
    | 'd' => some (.set .digit, rest)
    | 'D' => some (.set (.compl .digit), rest)
    | 's' => some (.set .blank, rest)
    | 'S' => some (.set (.compl .blank), rest)
    | 'w' => some (.set .word, rest)
    | 'W' => some (.set (.compl .word), rest)
    | 'A' => some (.edge .textStart, rest)
    | 'z' => some (.edge .textEnd, rest)
    | 'b' => some (.edge .wordBoundary, rest)
    | 'B' => some (.edge .notWordBoundary, rest)
    | '<' => some (.edge .wordStart, rest)
    | '>' => some (.edge .wordEnd, rest)
    | 'x' => (hexEscape? 2 rest).map fun (d, r) => (.char d, r)
    | 'u' => (hexEscape? 4 rest).map fun (d, r) => (.char d, r)
    | 'U' => (hexEscape? 8 rest).map fun (d, r) => (.char d, r)
    | _ => if isEscapable c then some (.char c, rest) else none

/-- The union of ranges of characters. -/
def ranges (rs : List (Char × Char)) : CharSet :=
  rs.foldl (fun acc r => .union acc (.range r.1 r.2)) .none

/-- The classes of characters that have names inside brackets. -/
def namedClass? (name : String) : Option CharSet :=
  match name with
  | "alnum" => some (ranges [('0', '9'), ('A', 'Z'), ('a', 'z')])
  | "alpha" => some (ranges [('A', 'Z'), ('a', 'z')])
  | "ascii" => some (ranges [('\x00', '\x7f')])
  | "blank" => some (ranges [('\t', '\t'), (' ', ' ')])
  | "cntrl" => some (ranges [('\x00', '\x1f'), ('\x7f', '\x7f')])
  | "digit" => some (ranges [('0', '9')])
  | "graph" => some (ranges [('!', '~')])
  | "lower" => some (ranges [('a', 'z')])
  | "print" => some (ranges [(' ', '~')])
  | "punct" => some (ranges [('!', '/'), (':', '@'), ('[', '\x60'), ('\x7b', '~')])
  | "space" => some (ranges [('\t', '\r'), (' ', ' ')])
  | "upper" => some (ranges [('A', 'Z')])
  | "word" => some (ranges [('0', '9'), ('A', 'Z'), ('a', 'z'), ('_', '_')])
  | "xdigit" => some (ranges [('0', '9'), ('A', 'F'), ('a', 'f')])
  | _ => none

/-- A named class, given by what follows its opening bracket and colon. -/
def namedClassHere? (cs : List Char) : Option (CharSet × List Char) :=
  let (negated, cs) := match cs with
    | '^' :: rest => (true, rest)
    | cs => (false, cs)
  match cs.dropWhile Char.isAlpha with
  | ':' :: ']' :: rest =>
    (namedClass? (String.ofList (cs.takeWhile Char.isAlpha))).map fun s =>
      (if negated then .compl s else s, rest)
  | _ => none

/-- One item of a class: a character, or a set. -/
def classItem? : List Char → Option ((Char ⊕ CharSet) × List Char)
  | '\\' :: rest =>
    match escape? rest with
    | some (.char c, r) => some (.inl c, r)
    | some (.set s, r) => some (.inr s, r)
    | _ => none
  | c :: rest => some (.inl c, rest)
  | [] => none

/-- The ways in which two halves of a class are put together. -/
inductive SetOp where
  | inter
  | diff
  | symDiff

/-- Puts two sets together. -/
def SetOp.apply (a b : CharSet) : SetOp → CharSet
  | .inter => .inter a b
  | .diff => .inter a (.compl b)
  | .symDiff => .union (.inter a (.compl b)) (.inter b (.compl a))

/-- The items of a class up to its closing bracket; `acc` is what has been read, `pending` the half
before an operator. -/
def classItems? (f : Flags) :
    Nat → Option (CharSet × SetOp) → CharSet → List Char → Option (CharSet × List Char)
  | 0, _, _, _ => none
  | fuel + 1, pending, acc, cs =>
    let finish (s : CharSet) : CharSet := match pending with
      | some (a, op) => op.apply a s
      | none => s
    match cs with
    | [] => none
    | ']' :: rest => some (finish acc, rest)
    | '&' :: '&' :: rest => classItems? f fuel (some (finish acc, .inter)) .none rest
    | '-' :: '-' :: rest => classItems? f fuel (some (finish acc, .diff)) .none rest
    | '~' :: '~' :: rest => classItems? f fuel (some (finish acc, .symDiff)) .none rest
    | '[' :: rest =>
      match (match rest with
        | ':' :: named => namedClassHere? named
        | _ => none) with
      | some (s, rest') => classItems? f fuel pending (.union acc s) rest'
      | none => do
        let (s, rest') ← classOpen? f fuel rest
        classItems? f fuel pending (.union acc s) rest'
    | _ => do
      let (item, rest) ← classItem? cs
      match rest with
      | '-' :: c :: rest' =>
        if c = ']' || c = '-' then
          let s : CharSet := match item with
            | .inl a => .single a
            | .inr s => s
          classItems? f fuel pending (.union acc s) rest
        else do
          let (upper, rest'') ← classItem? (c :: rest')
          match item, upper with
          | .inl a, .inl b =>
            if b < a then none else classItems? f fuel pending (.union acc (.range a b)) rest''
          | _, _ => none
      | _ =>
        let s : CharSet := match item with
          | .inl a => .single a
          | .inr s => s
        classItems? f fuel pending (.union acc s) rest
where
  /-- A class behind its opening bracket. Dashes, and then a bracket, stand for themselves at its
  start. -/
  classOpen? (f : Flags) : Nat → List Char → Option (CharSet × List Char)
    | 0, _ => none
    | fuel + 1, cs =>
      let (negated, cs) := match cs with
        | '^' :: rest => (true, rest)
        | cs => (false, cs)
      let dashes := cs.takeWhile (· = '-')
      let cs := cs.drop dashes.length
      let acc : CharSet := if dashes.isEmpty then .none else .single '-'
      let (acc, cs) := match dashes, cs with
        | [], ']' :: rest => (CharSet.union acc (.single ']'), rest)
        | _, cs => (acc, cs)
      (classItems? f fuel none acc cs).map fun (s, rest) =>
        (if negated then .compl (f.fold s) else f.fold s, rest)

/-- The bounds of a repetition behind its opening brace. -/
def bounds? (cs : List Char) : Option (Nat × Option Nat × List Char) := do
  let cs := Text.trimStart cs
  match decimal? cs with
  | some (least, rest) =>
    match Text.trimStart rest with
    | '\x7d' :: rest => some (least, some least, rest)
    | ',' :: rest =>
      match Text.trimStart rest with
      | '\x7d' :: rest => some (least, none, rest)
      | rest =>
        let (most, rest) ← decimal? rest
        match Text.trimStart rest with
        | '\x7d' :: rest => if most < least then none else some (least, some most, rest)
        | _ => none
    | _ => none
  | none =>
    match cs with
    | ',' :: rest =>
      let (most, rest) ← decimal? (Text.trimStart rest)
      match Text.trimStart rest with
      | '\x7d' :: rest => some (0, some most, rest)
      | _ => none
    | _ => none

/-- The flags between `(?` and the colon or bracket behind them. -/
def flags? (f : Flags) : Nat → Bool → Bool → List Char → Option (Flags × List Char)
  | 0, _, _, _ => none
  | fuel + 1, negated, any, cs =>
    match cs with
    | ')' :: _ => if any then some (f, cs) else none
    | ':' :: _ => if negated && !any then none else some (f, cs)
    | '-' :: rest => if negated then none else flags? f fuel true false rest
    | 'i' :: rest => flags? { f with ignoreCase := !negated } fuel negated true rest
    | 'm' :: rest => flags? { f with multiline := !negated } fuel negated true rest
    | 's' :: rest => flags? { f with dotAll := !negated } fuel negated true rest
    | 'U' :: rest => flags? { f with lazy := !negated } fuel negated true rest
    | 'x' :: rest => flags? { f with spaced := !negated } fuel negated true rest
    | 'u' :: rest => if negated then none else flags? f fuel negated true rest
    | 'R' :: rest => flags? f fuel negated true rest
    | _ => none

/-- The name of a group behind its opening angle bracket. -/
def groupName? (cs : List Char) : Option (String × List Char) :=
  match cs.dropWhile (· ≠ '>') with
  | [] => none
  | _ :: rest =>
    match cs.takeWhile (· ≠ '>') with
    | [] => none
    | c :: name =>
      let starts := c = '_' || (Text.isWordChar c && !Text.isDecimalDigit c)
      if starts && name.all fun d => Text.isWordChar d || d = '.' || d = '[' || d = ']' then
        some (String.ofList (c :: name), rest)
      else none

/-- The repetitions behind an item. -/
def repetitions? (f : Flags) : Nat → Regex → List Char → Option (Regex × List Char)
  | 0, r, cs => some (r, cs)
  | fuel + 1, r, cs =>
    let wrap (least : Nat) (most : Option Nat) (rest : List Char) : Option (Regex × List Char) :=
      let (marked, rest) := match rest with
        | '?' :: rest => (true, rest)
        | rest => (false, rest)
      repetitions? f fuel (.repeated (marked == f.lazy) least most r) rest
    match cs with
    | '*' :: rest => wrap 0 none rest
    | '+' :: rest => wrap 1 none rest
    | '?' :: rest => wrap 0 (some 1) rest
    | '\x7b' :: rest => do
      let (least, most, rest) ← bounds? rest
      wrap least most rest
    | _ => some (r, cs)

/-- The text behind blanks and comments, where the flag says that they do not count. -/
def skipSpaced (f : Flags) : Nat → List Char → List Char
  | 0, cs => cs
  | fuel + 1, cs =>
    if !f.spaced then cs
    else match cs with
      | '#' :: rest => skipSpaced f fuel (rest.dropWhile (· ≠ '\n'))
      | c :: rest => if Text.isBlank c then skipSpaced f fuel rest else cs
      | [] => []

mutual

/-- Alternatives up to a closing bracket or the end. -/
def alternatives? (fuel : Nat) (f : Flags) (s : Source) : Option (Regex × Source) :=
  match fuel with
  | 0 => none
  | fuel + 1 => do
    let (a, f, s) ← sequence? fuel f .empty s
    match s.rest with
    | '|' :: rest =>
      let (b, s) ← alternatives? fuel f { s with rest := rest }
      some (.alt a b, s)
    | _ => some (a, s)

/-- Items one after the other; flags may change on the way. -/
def sequence? (fuel : Nat) (f : Flags) (acc : Regex) (s : Source) :
    Option (Regex × Flags × Source) :=
  match fuel with
  | 0 => none
  | fuel + 1 =>
    let cs := skipSpaced f (s.rest.length + 1) s.rest
    let item (r : Regex) (s : Source) : Option (Regex × Flags × Source) := do
      let (r, rest) ← repetitions? f (s.rest.length + 1) r (skipSpaced f (s.rest.length + 1) s.rest)
      sequence? fuel f (.seq acc r) { s with rest := rest }
    match cs with
    | [] => some (acc, f, { s with rest := [] })
    | ')' :: _ => some (acc, f, { s with rest := cs })
    | '|' :: _ => some (acc, f, { s with rest := cs })
    | '*' :: _ => none
    | '+' :: _ => none
    | '?' :: _ => none
    | '\x7b' :: _ => none
    | '(' :: '?' :: 'P' :: '<' :: rest => named fuel f acc s rest
    | '(' :: '?' :: '<' :: rest => named fuel f acc s rest
    | '(' :: '?' :: rest => do
      let (g, rest) ← flags? f (rest.length + 1) false false rest
      match rest with
      | ')' :: rest => sequence? fuel g acc { s with rest := rest }
      | _ :: rest => do
        let (r, s) ← alternatives? fuel g { s with rest := rest }
        match s.rest with
        | ')' :: rest => item r { s with rest := rest }
        | _ => none
      | [] => none
    | '(' :: rest => do
      let index := s.groups + 1
      let (r, s) ← alternatives? fuel f { s with rest := rest, groups := index }
      match s.rest with
      | ')' :: rest => item (.group index r) { s with rest := rest }
      | _ => none
    | '[' :: rest => do
      let (set, rest) ← classItems?.classOpen? f (2 * rest.length + 2) rest
      item (.char set) { s with rest := rest }
    | '.' :: rest =>
      let set : CharSet := if f.dotAll then .compl .none else .compl (.single '\n')
      item (.char set) { s with rest := rest }
    | '^' :: rest =>
      item (.edge (if f.multiline then .lineStart else .textStart)) { s with rest := rest }
    | '$' :: rest =>
      item (.edge (if f.multiline then .lineEnd else .textEnd)) { s with rest := rest }
    | '\\' :: rest => do
      match ← escape? rest with
      | (.char c, rest) => item (.char (f.fold (.single c))) { s with rest := rest }
      | (.set set, rest) => item (.char (f.fold set)) { s with rest := rest }
      | (.edge e, rest) => item (.edge e) { s with rest := rest }
    | c :: rest => item (.char (f.fold (.single c))) { s with rest := rest }

/-- A named group, given by what follows its opening angle bracket. -/
def named (fuel : Nat) (f : Flags) (acc : Regex) (s : Source) (cs : List Char) :
    Option (Regex × Flags × Source) :=
  match fuel with
  | 0 => none
  | fuel + 1 => do
    let (name, rest) ← groupName? cs
    if s.names.contains name then none
    else
      let index := s.groups + 1
      let (r, s) ←
        alternatives? fuel f { s with rest := rest, groups := index, names := name :: s.names }
      match s.rest with
      | ')' :: rest => do
        let (r, rest) ← repetitions? f (rest.length + 1) (.group index r)
          (skipSpaced f (rest.length + 1) rest)
        sequence? fuel f (.seq acc r) { s with rest := rest }
      | _ => none

end

/-- The pattern that a text describes, and the number of its groups. -/
def read? (text : String) : Option (Regex × Nat) := do
  let cs := text.toList
  let (r, s) ← alternatives? (4 * cs.length + 4) {} ⟨cs, 0, []⟩
  if s.rest.isEmpty then some (r, s.groups) else none

end ParamSweep.Pattern
