import ParamSweep.Text.WordChar
import ParamSweep.Text.Blank
import ParamSweep.Text.Case

/-!
Patterns and what they match.

Matching is by trial from left to right: the leftmost place at which the pattern matches is taken,
of alternatives the first that leads to a match, and a repetition goes as far as it can unless it is
marked as lazy. Groups remember the part of the text that they matched last.
-/

namespace ParamSweep.Pattern

/-- A set of characters. -/
inductive CharSet where
  | range (low high : Char)
  | digit
  | word
  | blank
  | none
  | union (a b : CharSet)
  | inter (a b : CharSet)
  | compl (a : CharSet)
  /-- The set without regard to the case of letters. -/
  | anyCase (a : CharSet)
  deriving DecidableEq, Inhabited

/-- Whether a character belongs to a set. -/
def CharSet.contains : CharSet → Char → Bool
  | .range low high, c => low ≤ c && c ≤ high
  | .digit, c => Text.isDecimalDigit c
  | .word, c => Text.isWordChar c
  | .blank, c => Text.isBlank c
  | .none, _ => false
  | .union a b, c => a.contains c || b.contains c
  | .inter a b, c => a.contains c && b.contains c
  | .compl a, c => !a.contains c
  | .anyCase a, c =>
    a.contains c ||
      (match Text.lowerChar c with
        | [d] => a.contains d
        | _ => false) ||
      (match Text.upperChar c with
        | [d] => a.contains d
        | _ => false)

/-- Places between characters. -/
inductive Edge where
  | textStart
  | textEnd
  | lineStart
  | lineEnd
  | wordBoundary
  | notWordBoundary
  | wordStart
  | wordEnd
  deriving DecidableEq, Inhabited

/-- A pattern. -/
inductive Regex where
  | empty
  | char (set : CharSet)
  | edge (e : Edge)
  | seq (a b : Regex)
  | alt (a b : Regex)
  /-- At least `least` times, and at most `most` times if that is given. -/
  | repeated (greedy : Bool) (least : Nat) (most : Option Nat) (a : Regex)
  | group (index : Nat) (a : Regex)
  deriving DecidableEq, Inhabited

/-- A place in a text: what is behind it and ahead of it, and what the groups have matched. -/
structure Place where
  position : Nat
  previous : Option Char
  rest : List Char
  groups : List (Nat × Nat × Nat) := []

/-- Whether a place is an edge of a kind. -/
def Edge.holds (p : Place) : Edge → Bool
  | .textStart => p.position = 0
  | .textEnd => p.rest.isEmpty
  | .lineStart => p.previous.all (· = '\n')
  | .lineEnd => p.rest.head?.all (· = '\n')
  | .wordBoundary => before != after
  | .notWordBoundary => before == after
  | .wordStart => !before && after
  | .wordEnd => before && !after
where
  /-- A word character behind. -/
  before : Bool := p.previous.any Text.isWordChar
  /-- A word character ahead. -/
  after : Bool := p.rest.head?.any Text.isWordChar

/-- A way to go on from a place. -/
abbrev Next (β : Type) := Place → Option β

/-- Repeats a step up to `limit` times before going on. A round that stays where it is ends the
repetition. -/
def upTo {β : Type} (greedy : Bool) (step : Place → Next β → Option β) :
    Nat → Next β → Place → Option β
  | 0, k, p => k p
  | limit + 1, k, p =>
    let more : Unit → Option β := fun _ => step p fun q =>
      if q.position = p.position then k q else upTo greedy step limit k q
    if greedy then (more ()).orElse fun _ => k p
    else (k p).orElse more

/-- Repeats a step `count` times before going on. -/
def times {β : Type} (step : Place → Next β → Option β) : Nat → Next β → Place → Option β
  | 0, k, p => k p
  | count + 1, k, p => step p fun q => times step count k q

/-- The first way in which a pattern matches at a place so that `k` can go on. -/
def Regex.run {β : Type} : Regex → Place → Next β → Option β
  | .empty, p, k => k p
  | .char set, p, k =>
    match p.rest with
    | c :: rest =>
      if set.contains c then k ⟨p.position + 1, some c, rest, p.groups⟩ else none
    | [] => none
  | .edge e, p, k => if e.holds p then k p else none
  | .seq a b, p, k => a.run p fun q => b.run q k
  | .alt a b, p, k => (a.run p k).orElse fun _ => b.run p k
  | .repeated greedy least most a, p, k =>
    times a.run least
      (fun q => upTo greedy a.run ((most.map (· - least)).getD (q.rest.length + 1)) k q) p
  | .group i a, p, k =>
    a.run p fun q => k { q with groups := (i, p.position, q.position) :: q.groups }

/-- The groups of the first match at a place or behind it. -/
def Regex.searchFrom (r : Regex) : Nat → Option Char → List Char → Option (List (Nat × Nat × Nat))
  | position, previous, rest =>
    (r.run ⟨position, previous, rest, []⟩ fun q => some q.groups).orElse fun _ =>
      match rest with
      | [] => none
      | c :: rest => r.searchFrom (position + 1) (some c) rest

/-- What a group matched, in the first match of a text: `none` where there is no match, and `none`
inside where the group took no part in it. -/
def Regex.capture? (r : Regex) (index : Nat) (text : String) : Option (Option String) :=
  (r.searchFrom 0 none text.toList).map fun groups =>
    (groups.lookup index).map fun (start, stop) =>
      String.ofList ((text.toList.drop start).take (stop - start))

end ParamSweep.Pattern
