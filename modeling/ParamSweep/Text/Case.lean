import ParamSweep.Text.CaseTable
import ParamSweep.Text.Ranges

/-!
Small and capital letters of all scripts.

A capital sigma at the end of a word has a small form of its own: it is at the end of a word when a
letter stands before it and none behind it, whatever marks lie in between.
-/

namespace ParamSweep.Text

/-- The distance that a table of runs holds for a code point. -/
def shift? (n : Nat) : List (Nat × Nat × Nat × Int) → Option Int
  | [] => none
  | (lo, hi, stride, distance) :: rest =>
    if n < lo then none
    else if n ≤ hi && (n - lo) % stride = 0 then some distance
    else shift? n rest

/-- The code point `n + d` as a character. -/
def shifted (n : Nat) (d : Int) : Char := Char.ofNat ((n : Int) + d).toNat

/-- The small form of a letter. -/
def lowerChar (c : Char) : List Char :=
  if c.toNat < 128 then [c.toLower]
  else if c.toNat = 0x130 then ['i', Char.ofNat 0x307]
  else match shift? c.toNat lowerRuns with
    | some d => [shifted c.toNat d]
    | none => [c]

/-- The capital form of a letter. -/
def upperChar (c : Char) : List Char :=
  if c.toNat < 128 then [c.toUpper]
  else match upperSequences.find? (·.1 == c.toNat) with
    | some (_, ns) => ns.map Char.ofNat
    | none => match shift? c.toNat upperRuns with
      | some d => [shifted c.toNat d]
      | none => [c]

/-- Whether a character is a letter with case. -/
def isCased (c : Char) : Bool := within c.toNat casedRanges

/-- Whether a character is passed over when a sigma looks for its neighbours. -/
def isCaseIgnorable (c : Char) : Bool := within c.toNat caseIgnorableRanges

/-- Whether the first character that counts is a letter with case. -/
def startsCased (cs : List Char) : Bool := (cs.dropWhile isCaseIgnorable).head?.any isCased

/-- The small form of a text whose characters `before`, last one first, have been read. -/
def lowerFrom : List Char → List Char → List Char
  | _, [] => []
  | before, c :: rest =>
    let small :=
      if c = 'Σ' then
        if startsCased before && !startsCased rest then ['ς'] else ['σ']
      else lowerChar c
    small ++ lowerFrom (c :: before) rest

/-- The text in small letters. -/
def lower (s : String) : String := String.ofList (lowerFrom [] s.toList)

/-- The text in capital letters. -/
def upper (s : String) : String := String.ofList (s.toList.flatMap upperChar)

end ParamSweep.Text
