import ParamSweep.Yaml.Node
import ParamSweep.Decimal.Read

/-!
What a YAML document means: aliases replaced by what they stand for, and plain scalars read as
numbers, truth values and nulls.

A plain scalar is null (`~`, `null`), a truth value, an integer (decimal, or with `0x`, `0o`, `0b`),
a decimal, or else a text; digits behind a leading zero are a text. A tag of the language forces
the reading of a scalar; any other tag that starts with an exclamation mark stays on its node.

Anchors are numbered as they are met, a number being the count of names in use: a name that is
declared a second time leaves its old number free, which the next new name takes over.
-/

namespace ParamSweep.Yaml

/-- The meaning of a node. -/
inductive Tree where
  | null
  | bool (b : Bool)
  | int (n : Int)
  | float (x : Float)
  | text (s : String)
  | list (items : List Tree)
  | mapping (pairs : List (Tree × Tree))
  | tagged (tag : String) (content : Tree)
  deriving Inhabited

mutual

/-- Whether two trees are the same key. NaN is the same as itself. -/
def Tree.same : Tree → Tree → Bool
  | .null, .null => true
  | .bool a, .bool b => a == b
  | .int a, .int b => a == b
  | .float a, .float b => a == b || (a.isNaN && b.isNaN)
  | .text a, .text b => a == b
  | .list a, .list b => Tree.sameList a b
  | .mapping a, .mapping b => Tree.samePairs a b
  | .tagged s a, .tagged t b => s == t && a.same b
  | _, _ => false

/-- Item for item. -/
def Tree.sameList : List Tree → List Tree → Bool
  | [], [] => true
  | a :: as, b :: bs => a.same b && Tree.sameList as bs
  | _, _ => false

/-- Pair for pair. -/
def Tree.samePairs : List (Tree × Tree) → List (Tree × Tree) → Bool
  | [], [] => true
  | (k, a) :: as, (l, b) :: bs => k.same l && a.same b && Tree.samePairs as bs
  | _, _ => false

end

/-! ### Plain scalars -/

/-- The digits of a number in some base, behind an optional minus sign. -/
def digitsValue? (base : Nat) (cs : List Char) : Option Nat :=
  if cs.isEmpty then none
  else cs.foldlM (fun acc c => (hexDigit? c).bind fun d =>
    if d < base then some (base * acc + d) else none) 0

/-- Text after a sign that starts with another one. -/
def startsSigned (cs : List Char) : Bool := cs.head?.any fun c => c = '+' || c = '-'

/-- Digits behind a leading zero. -/
def paddedDigits (cs : List Char) : Bool :=
  let cs := if startsSigned cs then cs.tail else cs
  decide (1 < cs.length) && cs.head? = some '0' && cs.tail.all Char.isDigit

/-- The integer behind a base mark. -/
def based? (cs : List Char) : Option Nat :=
  match cs with
  | '0' :: 'x' :: rest => digitsValue? 16 rest
  | '0' :: 'o' :: rest => digitsValue? 8 rest
  | '0' :: 'b' :: rest => digitsValue? 2 rest
  | _ => none

/-- The integer that a scalar denotes. -/
def integer? (cs : List Char) : Option Int :=
  let plain (digits : List Char) : Option Nat :=
    if paddedDigits cs then none else digitsValue? 10 digits
  match cs with
  | '-' :: rest => ((based? rest).orElse fun _ => plain rest).map fun n => -(n : Int)
  | '+' :: rest => ((based? rest).orElse fun _ => plain rest).map fun n => (n : Int)
  | rest => ((based? rest).orElse fun _ => plain rest).map fun n => (n : Int)

/-- How an integer is taken. -/
inductive IntegerRange where
  /-- It has 64 bits. -/
  | fits
  /-- It has more than 64 bits and no more than 128, which is refused. -/
  | refused
  /-- It is no integer at all. -/
  | beyond
  deriving DecidableEq

/-- How an integer is taken. -/
def integerRange (n : Int) : IntegerRange :=
  if -0x8000000000000000 ≤ n ∧ n < 0x10000000000000000 then .fits
  else if n < -0x80000000000000000000000000000000 then .beyond
  else if n < 0x100000000000000000000000000000000 then .refused
  else .beyond

/-- A decimal with an optional minus sign. -/
def signedDecimal? (cs : List Char) : Option Float :=
  match cs with
  | '-' :: rest => (Decimal.read? rest).map (- ·)
  | rest => Decimal.read? rest

/-- The double that a scalar denotes. Decimals beyond the range of doubles are none. -/
def float? (cs : List Char) : Option Float :=
  let s := String.ofList cs
  let unsigned := if cs.head? = some '+' then cs.tail else cs
  if cs.head? = some '+' && startsSigned unsigned then none
  else if [".inf", ".Inf", ".INF"].contains (String.ofList unsigned) then some (1 / 0)
  else if ["-.inf", "-.Inf", "-.INF"].contains s then some (-1 / 0)
  else if [".nan", ".NaN", ".NAN"].contains s then some (0 / 0)
  else (signedDecimal? unsigned).filter Float.isFinite

/-- The truth value that a scalar denotes. -/
def bool? (s : String) : Option Bool :=
  if ["true", "True", "TRUE"].contains s then some true
  else if ["false", "False", "FALSE"].contains s then some false
  else none

/-- Whether a scalar denotes null. -/
def isNull (s : String) : Bool := ["null", "Null", "NULL", "~"].contains s

/-- What an integer means as a scalar; `none` inside where it is not taken as one. -/
def integerTree? (cs : List Char) : Option (Option Tree) :=
  match integer? cs with
  | none => some none
  | some n =>
    match integerRange n with
    | .fits => some (some (.int n))
    | .refused => none
    | .beyond => some none

/-- What a plain scalar without a tag means. -/
def plainTree (s : String) : Option Tree :=
  let cs := s.toList
  if cs.isEmpty || isNull s then some .null
  else match bool? s with
    | some b => some (.bool b)
    | none => do
      match ← integerTree? cs with
      | some t => some t
      | none =>
        if paddedDigits cs then some (.text s)
        else match float? cs with
          | some x => some (.float x)
          | none => some (.text s)

/-- The name space of the tags of the language. -/
def coreTag (name : String) : String := "tag:yaml.org,2002:" ++ name

/-- What a scalar means, given its tag, if that is one of the language. -/
def scalarTree (tag : Option String) (plain : Bool) (s : String) : Option Tree :=
  let cs := s.toList
  match tag with
  | some t =>
    if t = coreTag "bool" then (bool? s).map .bool
    else if t = coreTag "int" then (integerTree? cs).bind id
    else if t = coreTag "float" then (float? cs).map .float
    else if t = coreTag "null" then (if isNull s then some .null else none)
    else some (.text s)
  | none => if plain then plainTree s else some (.text s)

/-! ### Anchors -/

/-- The names of anchors with their numbers. -/
abbrev Anchors := List (String × Nat)

/-- A node whose anchors and aliases are numbers. -/
inductive Linked where
  | alias (target : Nat)
  | scalar (anchor : Option Nat) (tag : Option String) (plain : Bool) (text : String)
  | sequence (anchor : Option Nat) (tag : Option String) (items : List Linked)
  | mapping (anchor : Option Nat) (tag : Option String) (pairs : List (Linked × Linked))
  deriving Inhabited

/-- Declares an anchor: its number, and the names in use. -/
def declare (anchors : Anchors) : Option String → Option Nat × Anchors
  | none => (none, anchors)
  | some name =>
    let n := anchors.length
    (some n, (name, n) :: anchors.filter (·.1 ≠ name))

mutual

/-- Numbers the anchors and aliases of a node, in the order of the text. -/
def link (anchors : Anchors) : Node → Option (Linked × Anchors)
  | .alias name => (anchors.lookup name).map fun n => (.alias n, anchors)
  | .scalar p plain text =>
    let (a, anchors) := declare anchors p.anchor
    some (.scalar a p.tag plain text, anchors)
  | .sequence p items =>
    let (a, anchors) := declare anchors p.anchor
    (linkItems anchors items).map fun (items, anchors) => (.sequence a p.tag items, anchors)
  | .mapping p pairs =>
    let (a, anchors) := declare anchors p.anchor
    (linkPairs anchors pairs).map fun (pairs, anchors) => (.mapping a p.tag pairs, anchors)

/-- The same for the items of a sequence. -/
def linkItems (anchors : Anchors) : List Node → Option (List Linked × Anchors)
  | [] => some ([], anchors)
  | n :: rest => do
    let (n, anchors) ← link anchors n
    let (rest, anchors) ← linkItems anchors rest
    some (n :: rest, anchors)

/-- The same for the pairs of a mapping. -/
def linkPairs (anchors : Anchors) : List (Node × Node) → Option (List (Linked × Linked) × Anchors)
  | [] => some ([], anchors)
  | (k, v) :: rest => do
    let (k, anchors) ← link anchors k
    let (v, anchors) ← link anchors v
    let (rest, anchors) ← linkPairs anchors rest
    some ((k, v) :: rest, anchors)

end

/-- A node with its number, if it has one. -/
def numbered (a : Option Nat) (n : Linked) : List (Nat × Linked) := (a.map (·, n)).toList

mutual

/-- The numbered nodes inside a node, in the order of the text. -/
def Linked.targets : Linked → List (Nat × Linked)
  | .alias _ => []
  | .scalar a tag plain text => numbered a (.scalar a tag plain text)
  | .sequence a tag items => numbered a (.sequence a tag items) ++ Linked.targetsList items
  | .mapping a tag pairs => numbered a (.mapping a tag pairs) ++ Linked.targetsPairs pairs

/-- The same for several nodes. -/
def Linked.targetsList : List Linked → List (Nat × Linked)
  | [] => []
  | n :: rest => n.targets ++ Linked.targetsList rest

/-- The same for several pairs. -/
def Linked.targetsPairs : List (Linked × Linked) → List (Nat × Linked)
  | [] => []
  | (k, v) :: rest => k.targets ++ v.targets ++ Linked.targetsPairs rest

end

mutual

/-- The size of a node: scalars and aliases count once, collections twice. -/
def Linked.weight : Linked → Nat
  | .alias _ => 1
  | .scalar _ _ _ _ => 1
  | .sequence _ _ items => 2 + Linked.weightList items
  | .mapping _ _ pairs => 2 + Linked.weightPairs pairs

/-- The same for several nodes. -/
def Linked.weightList : List Linked → Nat
  | [] => 0
  | n :: rest => n.weight + Linked.weightList rest

/-- The same for several pairs. -/
def Linked.weightPairs : List (Linked × Linked) → Nat
  | [] => 0
  | (k, v) :: rest => k.weight + v.weight + Linked.weightPairs rest

end

/-- The nodes that aliases stand for. Of two nodes with one number the later one counts. -/
def targetOf? (targets : List (Nat × Linked)) (n : Nat) : Option Linked :=
  (targets.reverse.find? (·.1 == n)).map (·.2)

/-- The nesting that is read. -/
def maxNesting : Nat := 128

/-- The tag that stays on a node; the tag may not be empty. -/
def localTag? (tag : Option String) : Option (Option String) :=
  match tag with
  | none => some none
  | some t =>
    match t.toList with
    | ['!'] => none
    | '!' :: rest => some (some (String.ofList rest))
    | _ => some none

/-- A tag as it is written in front of its node. -/
def tagName (tag : String) : String :=
  match tag.toList with
  | '!' :: c :: rest => String.ofList ('!' :: c :: rest)
  | cs => String.ofList ('!' :: cs)

/-- Puts a tag on a tree. -/
def withTag (tag : Option String) (t : Tree) : Tree :=
  match tag with
  | some s => .tagged s t
  | none => t

/-- The meaning of a node. `jumps` counts the aliases that may still be followed, `Nat` the levels
of nesting that may still be entered. -/
def meaning (targets : List (Nat × Linked)) : Nat → Nat → Linked → Option (Tree × Nat)
  | depth, jumps, n => do
    let (n, jumps) ←
      match n with
      | .alias k =>
        match jumps with
        | 0 => none
        | jumps + 1 => (targetOf? targets k).map (·, jumps)
      | n => some (n, jumps)
    match n with
    | .alias _ => none
    | .scalar _ tag plain text => do
      match ← localTag? tag with
      | some t => (scalarTree none plain text).map fun v => (.tagged t v, jumps)
      | none => (scalarTree tag plain text).map (·, jumps)
    | .sequence _ tag items => do
      let tag ← localTag? tag
      match depth with
      | 0 => none
      | depth + 1 =>
        let (items, jumps) ← items.foldlM (fun (acc, jumps) item => do
          let (v, jumps) ← meaning targets depth jumps item
          some (v :: acc, jumps)) ([], jumps)
        some (withTag tag (.list items.reverse), jumps)
    | .mapping _ tag pairs => do
      let tag ← localTag? tag
      match depth with
      | 0 => none
      | depth + 1 =>
        let (pairs, jumps) ← pairs.foldlM (fun (acc, jumps) pair => do
          let (k, jumps) ← meaning targets depth jumps pair.1
          if acc.any fun (p : Tree × Tree) => p.1.same k then none
          else
            let (v, jumps) ← meaning targets depth jumps pair.2
            some ((k, v) :: acc, jumps)) ([], jumps)
        some (withTag tag (.mapping pairs.reverse), jumps)

/-- How many aliases may be followed for each unit of a document's size. -/
def jumpsPerUnit : Nat := 100

/-- The meaning of a document. -/
def Tree.ofNode? (n : Node) : Option Tree := do
  let (linked, _) ← link [] n
  let (t, _) ← meaning linked.targets maxNesting (jumpsPerUnit * linked.weight) linked
  some t

end ParamSweep.Yaml
