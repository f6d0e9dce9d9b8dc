import ParamSweep.Yaml.Tree
import ParamSweep.Error

/-!
YAML text as a value.

Keys become texts, a node with a tag becomes a mapping with the tag as its one key, and doubles that
are not finite become null. A document without content is an empty mapping.
-/

namespace ParamSweep.Yaml

/-- A key as a text; null and collections are no keys. -/
def Tree.keyText? : Tree → Option String
  | .text s => some s
  | .bool true => some "true"
  | .bool false => some "false"
  | .int n => some (toString n)
  | .float x => if x.isFinite then some (Decimal.Notation.json.write x) else none
  | _ => none

mutual

/-- A tree as a value. -/
def Tree.toValue? : Tree → Option Value
  | .null => some .null
  | .bool b => some (.bool b)
  | .int n => some (.int n)
  | .float x => some (.float x)
  | .text s => some (.str s)
  | .list items => (toValues? items).map .list
  | .mapping pairs => (toEntries? pairs).map fun es => .mapping (Entries.ofList es)
  | .tagged tag content => content.toValue?.map fun v => .mapping [(tagName tag, v)]

/-- The items of a list. -/
def toValues? : List Tree → Option (List Value)
  | [] => some []
  | t :: rest => do
    let v ← t.toValue?
    let vs ← toValues? rest
    some (v :: vs)

/-- The pairs of a mapping, in the order of the text. -/
def toEntries? : List (Tree × Tree) → Option (List (String × Value))
  | [] => some []
  | (k, t) :: rest => do
    let key ← k.keyText?
    let v ← t.toValue?
    let es ← toEntries? rest
    some ((key, v) :: es)

end

/-- Whether a tree is null, with or without tags. -/
def Tree.isNull : Tree → Bool
  | .null => true
  | .tagged _ content => content.isNull
  | _ => false

/-- The tree of a text. -/
def tree? (text : String) : Option Tree := do
  let ts ← tokens text
  match ← Node.ofTokens? ts with
  | none => some .null
  | some n => Tree.ofNode? n

/-- The value of a YAML text; `path` says in errors where the text is from. -/
def read (path text : String) : Except Error Value :=
  match tree? text with
  | none => .error (.invalidYaml path)
  | some t =>
    if t.isNull then .ok (.mapping [])
    else match t.toValue? with
      | some v => .ok v
      | none => .error (.invalidJson .unreadable)

end ParamSweep.Yaml
