import ParamSweep.Error

/-!
Reading values into structures.

A structure is described by its fields: their names, whether they have to be there, and how each is
taken into the structure. It is written as a mapping, or as a list of its fields in order. The keys
of a mapping are visited in ascending order and the first wrong one is reported; fields that are
missing are reported after that.
-/

namespace ParamSweep.Shape

/-- A reader of values. -/
abbrev Reader (α : Type) := Value → Except ShapeFault α

/-- A field of a structure. -/
structure Field (σ : Type) where
  name : String
  required : Bool
  take : Value → σ → Except ShapeFault σ

/-- A field with a default. -/
def optional {σ α : Type} (name : String) (read : Reader α) (set : α → σ → σ) : Field σ :=
  ⟨name, false, fun v s => (read v).map fun a => set a s⟩

/-- A field that has to be there. -/
def required {σ α : Type} (name : String) (read : Reader α) (set : α → σ → σ) : Field σ :=
  ⟨name, true, fun v s => (read v).map fun a => set a s⟩

/-- Takes the entries of a mapping into a structure. -/
def takeEntries {σ : Type} (fields : List (Field σ)) (s : σ) :
    List (String × Value) → Except ShapeFault σ
  | [] => .ok s
  | (k, v) :: rest =>
    match fields.find? (·.name == k) with
    | none => .error (.unknownField k)
    | some f => do
      let s ← f.take v s
      takeEntries fields s rest

/-- Takes the items of a list into a structure, one for each field. -/
def takeItems {σ : Type} (s : σ) : List (Field σ) → List Value → Except ShapeFault σ
  | [], [] => .ok s
  | [], _ :: _ => .error .invalidLength
  | fields, [] => if fields.any (·.required) then .error .invalidLength else .ok s
  | f :: fields, v :: rest => do
    let s ← f.take v s
    takeItems s fields rest

/-- A structure, over its defaults. -/
def structured {σ : Type} (defaults : σ) (fields : List (Field σ)) : Reader σ
  | .mapping entries => do
    let s ← takeEntries fields defaults entries
    match fields.find? fun f => f.required && !Entries.contains f.name entries with
    | some f => .error (.missingField f.name)
    | none => .ok s
  | .list items => takeItems defaults fields items
  | _ => .error .invalidType

/-- Any value. -/
def anything : Reader Value := .ok

/-- A text. -/
def text : Reader String
  | .str s => .ok s
  | _ => .error .invalidType

/-- A truth value. -/
def truth : Reader Bool
  | .bool b => .ok b
  | _ => .error .invalidType

/-- A natural number. -/
def natural : Reader Nat
  | .num (.int n) => if n < 0 then .error .invalidValue else .ok n.toNat
  | _ => .error .invalidType

/-- A double; an integer counts as one. -/
def double : Reader Float
  | .num (.int n) => .ok (Float.ofInt n)
  | .num (.float x) => .ok x
  | _ => .error .invalidType

/-- A value or null. -/
def nullable {α : Type} (read : Reader α) : Reader (Option α)
  | .null => .ok none
  | v => (read v).map some

/-- A list. -/
def listOf {α : Type} (read : Reader α) : Reader (List α)
  | .list items => items.mapM read
  | _ => .error .invalidType

/-- The values of a table, read one by one. -/
def readEntries {α : Type} (read : Reader α) :
    List (String × Value) → Except ShapeFault (Entries α)
  | [] => .ok []
  | (k, v) :: rest => do
    let a ← read v
    let t ← readEntries read rest
    .ok ((k, a) :: t)

/-- A mapping with values of one kind. -/
def tableOf {α : Type} (read : Reader α) : Reader (Entries α)
  | .mapping entries => readEntries read entries
  | _ => .error .invalidType

end ParamSweep.Shape
