import ParamSweep.Value.JsonSkip

/-!
Reading records from JSON text, field by field.

A record is a mapping, or the list of its fields in order. In a mapping a field may stand only once,
and keys that are no field are passed over.
-/

namespace ParamSweep.Json

/-- A field of a record: how its value is taken from the start of a text into what has been read. -/
structure RecordField (σ : Type) where
  name : String
  required : Bool
  take? : σ → List Char → Option (σ × List Char)

/-- A field, by a reader of its value and the way in which the value becomes part of the record. -/
def RecordField.of {σ α : Type} (name : String) (required : Bool)
    (read? : List Char → Option (α × List Char)) (set : α → σ → σ) : RecordField σ :=
  ⟨name, required, fun s cs => (read? cs).map fun (a, rest) => (set a s, rest)⟩

/-- Reads the entries of a record from a key on; `seen` are the fields before it. -/
def recordEntries? {σ : Type} (fields : List (RecordField σ)) :
    Nat → List String → σ → List Char → Option (σ × List String × List Char)
  | 0, _, _, _ => none
  | fuel + 1, seen, s, cs => do
    let (key, rest) ← string? (skip cs)
    match skip rest with
    | ':' :: value =>
      let (s, seen, rest) ← match fields.find? (·.name == key) with
        | some f =>
          if seen.contains key then none
          else (f.take? s (skip value)).map fun (s, rest) => (s, key :: seen, rest)
        | none => (skipFirst? value).map fun rest => (s, seen, rest)
      match skip rest with
      | '\x7d' :: r => some (s, seen, r)
      | ',' :: r => recordEntries? fields fuel seen s r
      | _ => none
    | _ => none

/-- Reads the items of a record that is written as a list, from an item on. -/
def recordItems? {σ : Type} (s : σ) : List (RecordField σ) → List Char →
    Option (σ × List Char)
  | [], _ => none
  | f :: fields, cs => do
    let (s, rest) ← f.take? s (skip cs)
    match skip rest with
    | ']' :: r => if fields.any (·.required) then none else some (s, r)
    | ',' :: r => recordItems? s fields r
    | _ => none

/-- Reads the record that a text starts with. -/
def record? {σ : Type} (fields : List (RecordField σ)) (blank : σ) (cs : List Char) :
    Option (σ × List Char) :=
  match skip cs with
  | '\x7b' :: rest =>
    match skip rest with
    | '\x7d' :: r => if fields.any (·.required) then none else some (blank, r)
    | r => do
      let (s, seen, rest) ← recordEntries? fields (r.length + 1) [] blank r
      if fields.any fun f => f.required && !seen.contains f.name then none else some (s, rest)
  | '[' :: rest =>
    match skip rest with
    | ']' :: r => if fields.any (·.required) then none else some (blank, r)
    | r => recordItems? blank fields r
  | _ => none

/-- Reads items of one kind from an item on, and the closing bracket. -/
def itemsOf? {α : Type} (read? : List Char → Option (α × List Char)) :
    Nat → List Char → Option (List α × List Char)
  | 0, _ => none
  | fuel + 1, cs => do
    let (a, rest) ← read? (skip cs)
    match skip rest with
    | ']' :: r => some ([a], r)
    | ',' :: r => (itemsOf? read? fuel r).map fun (as, rest) => (a :: as, rest)
    | _ => none

/-- Reads the list of items of one kind that a text starts with. -/
def listOf? {α : Type} (read? : List Char → Option (α × List Char)) (cs : List Char) :
    Option (List α × List Char) :=
  match skip cs with
  | '[' :: rest =>
    match skip rest with
    | ']' :: r => some ([], r)
    | r => itemsOf? read? (r.length + 1) r
  | _ => none

/-- Reads the mapping that a text starts with, whose values may nest `depth` levels. -/
def table? (depth : Nat) (cs : List Char) : Option (Entries Value × List Char) :=
  match skip cs with
  | '\x7b' :: rest =>
    match skip rest with
    | '\x7d' :: r => some ([], r)
    | r => (entries? (2 * r.length + 2) depth r).map fun (es, rest) => (Entries.ofList es, rest)
  | _ => none

/-- Reads a text or null. -/
def optionalString? (cs : List Char) : Option (Option String × List Char) :=
  match cs with
  | 'n' :: 'u' :: 'l' :: 'l' :: rest => some (none, rest)
  | cs => (string? cs).map fun (s, rest) => (some s, rest)

end ParamSweep.Json
