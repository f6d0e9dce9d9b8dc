/-!
Structured values: the trees that plans, configuration documents and reports are made of.

A number is an integer or a double, and the two never mix: `64` and `64.0` are different values.
The entries of a mapping are kept in ascending order of their keys, each key once; `Entries.insert`
is the only way in which a mapping grows, and it keeps that order.
-/

namespace ParamSweep

/-- A number of a document. -/
inductive Number where
  | int (n : Int)
  | float (x : Float)
  deriving Inhabited

/-- A tree of scalars, lists and mappings. -/
inductive Value where
  | null
  | bool (b : Bool)
  | num (n : Number)
  | str (s : String)
  | list (items : List Value)
  | mapping (entries : List (String × Value))
  deriving Inhabited

/-- A finite table with text keys, in ascending order of the keys. -/
abbrev Entries (α : Type) := List (String × α)

namespace Entries
variable {α β : Type}

/-- The entry of a key. -/
def find? (key : String) : Entries α → Option α
  | [] => none
  | (k, v) :: rest => if k = key then some v else find? key rest

/-- The table with `key` set to `value`. -/
def insert (key : String) (value : α) : Entries α → Entries α
  | [] => [(key, value)]
  | (k, v) :: rest =>
    if key < k then (key, value) :: (k, v) :: rest
    else if key = k then (key, value) :: rest
    else (k, v) :: insert key value rest

/-- The table without `key`. -/
def erase (key : String) (t : Entries α) : Entries α := t.filter (·.1 ≠ key)

/-- The keys, ascending. -/
def keys (t : Entries α) : List String := t.map (·.1)

/-- The table that holds, of entries with one key, the last one. -/
def ofList (pairs : List (String × α)) : Entries α :=
  pairs.foldl (fun t p => t.insert p.1 p.2) []

/-- Every key of `t` set as `t` has it, over `base`. -/
def union (base t : Entries α) : Entries α := t.foldl (fun acc p => acc.insert p.1 p.2) base

/-- Whether a key is present. -/
def contains (key : String) (t : Entries α) : Bool := (t.find? key).isSome

theorem find?_insert (key other : String) (value : α) (t : Entries α) :
    (t.insert key value).find? other = if key = other then some value else t.find? other := by
  induction t with
  | nil => simp [insert, find?]
  | cons p rest ih =>
    obtain ⟨k, v⟩ := p
    simp only [insert]
    split
    · simp [find?]
    · split
      · next h => subst h; by_cases hk : key = other <;> simp [find?, hk]
      · next h =>
        by_cases hk : k = other
        · subst hk; simp [find?, h]
        · simp [find?, hk, ih]

end Entries

namespace Value

/-- The integer `n`. -/
def int (n : Int) : Value := .num (.int n)

/-- The natural number `n`. -/
def nat (n : Nat) : Value := .num (.int n)

/-- A double; there is no value for what is not finite, so that becomes `null`. -/
def float (x : Float) : Value := if x.isFinite then .num (.float x) else .null

/-- The value, or `null` where there is none. -/
def ofOption {α : Type} (f : α → Value) : Option α → Value
  | some a => f a
  | none => .null

/-- The list of texts. -/
def strings (xs : List String) : Value := .list (xs.map .str)

/-- The mapping with these entries, whatever their order. -/
def record (pairs : List (String × Value)) : Value := .mapping (Entries.ofList pairs)

/-- The mapping in the shape of a table. -/
def asMapping? : Value → Option (Entries Value)
  | .mapping t => some t
  | _ => none

/-- The text, if the value is one. -/
def asText? : Value → Option String
  | .str s => some s
  | _ => none

/-- Whether the value is a mapping. -/
def isMapping : Value → Bool
  | .mapping _ => true
  | _ => false

/-- The entry `key` of a mapping. -/
def get? (key : String) : Value → Option Value
  | .mapping t => Entries.find? key t
  | _ => none

end Value

/-- Numbers agree when they are of one kind and compare equal: both zeros agree, NaN never does. -/
def Number.agrees : Number → Number → Bool
  | .int a, .int b => a == b
  | .float a, .float b => a == b
  | _, _ => false

mutual

/-- Values agree when they have the same shape and their numbers agree. -/
def Value.agrees : Value → Value → Bool
  | .null, .null => true
  | .bool a, .bool b => a == b
  | .num a, .num b => a.agrees b
  | .str a, .str b => a == b
  | .list a, .list b => Value.agreesList a b
  | .mapping a, .mapping b => Value.agreesEntries a b
  | _, _ => false

/-- Item for item. -/
def Value.agreesList : List Value → List Value → Bool
  | [], [] => true
  | a :: as, b :: bs => a.agrees b && Value.agreesList as bs
  | _, _ => false

/-- Entry for entry, keys included. -/
def Value.agreesEntries : List (String × Value) → List (String × Value) → Bool
  | [], [] => true
  | (k, a) :: as, (l, b) :: bs => k == l && a.agrees b && Value.agreesEntries as bs
  | _, _ => false

end

end ParamSweep
