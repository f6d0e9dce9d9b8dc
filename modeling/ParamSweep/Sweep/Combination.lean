import ParamSweep.Sweep.Group

/-!
The combinations of a sweep: every choice of one value from each group, the first group varying
slowest.

The variables of a combination stand in the order in which they were first set, so that names made
of them are stable; a variable that several groups set has the value of the last one.
-/

namespace ParamSweep

/-- Variables with their values, in the order in which they were first set. -/
structure Combination where
  entries : List (String × Value) := []
  deriving Inhabited

namespace Combination

/-- The entries with `key` set: in its place if it is there, at the end if not. -/
def setEntry (key : String) (value : Value) : List (String × Value) → List (String × Value)
  | [] => [(key, value)]
  | (k, v) :: rest => if k = key then (k, value) :: rest else (k, v) :: setEntry key value rest

/-- The combination with `key` set. -/
def set (key : String) (value : Value) (c : Combination) : Combination :=
  ⟨setEntry key value c.entries⟩

/-- The value of a variable. -/
def get? (key : String) (c : Combination) : Option Value :=
  (c.entries.find? (·.1 == key)).map (·.2)

/-- The variables, in order. -/
def keys (c : Combination) : List String := c.entries.map (·.1)

/-- The number of variables. -/
def size (c : Combination) : Nat := c.entries.length

/-- The combination with everything set that `d` sets. -/
def extend (c d : Combination) : Combination :=
  d.entries.foldl (fun acc p => acc.set p.1 p.2) c

/-- The combination as a table. -/
def toEntries (c : Combination) : Entries Value := Entries.ofList c.entries

end Combination

namespace SweepGroup

/-- The choice of one value for all variables. -/
def choice (vars : List String) (value : Value) : Combination :=
  vars.foldl (fun acc k => acc.set k value) {}

/-- The choices of a group, in the order of its values. -/
def combinations (g : SweepGroup) : List Combination := g.values.map (choice g.names)

end SweepGroup

namespace Sweep

/-- Every combination extended by every choice of a group. -/
def refine (acc : List Combination) (g : SweepGroup) : List Combination :=
  acc.flatMap fun c => g.combinations.map c.extend

/-- The combinations of a sweep. -/
def expand (s : Sweep) : List Combination := s.groups.foldl refine [{}]

end Sweep

end ParamSweep
