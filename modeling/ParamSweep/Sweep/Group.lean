import ParamSweep.Error

/-!
Sweep groups: the variables that a plan lets run through values.

A linked group gives each of its values to all of its variables at once, a product group gives its
values to its one variable. `Sweep.ofSpecs` checks the raw entries of a plan.
-/

namespace ParamSweep

/-- An entry of a plan's sweeps, as written. -/
structure GroupSpec where
  kind : String
  var : Option String := none
  vars : Option (List String) := none
  values : List Value := []
  deriving Inhabited

/-- Variables and the values that they take together. -/
inductive SweepGroup where
  | linked (vars : List String) (values : List Value)
  | product (var : String) (values : List Value)
  deriving Inhabited

namespace SweepGroup

/-- The values, in order. -/
def values : SweepGroup → List Value
  | .linked _ values => values
  | .product _ values => values

/-- The names of the variables, in order. -/
def names : SweepGroup → List String
  | .linked vars _ => vars
  | .product var _ => [var]

/-- The group that the entry at position `index` describes, whether or not it has values. -/
def shape (index : Nat) (spec : GroupSpec) : Except Cause SweepGroup :=
  match spec.kind with
  | "linked" =>
    match spec.vars with
    | none => .error (.linkedWithoutVariables index)
    | some vars =>
      if vars.isEmpty || vars.any Text.blankText then
        .error (.linkedWithBlankNames index)
      else .ok (.linked vars spec.values)
  | "product" =>
    match spec.var with
    | some var =>
      if Text.blankText var then .error (.productWithoutVariable index)
      else .ok (.product var spec.values)
    | none => .error (.productWithoutVariable index)
  | kind => .error (.unknownSweepKind index kind)

/-- The group that the entry at position `index` describes. -/
def ofSpec (index : Nat) (spec : GroupSpec) : Except Cause SweepGroup := do
  let group ← shape index spec
  if group.values.isEmpty then .error (.groupWithoutValues index) else .ok group

end SweepGroup

/-- The groups of a plan. -/
structure Sweep where
  groups : List SweepGroup
  deriving Inhabited

namespace Sweep

/-- The groups of the entries from position `index` on. -/
def groupsFrom (index : Nat) : List GroupSpec → Except Cause (List SweepGroup)
  | [] => .ok []
  | spec :: rest => do
    let group ← SweepGroup.ofSpec index spec
    let groups ← groupsFrom (index + 1) rest
    .ok (group :: groups)

/-- The sweep that the entries of a plan describe. -/
def ofSpecs (specs : List GroupSpec) : Except Cause Sweep := do
  let groups ← groupsFrom 0 specs
  .ok ⟨groups⟩

/-- The names of the variables of all groups, in order. -/
def names (s : Sweep) : List String := s.groups.flatMap SweepGroup.names

/-- The number of combinations. -/
def size (s : Sweep) : Nat := (s.groups.map fun g => g.values.length).foldl (· * ·) 1

end Sweep

end ParamSweep
