import ParamSweep.Error

/-!
Laying one tree over another.

Where both trees have a mapping, they are merged key by key; anywhere else the overlay's value
takes the place of what was there, lists included. Trees are merged down to `maxMergeDepth` levels
below the root. A merge that meets a deeper overlay stops there and leaves behind what it has
changed so far.
-/

namespace ParamSweep

/-- The number of levels below the root that an overlay may have. -/
def maxMergeDepth : Nat := 64

mutual

/-- Whether no node of a value that lies at level `depth` is deeper than `maxMergeDepth`. -/
def Value.shallow (depth : Nat) : Value → Bool
  | .list items => decide (depth ≤ maxMergeDepth) && Value.shallowList (depth + 1) items
  | .mapping entries => decide (depth ≤ maxMergeDepth) && Value.shallowEntries (depth + 1) entries
  | _ => decide (depth ≤ maxMergeDepth)

/-- The same for each of the items. -/
def Value.shallowList (depth : Nat) : List Value → Bool
  | [] => true
  | v :: rest => v.shallow depth && Value.shallowList depth rest

/-- The same for each of the entries. -/
def Value.shallowEntries (depth : Nat) : List (String × Value) → Bool
  | [] => true
  | (_, v) :: rest => v.shallow depth && Value.shallowEntries depth rest

end

mutual

/-- The tree that laying `overlay` over `base` leaves, both at level `depth`, and whether all of
the overlay was laid. -/
def mergeAt (depth : Nat) (base : Value) : Value → Value × Bool
  | .mapping overlay =>
    match base with
    | .mapping entries =>
      if depth ≤ maxMergeDepth then
        let (merged, complete) := mergeEntries depth entries overlay
        (.mapping merged, complete)
      else (base, false)
    | _ => if (Value.mapping overlay).shallow depth then (.mapping overlay, true) else (base, false)
  | overlay => if overlay.shallow depth then (overlay, true) else (base, false)

/-- The entries that laying the entries of an overlay leaves. -/
def mergeEntries (depth : Nat) (base : Entries Value) :
    List (String × Value) → Entries Value × Bool
  | [] => (base, true)
  | (key, value) :: rest =>
    match base.find? key, value with
    | some (.mapping existing), .mapping overlay =>
      let (merged, complete) := mergeAt (depth + 1) (.mapping existing) (.mapping overlay)
      if complete then mergeEntries depth (base.insert key merged) rest
      else (base.insert key merged, false)
    | _, value =>
      if value.shallow (depth + 1) then mergeEntries depth (base.insert key value) rest
      else (base, false)

end

/-- What laying `overlay` over `base` leaves, and whether it was completed. -/
def mergeInto (base overlay : Value) : Value × Bool := mergeAt 0 base overlay

/-- `overlay` laid over `base`. -/
def merged (base overlay : Value) : Except Error Value :=
  match mergeInto base overlay with
  | (tree, true) => .ok tree
  | (_, false) => .error (.configuration (.nestingTooDeep maxMergeDepth))

end ParamSweep
