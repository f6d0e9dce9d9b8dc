import ParamSweep.Proofs.MergeLaws

/-!
What a merge leaves that stops on the way.

A merge goes through the entries of an overlay in their order and stops at the first one with a node
that is too deep. The entries before it have been laid as a whole. That entry has not been laid at
all, unless both trees have a mapping there, and then it has been laid as far as the merge got in
it, level by level. The tree that is left is therefore the base with the overlay pruned
(`Value.PrunedTo`) laid over it: `mergeAt_stopped`. A pruned overlay says nothing that the whole one
does not say, so what the overlay leaves to the base is left to it by a merge that stops as well
(`Value.PrunedTo.frees`).

Like the laws of merging this is about sorted trees. There an entry that is set to what it holds
stays where it is, so a merge that stops before it has changed a section leaves the section alone.
-/

namespace ParamSweep

namespace Value

variable {w whole part : Value} {key : String} {path : List String} {leaf : Option Value}

/-- A tree with some of its subtrees removed: entries of its mappings, at any level, each with all
that is below it. -/
inductive PrunedTo : Value → Value → Prop
  | whole (v : Value) : PrunedTo v v
  | removed {p : String × Value} {rest pruned : List (String × Value)} :
      PrunedTo (.mapping rest) (.mapping pruned) → PrunedTo (.mapping (p :: rest)) (.mapping pruned)
  | kept {key : String} {v w : Value} {rest pruned : List (String × Value)} :
      PrunedTo v w → PrunedTo (.mapping rest) (.mapping pruned) →
        PrunedTo (.mapping ((key, v) :: rest)) (.mapping ((key, w) :: pruned))

namespace PrunedTo

theorem empty (entries : List (String × Value)) : PrunedTo (.mapping entries) (.mapping []) := by
  induction entries with
  | nil => exact .whole _
  | cons p rest ih => exact .removed ih

/-- An entry that is left is an entry of the whole tree, pruned. -/
theorem get? (h : whole.PrunedTo part) (hsorted : whole.Sorted) (hw : part.get? key = some w) :
    ∃ v, whole.get? key = some v ∧ v.PrunedTo w := by
  induction h with
  | whole => exact ⟨w, hw, .whole w⟩
  | @removed p rest _ _ ih =>
    obtain ⟨hfirst, -, hrest⟩ := sorted_mapping_cons_iff.1 hsorted
    obtain ⟨v, hv, hprune⟩ := ih hrest hw
    have hother : p.1 ≠ key := by
      rintro rfl
      exact String.lt_irrefl _ (hfirst _ (Entries.mem_keys_iff.2 ⟨v, hv⟩))
    exact ⟨v, (if_neg hother).trans hv, hprune⟩
  | @kept k v _ rest _ hentry _ _ ih =>
    by_cases hk : k = key
    · obtain rfl := Option.some.inj ((if_pos hk).symm.trans hw)
      exact ⟨v, if_pos hk, hentry⟩
    · obtain ⟨u, hu, hprune⟩ :=
        ih (sorted_mapping_cons_iff.1 hsorted).2.2 ((if_neg hk).symm.trans hw)
      exact ⟨u, (if_neg hk).trans hu, hprune⟩

/-- What a path leads to in the tree that is left, it leads to in the whole tree. -/
theorem leafAt (h : whole.PrunedTo part) (hsorted : whole.Sorted)
    (hleaf : part.leafAt path = some leaf) : whole.leafAt path = some leaf := by
  induction path generalizing whole part with
  | nil => cases h <;> exact hleaf
  | cons key path ih =>
    rw [leafAt_cons] at hleaf ⊢
    obtain ⟨w, hw, hleaf⟩ := Option.bind_eq_some_iff.1 hleaf
    obtain ⟨v, hv, hprune⟩ := h.get? hsorted hw
    exact Option.bind_eq_some_iff.2 ⟨v, hv, ih hprune (hsorted.get? hv) hleaf⟩

theorem sorted (h : whole.PrunedTo part) (hsorted : whole.Sorted) : part.Sorted := by
  induction h with
  | whole => exact hsorted
  | removed _ ih => exact ih (sorted_mapping_cons_iff.1 hsorted).2.2
  | kept _ hpruned ihentry ih =>
    obtain ⟨hfirst, hv, hrest⟩ := sorted_mapping_cons_iff.1 hsorted
    refine sorted_mapping_cons_iff.2 ⟨fun other hother => hfirst other ?_, ihentry hv, ih hrest⟩
    obtain ⟨w, hw⟩ := Entries.mem_keys_iff.1 hother
    obtain ⟨u, hu, -⟩ := hpruned.get? hrest hw
    exact Entries.mem_keys_iff.2 ⟨u, hu⟩

/-- A path that the whole tree leaves to the base is left to it by the pruned one. -/
theorem frees (h : whole.PrunedTo part) (hsorted : whole.Sorted) (hfree : whole.Frees path) :
    part.Frees path := by
  constructor
  · refine Option.eq_none_iff_forall_ne_some.2 fun leaf hleaf => ?_
    have hwhole := h.leafAt hsorted hleaf
    rw [hfree.1] at hwhole
    cases hwhole
  · intro hcut
    obtain ⟨front, w, hfront, hne, hw⟩ := cutsOff_iff.1 hcut
    exact hfree.2 (cutsOff_iff.2 ⟨front, w, hfront, hne, h.leafAt hsorted hw⟩)

end PrunedTo

end Value

/-! ### The way of a merge -/

/-- At an entry that is not shallow the merge stops. The entry is as before, or merged as far as the
merge of two mappings got. -/
theorem mergeEntries_cons_of_not_shallow {depth : Nat} {key : String} {value : Value}
    {entries : Entries Value} {rest : List (String × Value)}
    (h : value.shallow (depth + 1) = false) :
    (mergeEntries depth entries ((key, value) :: rest)).1 = entries ∨
      ∃ below, entries.find? key = some below ∧
        (mergeEntries depth entries ((key, value) :: rest)).1 =
          entries.insert key (mergeAt (depth + 1) below value).1 := by
  rw [mergeEntries.eq_def]
  simp only
  split
  next t u ht =>
    rw [mergeAt_of_not_shallow _ h]
    exact Or.inr ⟨_, ht, rfl⟩
  next => exact Or.inl (congrArg Prod.fst (if_neg (ne_true_of_eq_false h)))

mutual

/-- A merge that stops has done nothing, or has laid a pruned overlay. -/
theorem mergeAt_stopped {depth : Nat} {base : Value} (overlay : Value) (hbase : base.Sorted)
    (hsorted : overlay.Sorted) (h : overlay.shallow depth = false) :
    (mergeAt depth base overlay).1 = base ∨
      ∃ part, overlay.PrunedTo part ∧ part.shallow depth = true ∧
        (mergeAt depth base overlay).1 = base.laid part := by
  cases overlay with
  | mapping overlay =>
    cases base with
    | mapping entries =>
      rw [mergeAt.eq_def]
      simp only
      split
      next hdepth =>
        rw [Value.shallow, decide_eq_true hdepth, Bool.true_and] at h
        obtain ⟨part, hpart, hshallow, hleft⟩ := mergeEntries_stopped overlay hbase hsorted h
        refine Or.inr ⟨.mapping part, hpart, ?_, congrArg Value.mapping hleft⟩
        rw [Value.shallow, decide_eq_true hdepth, hshallow, Bool.and_self]
      next => exact Or.inl rfl
    | _ => exact Or.inl (congrArg Prod.fst (if_neg (ne_true_of_eq_false h)))
  | _ => exact Or.inl (congrArg Prod.fst (if_neg (ne_true_of_eq_false h)))

theorem mergeEntries_stopped : ∀ {depth : Nat} {entries : Entries Value}
    (overlay : List (String × Value)), (Value.mapping entries).Sorted →
      (Value.mapping overlay).Sorted → Value.shallowEntries (depth + 1) overlay = false →
        ∃ part, (Value.mapping overlay).PrunedTo (.mapping part) ∧
          Value.shallowEntries (depth + 1) part = true ∧
            (mergeEntries depth entries overlay).1 = Value.laidEntries entries part
  | _, _, [], _, _, h => by cases h
  | depth, entries, (key, value) :: rest, hbase, hsorted, h => by
    obtain ⟨-, hvalue, hrest⟩ := Value.sorted_mapping_cons_iff.1 hsorted
    rw [Value.shallowEntries, Bool.and_eq_false_iff] at h
    cases hshallow : value.shallow (depth + 1) with
    | true =>
      -- the entry is laid as a whole before the merge stops further on
      have hfirst : (Value.mapping [(key, value)]).Sorted :=
        Value.sorted_mapping_cons_iff.2 ⟨nofun, hvalue, Value.sorted_empty⟩
      rw [mergeEntries_cons_of_laid hshallow fun _ => mergeAt_of_shallow value hshallow]
      obtain ⟨part, hpart, hbelow, hleft⟩ := mergeEntries_stopped rest
        (Value.sorted_laid hbase hfirst) hrest (h.resolve_left (ne_false_of_eq_true hshallow))
      refine ⟨(key, value) :: part, .kept (.whole value) hpart, ?_, hleft⟩
      rw [Value.shallowEntries, hshallow, hbelow, Bool.and_self]
    | false =>
      rcases mergeEntries_cons_of_not_shallow hshallow with hleft | ⟨below, hfind, hleft⟩
      · exact ⟨[], .empty _, rfl, hleft⟩
      · obtain ⟨hascending, hentries⟩ := Value.sorted_mapping_iff.1 hbase
        rcases mergeAt_stopped value (hentries key below hfind) hvalue hshallow with
          hsame | ⟨part, hpart, hbelow, hlaid⟩
        · refine ⟨[], .empty _, rfl, hleft.trans ?_⟩
          rw [hsame]
          exact hascending.insert_of_find? hfind
        · refine ⟨[(key, part)], .kept hpart (.empty rest), ?_, hleft.trans ?_⟩
          · rw [Value.shallowEntries, hbelow]
            rfl
          · rw [hlaid, Value.laidEntries, hfind]
            rfl

end

/-! ### Merging in place -/

/-- Named slots, each with a tree in it. -/
abbrev Slots := String → Value

/-- Lays the tree of one slot over that of another, where it stands. A merge that stops leaves there
what it has changed so far. -/
def mergeInSlot (base overlay : String) : ExceptT Error (StateM Slots) Unit := do
  let slots ← get
  let (tree, complete) := mergeInto (slots base) (slots overlay)
  modify fun slots => Function.update slots base tree
  unless complete do
    throw (.configuration (.nestingTooDeep maxMergeDepth))

/-- Lays the tree of one slot over a copy of that of another, and answers with the copy. -/
def mergeOverCopy (copy base overlay : String) : ExceptT Error (StateM Slots) Value := do
  modify fun slots => Function.update slots copy (slots base)
  mergeInSlot copy overlay
  return (← get) copy

theorem outcome_mergeInSlot (base overlay : String) (slots : Slots) :
    outcome (mergeInSlot base overlay) slots =
      ((merged (slots base) (slots overlay)).map fun _ => (),
        Function.update slots base (mergeInto (slots base) (slots overlay)).1) := by
  rw [mergeInSlot, outcome_bind, outcome_get, merged]
  rcases hmerge : mergeInto (slots base) (slots overlay) with ⟨tree, complete⟩
  cases complete <;> simp only [hmerge] <;> rfl

/-- Merging over a copy is `merged`, and changes nothing but the copy. -/
theorem outcome_mergeOverCopy {copy overlay : String} (base : String) (slots : Slots)
    (hfresh : overlay ≠ copy) :
    outcome (mergeOverCopy copy base overlay) slots =
      (merged (slots base) (slots overlay),
        Function.update slots copy (mergeInto (slots base) (slots overlay)).1) := by
  rw [mergeOverCopy, outcome_bind, outcome_modify]
  simp only
  rw [outcome_bind, outcome_mergeInSlot, Function.update_self, Function.update_of_ne hfresh,
    Function.update_idem, merged]
  rcases mergeInto (slots base) (slots overlay) with ⟨tree, complete⟩
  cases complete
  · rfl
  · show (Except.ok (Function.update slots copy tree copy), _) = _
    rw [Function.update_self]

/-! ### What is left -/

/-- The tree that a merge leaves behind when it stops. An overlay speaks of a path if it has a value
there, or on the way a value that is no mapping: that one takes the place of all that is below it. -/
structure LeftBehind (base overlay left : Value) : Prop where
  /-- It is the base, or what merging a part of the overlay into the base gives. -/
  pruned : left = base ∨ ∃ part, overlay.PrunedTo part ∧ merged base part = .ok left
  /-- What the overlay does not speak of is as it was. -/
  kept : ∀ {path}, overlay.Frees path → left.descend path = base.descend path
  /-- Below a value of the overlay that is no mapping all is as it was, or gone. -/
  cut : ∀ {path}, overlay.CutsOff path →
    left.descend path = base.descend path ∨ left.descend path = none

theorem leftBehind_self (base overlay : Value) : LeftBehind base overlay base :=
  ⟨Or.inl rfl, fun _ => rfl, fun _ => Or.inl rfl⟩

theorem leftBehind_laid {base overlay part : Value} (hsorted : overlay.Sorted)
    (hpart : overlay.PrunedTo part) (hshallow : part.shallow 0 = true) :
    LeftBehind base overlay (base.laid part) where
  pruned := Or.inr ⟨part, hpart, merged_eq_ok_iff.2 ⟨hshallow, rfl⟩⟩
  kept {path} hfree := by
    obtain ⟨hnothing, hcut⟩ := hpart.frees hsorted hfree
    exact Value.descend_laid_of_none (hpart.sorted hsorted) (Value.leafAt_eq_none_iff.1 hnothing) hcut
  cut {path} hcut := by
    have hpartSorted := hpart.sorted hsorted
    rcases Value.leafAt_cases part path with ⟨leaf, hleaf⟩ | hpartCut | ⟨hnothing, hpartFree⟩
    · -- where the overlay cuts a path off, it has nothing, and so no part of it has
      have hwhole := hpart.leafAt hsorted hleaf
      rw [Value.leafAt_eq_none_iff.2 (Value.descend_of_cutsOff hcut)] at hwhole
      cases hwhole
    · exact Or.inr (Value.descend_of_cutsOff (Value.cutsOff_laid hpartSorted hpartCut))
    · exact Or.inl
        (Value.descend_laid_of_none hpartSorted (Value.leafAt_eq_none_iff.1 hnothing) hpartFree)

/-- A merge that stops leaves the base as it was, or as merging the overlay without some of its
subtrees would have left it. So no path that the overlay does not speak of is changed, added or
removed. A merge over a copy comes to what `merged` comes to, whether it stops or not, and both of
the trees that it is given stand afterwards as they did before. -/
theorem leftBehind_of_mergeInto :
    (∀ {base overlay left : Value}, base.Sorted → overlay.Sorted →
      mergeInto base overlay = (left, false) → LeftBehind base overlay left) ∧
    ∀ {copy base overlay : String} (slots : Slots), base ≠ copy → overlay ≠ copy →
      ∃ slots', outcome (mergeOverCopy copy base overlay) slots =
          (merged (slots base) (slots overlay), slots') ∧
        slots' base = slots base ∧ slots' overlay = slots overlay := by
  refine ⟨fun {base overlay left} hbase hsorted h => ?_, fun slots hbase hoverlay => ?_⟩
  · have hdeep : overlay.shallow 0 = false := by
      rw [← Bool.not_eq_true, ← @mergeInto_complete_iff base, h]
      exact Bool.false_ne_true
    obtain rfl : (mergeAt 0 base overlay).1 = left := congrArg Prod.fst h
    rcases mergeAt_stopped overlay hbase hsorted hdeep with hsame | ⟨part, hpart, hshallow, hlaid⟩
    · rw [hsame]
      exact leftBehind_self base overlay
    · rw [hlaid]
      exact leftBehind_laid hsorted hpart hshallow
  · exact ⟨_, outcome_mergeOverCopy _ slots hoverlay, Function.update_of_ne hbase _ _,
      Function.update_of_ne hoverlay _ _⟩

/-- A number below so many mappings, one in the other. -/
def numberBelow : Nat → Value
  | 0 => .int 0
  | n + 1 => .mapping [("k", numberBelow n)]

/-- A document with two sections and a number. -/
def wideLayer : Value :=
  .mapping [("a", .mapping [("x", .int 1)]), ("b", .mapping [("w", .int 2), ("z", .int 3)]),
    ("d", .int 4)]

/-- A document that is too deep in the middle of its second section. -/
def deepLayer : Value :=
  .mapping [("a", .int 5), ("b", .mapping [("x", .int 6), ("y", numberBelow 63), ("z", .int 7)]),
    ("d", .int 8)]

/-- Both of them, each in a slot. -/
def layerSlots : Slots := fun slot => if slot = "wide" then wideLayer else deepLayer

theorem leftBehind_of_deep_section :
    wideLayer.Sorted ∧ deepLayer.Sorted ∧ deepLayer.Frees ["b", "w"] ∧
      (∃ left, mergeInto wideLayer deepLayer = (left, false) ∧
        LeftBehind wideLayer deepLayer left ∧ left.descend ["b", "w"] = some (.int 2) ∧
        left.descend ["a"] = some (.int 5) ∧ left.descend ["b", "x"] = some (.int 6) ∧
        left.descend ["b", "z"] = some (.int 3) ∧ left.descend ["d"] = some (.int 4)) ∧
      ∃ slots error, outcome (mergeOverCopy "copy" "wide" "deep") layerSlots = (.error error, slots) ∧
        slots "wide" = wideLayer ∧ slots "deep" = deepLayer := by
  have hnumber : ∀ n, (numberBelow n).Sorted := by
    intro n
    induction n with
    | zero => exact Value.sorted_int 0
    | succ n ih => exact Value.sorted_mapping_cons_iff.2 ⟨nofun, ih, Value.sorted_empty⟩
  have hwide : wideLayer.Sorted := by
    simp (disch := decide) [wideLayer, Value.sorted_mapping_iff_mem, Value.sorted_int]
  have hdeep : deepLayer.Sorted := by
    simp (disch := decide) [deepLayer, Value.sorted_mapping_iff_mem, Value.sorted_int, hnumber]
  have hfree : deepLayer.Frees ["b", "w"] := by
    refine ⟨rfl, ?_⟩
    simp [Value.cutsOff_cons_iff, Value.not_cutsOff_nil, deepLayer, Value.get?, Entries.find?,
      Value.isMapping]
  obtain ⟨hstopped, hcopied⟩ := leftBehind_of_mergeInto
  have hleft := hstopped hwide hdeep rfl
  obtain ⟨slots, hrun, hbase, hoverlay⟩ :=
    @hcopied "copy" "wide" "deep" layerSlots (by decide) (by decide)
  exact ⟨hwide, hdeep, hfree, ⟨_, rfl, hleft, hleft.kept hfree, rfl, rfl, rfl, rfl⟩, slots, _, hrun,
    hbase, hoverlay⟩

end ParamSweep
