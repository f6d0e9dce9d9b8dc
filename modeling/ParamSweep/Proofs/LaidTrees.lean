import ParamSweep.Merge
import ParamSweep.Proofs.ValuePaths

/-!
What laying one tree over another leaves, path by path.

`Value.laid` lays a tree without counting levels. A merge leaves that tree if the overlay has no
node too deep, and is not completed otherwise; the base plays no part in it (`mergeAt_of_shallow`,
`mergeAt_of_not_shallow`). What a path leads to in the tree is then read off the overlay, and off
the base where the overlay says nothing about the path: `LaidOver`.
-/

namespace ParamSweep

namespace Value

variable {base overlay v w : Value} {depth level : Nat} {key : String} {path front : List String}

/-! ### How deep a tree is -/

/-- `w` is a node of the tree, `level` levels below its root. -/
inductive NodeAt : Nat → Value → Value → Prop
  | root {w : Value} : NodeAt 0 w w
  | item {level : Nat} {items : List Value} {v w : Value} :
      v ∈ items → NodeAt level v w → NodeAt (level + 1) (.list items) w
  | entry {level : Nat} {entries : List (String × Value)} {key : String} {v w : Value} :
      (key, v) ∈ entries → NodeAt level v w → NodeAt (level + 1) (.mapping entries) w

theorem shallowList_iff {items : List Value} :
    shallowList depth items = true ↔ ∀ v ∈ items, v.shallow depth = true := by
  induction items with
  | nil => simp [shallowList]
  | cons v rest ih => simp [shallowList, ih]

theorem shallowEntries_iff {entries : List (String × Value)} :
    shallowEntries depth entries = true ↔ ∀ p ∈ entries, p.2.shallow depth = true := by
  induction entries with
  | nil => simp [shallowEntries]
  | cons p rest ih => simp [shallowEntries, ih]

theorem le_of_shallow (h : v.shallow depth = true) : depth ≤ maxMergeDepth := by
  cases v with
  | list items => exact of_decide_eq_true (Bool.and_eq_true_iff.1 h).1
  | mapping entries => exact of_decide_eq_true (Bool.and_eq_true_iff.1 h).1
  | _ => exact of_decide_eq_true h

theorem le_of_nodeAt (hnode : NodeAt level v w) :
    ∀ {depth}, v.shallow depth = true → depth + level ≤ maxMergeDepth := by
  induction hnode with
  | root => exact le_of_shallow
  | item hmem _ ih =>
    intro depth h
    rw [shallow, Bool.and_eq_true, shallowList_iff] at h
    have hbelow := ih (h.2 _ hmem)
    omega
  | entry hmem _ ih =>
    intro depth h
    rw [shallow, Bool.and_eq_true, shallowEntries_iff] at h
    have hbelow := ih (h.2 _ hmem)
    omega

mutual

theorem shallow_of_nodes : ∀ {depth : Nat} (v : Value),
    (∀ level w, NodeAt level v w → depth + level ≤ maxMergeDepth) → v.shallow depth = true
  | depth, .list items, h => by
    rw [shallow, Bool.and_eq_true, decide_eq_true_eq]
    refine ⟨h 0 _ .root, shallowList_of_nodes items fun v hv level w hw => ?_⟩
    have hdeeper := h _ _ (.item hv hw)
    omega
  | depth, .mapping entries, h => by
    rw [shallow, Bool.and_eq_true, decide_eq_true_eq]
    refine ⟨h 0 _ .root, shallowEntries_of_nodes entries fun p hp level w hw => ?_⟩
    have hdeeper := h _ _ (.entry hp hw)
    omega
  | _, .null, h => decide_eq_true (h 0 _ .root)
  | _, .bool _, h => decide_eq_true (h 0 _ .root)
  | _, .num _, h => decide_eq_true (h 0 _ .root)
  | _, .str _, h => decide_eq_true (h 0 _ .root)

theorem shallowList_of_nodes : ∀ {depth : Nat} (items : List Value),
    (∀ v ∈ items, ∀ level w, NodeAt level v w → depth + level ≤ maxMergeDepth) →
      shallowList depth items = true
  | _, [], _ => rfl
  | _, v :: rest, h => by
    obtain ⟨hfirst, hrest⟩ := List.forall_mem_cons.1 h
    rw [shallowList, shallow_of_nodes v hfirst, shallowList_of_nodes rest hrest, Bool.and_self]

theorem shallowEntries_of_nodes : ∀ {depth : Nat} (entries : List (String × Value)),
    (∀ p ∈ entries, ∀ level w, NodeAt level p.2 w → depth + level ≤ maxMergeDepth) →
      shallowEntries depth entries = true
  | _, [], _ => rfl
  | _, (key, v) :: rest, h => by
    obtain ⟨hfirst, hrest⟩ := List.forall_mem_cons.1 h
    rw [shallowEntries, shallow_of_nodes v hfirst, shallowEntries_of_nodes rest hrest,
      Bool.and_self]

end

/-- A tree is shallow if none of its nodes lies too deep. -/
theorem shallow_iff :
    v.shallow depth = true ↔ ∀ level w, NodeAt level v w → depth + level ≤ maxMergeDepth :=
  ⟨fun h _ _ hnode => le_of_nodeAt hnode h, shallow_of_nodes v⟩

/-! ### Laying without counting levels -/

mutual

/-- The tree with `overlay` laid over `base`. -/
def laid (base : Value) : Value → Value
  | .mapping overlay =>
    match base with
    | .mapping entries => .mapping (laidEntries entries overlay)
    | _ => .mapping overlay
  | overlay => overlay

/-- The entries with those of an overlay laid over them. -/
def laidEntries (base : Entries Value) : List (String × Value) → Entries Value
  | [] => base
  | (key, value) :: rest =>
    laidEntries
      (base.insert key <|
        match base.find? key with
        | some below => below.laid value
        | none => value)
      rest

end

/-- Only two mappings are merged. -/
theorem laid_of_not_mappings (h : ∀ t u, base = .mapping t → overlay ≠ .mapping u) :
    base.laid overlay = overlay := by
  cases overlay with
  | mapping u =>
    cases base with
    | mapping t => exact absurd rfl (h t u rfl)
    | _ => rfl
  | _ => rfl

theorem isMapping_laid : (base.laid overlay).isMapping = overlay.isMapping := by
  cases overlay with
  | mapping t => cases base <;> rfl
  | _ => rfl

theorem laid_of_leaf (h : overlay.isMapping = false) : base.laid overlay = overlay :=
  laid_of_not_mappings fun t u _ hmapping => by
    subst hmapping
    cases h

/-- Unless both are mappings, the overlay's entry takes the place of what was there. -/
theorem laidEntries_cons_of_not_mappings {entries : Entries Value}
    {rest : List (String × Value)}
    (h : ∀ t u, entries.find? key = some (.mapping t) → v ≠ .mapping u) :
    laidEntries entries ((key, v) :: rest) = laidEntries (entries.insert key v) rest := by
  rw [laidEntries]
  rcases hbelow : entries.find? key with _ | below
  · rfl
  · simp only
    rw [laid_of_not_mappings fun t u ht => h t u (hbelow.trans (congrArg some ht))]

/-- What is left of an entry, with what was there before and what the overlay has. -/
def laidEntry : Option Value → Option Value → Option Value
  | below, none => below
  | none, some v => some v
  | some below, some v => some (below.laid v)

theorem find?_laidEntries {overlay : Entries Value} (h : overlay.keys.Nodup)
    (base : Entries Value) :
    (laidEntries base overlay).find? key = laidEntry (base.find? key) (overlay.find? key) := by
  induction overlay generalizing base with
  | nil => rfl
  | cons p rest ih =>
    obtain ⟨k, v⟩ := p
    obtain ⟨hnew, hrest⟩ := List.nodup_cons.1 h
    rw [laidEntries, ih hrest, Entries.find?_insert, Entries.find?]
    by_cases hk : k = key
    · subst hk
      have habsent : Entries.find? k rest = none := Entries.find?_eq_none_iff.2 hnew
      rw [if_pos rfl, if_pos rfl, habsent]
      cases base.find? k <;> rfl
    · rw [if_neg hk, if_neg hk]

/-- An entry of the tree with a mapping laid over it. -/
theorem get?_laid {entries : Entries Value} (h : entries.keys.Nodup) :
    (base.laid (.mapping entries)).get? key =
      laidEntry (base.get? key) (Entries.find? key entries) := by
  have hother : ∀ b : Value, b.get? key = none → b.laid (.mapping entries) = .mapping entries →
      (b.laid (.mapping entries)).get? key =
        laidEntry (b.get? key) (Entries.find? key entries) := by
    intro b hnothing hlaid
    rw [hlaid, hnothing, get?]
    cases Entries.find? key entries <;> rfl
  cases base with
  | mapping t => exact find?_laidEntries h t
  | _ => exact hother _ rfl rfl

/-! ### What a path leads to -/

/-- The overlay has a value that is no mapping on the way of a path, before its end. -/
def CutsOff (overlay : Value) (path : List String) : Prop :=
  ∃ front w, front <+: path ∧ front ≠ path ∧ overlay.descend front = some w ∧ w.isMapping = false

theorem not_cutsOff_nil : ¬ v.CutsOff [] :=
  fun ⟨_, _, hfront, hne, _⟩ => hne (List.prefix_nil.1 hfront)

theorem cutsOff_cons_iff {rest : List String} :
    v.CutsOff (key :: rest) ↔ v.isMapping = false ∨ ∃ w, v.get? key = some w ∧ w.CutsOff rest := by
  constructor
  · rintro ⟨front, w, hfront, hne, hw, hleaf⟩
    rcases List.prefix_cons_iff.1 hfront with rfl | ⟨front, rfl, hbelow⟩
    · cases hw
      exact Or.inl hleaf
    · obtain ⟨u, hu, hw⟩ := Option.bind_eq_some_iff.1 hw
      exact Or.inr ⟨u, hu, front, w, hbelow, fun heq => hne (congrArg _ heq), hw, hleaf⟩
  · rintro (hleaf | ⟨u, hu, front, w, hbelow, hne, hw, hleaf⟩)
    · exact ⟨[], v, List.nil_prefix, List.cons_ne_nil _ _ |>.symm, rfl, hleaf⟩
    · refine ⟨key :: front, w, List.cons_prefix_cons.2 ⟨rfl, hbelow⟩,
        fun heq => hne (List.cons.inj heq).2, ?_, hleaf⟩
      rw [descend, hu]
      exact hw

/-- Nothing is left at a path that is cut off. -/
theorem descend_of_cutsOff (h : v.CutsOff path) : v.descend path = none := by
  obtain ⟨front, w, hfront, hne, hw, hleaf⟩ := h
  refine leafAt_eq_none_iff.1 (leafAt_eq_none_of_front hfront hne fun hmapping => ?_)
  rw [leafAt_eq_leaf_iff.2 ⟨hw, hleaf⟩] at hmapping
  cases hmapping

theorem CutsOff.mono (h : v.CutsOff front) (hfront : front <+: path) : v.CutsOff path := by
  obtain ⟨before, w, hbefore, hne, hw, hleaf⟩ := h
  refine ⟨before, w, hbefore.trans hfront, fun heq => hne ?_, hw, hleaf⟩
  exact hbefore.eq_of_length_le (heq ▸ hfront.length_le)

/-- Where the overlay has a value, it is laid over what the base has there. -/
theorem descend_laid_of_some (hsorted : overlay.Sorted) (h : overlay.descend path = some v) :
    (base.laid overlay).descend path = laidEntry (base.descend path) (some v) := by
  induction path generalizing base overlay with
  | nil =>
    cases h
    rfl
  | cons key rest ih =>
    obtain ⟨w, hw, hend⟩ := Option.bind_eq_some_iff.1 h
    cases overlay with
    | mapping entries =>
      obtain ⟨hascending, hbelow⟩ := sorted_mapping_iff.1 hsorted
      have hfind : Entries.find? key entries = some w := hw
      rw [descend, get?_laid hascending.nodup_keys, hfind, descend]
      cases base.get? key with
      | none => exact hend
      | some below => exact ih (hbelow key w hfind) hend
    | _ => cases hw

/-- Where the overlay says nothing, the base is left as it is. -/
theorem descend_laid_of_none (hsorted : overlay.Sorted) (h : overlay.descend path = none)
    (hfree : ¬ overlay.CutsOff path) : (base.laid overlay).descend path = base.descend path := by
  induction path generalizing base overlay with
  | nil => cases h
  | cons key rest ih =>
    rw [cutsOff_cons_iff, not_or] at hfree
    obtain ⟨hmapping, hbelowFree⟩ := hfree
    cases overlay with
    | mapping entries =>
      obtain ⟨hascending, hbelow⟩ := sorted_mapping_iff.1 hsorted
      rw [descend, get?_laid hascending.nodup_keys, descend]
      rcases hfind : Entries.find? key entries with _ | w
      · cases base.get? key <;> rfl
      · rw [descend, get?, hfind] at h
        have hw : ¬ w.CutsOff rest := fun hcut => hbelowFree ⟨w, hfind, hcut⟩
        cases base.get? key with
        | none => exact h
        | some below => exact ih (hbelow key w hfind) h hw
    | _ => exact absurd rfl hmapping

/-- What was cut off is cut off in the tree that is left. -/
theorem cutsOff_laid (hsorted : overlay.Sorted) (h : overlay.CutsOff path) :
    (base.laid overlay).CutsOff path := by
  obtain ⟨front, w, hfront, hne, hw, hleaf⟩ := h
  refine ⟨front, w, hfront, hne, ?_, hleaf⟩
  rw [descend_laid_of_some hsorted hw]
  cases base.descend front with
  | none => rfl
  | some below => exact congrArg some (laid_of_leaf hleaf)

/-- The tree that laying an overlay over a base leaves, path by path. -/
structure LaidOver (base overlay tree : Value) : Prop where
  /-- Where both have a mapping, there is one. -/
  mapping : ∀ {path t u}, overlay.descend path = some (.mapping t) →
    base.descend path = some (.mapping u) → ∃ s, tree.descend path = some (.mapping s)
  /-- Anywhere else the overlay's value is left. -/
  value : ∀ {path v}, overlay.descend path = some v →
    (∀ t u, v = .mapping t → base.descend path ≠ some (.mapping u)) → tree.descend path = some v
  /-- Below a value of the overlay that is no mapping there is nothing. -/
  gone : ∀ {path}, overlay.descend path = none → overlay.CutsOff path → tree.descend path = none
  /-- All else is as it was. -/
  kept : ∀ {path}, overlay.descend path = none → ¬ overlay.CutsOff path →
    tree.descend path = base.descend path

theorem laidOver_laid (hsorted : overlay.Sorted) (base : Value) :
    LaidOver base overlay (base.laid overlay) where
  mapping {path t u} h hbase := by
    rw [descend_laid_of_some hsorted h, hbase]
    exact ⟨laidEntries u t, rfl⟩
  value {path v} h hother := by
    rw [descend_laid_of_some hsorted h]
    rcases hbase : base.descend path with _ | below
    · rfl
    · refine congrArg some (laid_of_not_mappings fun u t hu ht => ?_)
      exact hother t u ht (hbase.trans (congrArg some hu))
  gone _ hcut := descend_of_cutsOff (cutsOff_laid hsorted hcut)
  kept h hfree := descend_laid_of_none hsorted h hfree

end Value

/-! ### Merging -/

variable {base overlay : Value}

/-- An entry that is shallow is laid before the merge goes on, if mappings are merged as they are
laid. -/
theorem mergeEntries_cons_of_laid {depth : Nat} {key : String} {value : Value}
    {entries : Entries Value} {rest : List (String × Value)}
    (hshallow : value.shallow (depth + 1) = true)
    (hlaid : ∀ below, mergeAt (depth + 1) below value = (below.laid value, true)) :
    mergeEntries depth entries ((key, value) :: rest) =
      mergeEntries depth (Value.laidEntries entries [(key, value)]) rest := by
  rw [mergeEntries.eq_def]
  simp only
  split
  next existing overlay hexisting =>
    rw [hlaid, Value.laidEntries, hexisting]
    rfl
  next hother =>
    rw [if_pos hshallow, Value.laidEntries_cons_of_not_mappings hother]
    rfl

mutual

/-- An overlay without nodes that are too deep is laid as a whole. -/
theorem mergeAt_of_shallow : ∀ {depth : Nat} {base : Value} (overlay : Value),
    overlay.shallow depth = true → mergeAt depth base overlay = (base.laid overlay, true)
  | depth, base, .mapping overlay, h => by
    cases base with
    | mapping entries =>
      obtain ⟨hdepth, hbelow⟩ := Bool.and_eq_true_iff.1 h
      rw [mergeAt.eq_def]
      simp only
      rw [if_pos (of_decide_eq_true hdepth), mergeEntries_of_shallow overlay hbelow]
      rfl
    | _ => exact if_pos h
  | _, _, .null, h => if_pos h
  | _, _, .bool _, h => if_pos h
  | _, _, .num _, h => if_pos h
  | _, _, .str _, h => if_pos h
  | _, _, .list _, h => if_pos h

theorem mergeEntries_of_shallow : ∀ {depth : Nat} {base : Entries Value}
    (overlay : List (String × Value)), Value.shallowEntries (depth + 1) overlay = true →
      mergeEntries depth base overlay = (Value.laidEntries base overlay, true)
  | _, _, [], _ => rfl
  | depth, base, (key, value) :: rest, h => by
    obtain ⟨hvalue, hrest⟩ := Bool.and_eq_true_iff.1 h
    rw [mergeEntries_cons_of_laid hvalue fun _ => mergeAt_of_shallow value hvalue]
    exact mergeEntries_of_shallow rest hrest

end

mutual

/-- An overlay with a node that is too deep is not laid as a whole. -/
theorem mergeAt_of_not_shallow : ∀ {depth : Nat} {base : Value} (overlay : Value),
    overlay.shallow depth = false → (mergeAt depth base overlay).2 = false
  | depth, base, .mapping overlay, h => by
    cases base with
    | mapping entries =>
      rw [mergeAt.eq_def]
      simp only
      rw [Value.shallow, Bool.and_eq_false_iff, decide_eq_false_iff_not] at h
      split
      next hdepth => exact mergeEntries_of_not_shallow overlay (h.resolve_left (not_not.2 hdepth))
      next => rfl
    | _ => exact congrArg Prod.snd (if_neg (ne_true_of_eq_false h))
  | _, _, .null, h => congrArg Prod.snd (if_neg (ne_true_of_eq_false h))
  | _, _, .bool _, h => congrArg Prod.snd (if_neg (ne_true_of_eq_false h))
  | _, _, .num _, h => congrArg Prod.snd (if_neg (ne_true_of_eq_false h))
  | _, _, .str _, h => congrArg Prod.snd (if_neg (ne_true_of_eq_false h))
  | _, _, .list _, h => congrArg Prod.snd (if_neg (ne_true_of_eq_false h))

theorem mergeEntries_of_not_shallow : ∀ {depth : Nat} {base : Entries Value}
    (overlay : List (String × Value)), Value.shallowEntries (depth + 1) overlay = false →
      (mergeEntries depth base overlay).2 = false
  | depth, base, (key, value) :: rest, h => by
    rw [Value.shallowEntries, Bool.and_eq_false_iff] at h
    rw [mergeEntries.eq_def]
    simp only
    split
    next existing entries hexisting =>
      split
      next hcomplete =>
        refine mergeEntries_of_not_shallow rest (h.resolve_left fun hvalue => ?_)
        rw [mergeAt_of_not_shallow _ hvalue] at hcomplete
        cases hcomplete
      next => rfl
    next hother =>
      split
      next hvalue =>
        exact mergeEntries_of_not_shallow rest (h.resolve_left (ne_false_of_eq_true hvalue))
      next => rfl

end

theorem mergeInto_complete_iff : (mergeInto base overlay).2 = true ↔ overlay.shallow 0 = true := by
  cases h : overlay.shallow 0 with
  | true => simp [mergeInto, mergeAt_of_shallow overlay h]
  | false => simp [mergeInto, mergeAt_of_not_shallow overlay h]

/-- A merge succeeds exactly if the overlay is shallow, and then it is laid over the base. -/
theorem merged_eq_ok_iff {tree : Value} :
    merged base overlay = .ok tree ↔ overlay.shallow 0 = true ∧ tree = base.laid overlay := by
  rw [merged, ← @mergeInto_complete_iff base]
  rcases hmerge : mergeInto base overlay with ⟨left, complete⟩
  cases complete with
  | true =>
    have hlaid : mergeInto base overlay = (base.laid overlay, true) :=
      mergeAt_of_shallow overlay (mergeInto_complete_iff.1 (congrArg Prod.snd hmerge))
    obtain rfl : left = base.laid overlay := congrArg Prod.fst (hmerge.symm.trans hlaid)
    simp [eq_comm]
  | false => simp

/-- A merge is completed exactly if no node of the overlay lies more than 64 levels below its root,
whatever the base. Then the tree that is left has, at every path, a mapping if both have one there,
and otherwise what the overlay has. Where the overlay has nothing, it has nothing below a value of
the overlay that is no mapping, and elsewhere what the base has. -/
theorem laidOver_of_mergeInto (base : Value) (h : overlay.Sorted) :
    ((mergeInto base overlay).2 = true ↔
      ∀ level node, Value.NodeAt level overlay node → level ≤ 64) ∧
    ((mergeInto base overlay).2 = true →
      Value.LaidOver base overlay (mergeInto base overlay).1) := by
  refine ⟨?_, fun hdone => ?_⟩
  · rw [mergeInto_complete_iff, Value.shallow_iff]
    simp only [Nat.zero_add, maxMergeDepth]
  · rw [mergeInto, mergeAt_of_shallow overlay (mergeInto_complete_iff.1 hdone)]
    exact Value.laidOver_laid h base

/-- A document in three sections. -/
def lowerLayer : Value :=
  .mapping [("a", .mapping [("x", .int 1), ("y", .int 2)]), ("b", .mapping [("c", .int 1)]),
    ("e", .int 5)]

/-- A document that changes an entry of one section and takes another section away. -/
def upperLayer : Value := .mapping [("a", .mapping [("y", .int 3)]), ("b", .int 7)]

theorem laidOver_of_two_layers :
    upperLayer.Sorted ∧ ∃ tree, mergeInto lowerLayer upperLayer = (tree, true) ∧
      tree.descend ["a", "y"] = some (.int 3) ∧ tree.descend ["a", "x"] = some (.int 1) ∧
      tree.descend ["b", "c"] = none ∧ tree.descend ["e"] = some (.int 5) := by
  have hsorted : upperLayer.Sorted := by
    simp (disch := decide) [upperLayer, Value.sorted_mapping_iff_mem, Value.sorted_int]
  have hcut : upperLayer.CutsOff ["b", "c"] :=
    ⟨["b"], .int 7, ⟨["c"], rfl⟩, by decide, rfl, rfl⟩
  have hfree : ¬ upperLayer.CutsOff ["a", "x"] ∧ ¬ upperLayer.CutsOff ["e"] := by
    simp [Value.cutsOff_cons_iff, Value.not_cutsOff_nil, upperLayer, Value.get?, Entries.find?,
      Value.isMapping]
  obtain ⟨-, hlaid⟩ := laidOver_of_mergeInto lowerLayer hsorted
  have hdone := hlaid rfl
  have hscalar : ∀ t u, Value.int 3 = .mapping t →
      lowerLayer.descend ["a", "y"] ≠ some (.mapping u) := by
    intro t u h
    cases h
  exact ⟨hsorted, _, rfl, hdone.value rfl hscalar, hdone.kept rfl hfree.1, hdone.gone rfl hcut,
    hdone.kept rfl hfree.2⟩

end ParamSweep
