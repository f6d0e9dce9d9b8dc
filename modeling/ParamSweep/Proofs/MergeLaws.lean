import ParamSweep.Proofs.Inheritance
import ParamSweep.Proofs.LaidTrees

/-!
The algebra of merging.

All laws are read off the paths. At each path the tree with an overlay laid over it has what the
overlay has there, or nothing if the overlay cuts the path off, or else what the base has
(`leafAt_laid_of_some`, `leafAt_laid_of_cutsOff`, `leafAt_laid_of_free`). So laying an overlay twice
changes nothing, and three trees can be laid in either grouping. The one exception is a value of the
middle tree that is no mapping, at a path where the outer two have mappings: laid first, it takes
away what the lower tree has there, and laid with the upper tree it is itself taken away.

The laws are about sorted trees, and merging leaves them sorted (`sorted_laid`). All data that is
read from files is.
-/

namespace ParamSweep

namespace Value

variable {a b c base overlay v : Value} {depth : Nat} {leaf : Option Value} {path front : List String}

/-! ### Paths of a tree with another one laid over it -/

/-- What an overlay has at a path is there afterwards. -/
theorem leafAt_laid_of_some (hsorted : overlay.Sorted) (h : overlay.leafAt path = some leaf) :
    (base.laid overlay).leafAt path = some leaf := by
  obtain ⟨v, hv, rfl⟩ := Option.map_eq_some_iff.1 h
  rw [leafAt, descend_laid_of_some hsorted hv]
  rcases base.descend path with _ | below
  · rfl
  · simp only [laidEntry, Option.map_some, isMapping_laid]
    split
    next => rfl
    next hleaf => rw [laid_of_leaf (Bool.eq_false_iff.2 hleaf)]

theorem leafAt_laid_of_cutsOff (hsorted : overlay.Sorted) (h : overlay.CutsOff path) :
    (base.laid overlay).leafAt path = none :=
  leafAt_eq_none_iff.2 (descend_of_cutsOff (cutsOff_laid hsorted h))

/-- The overlay leaves a path to the base: it has nothing there and does not cut the path off. -/
def Frees (overlay : Value) (path : List String) : Prop :=
  overlay.leafAt path = none ∧ ¬ overlay.CutsOff path

theorem leafAt_laid_of_free (hsorted : overlay.Sorted) (h : overlay.Frees path) :
    (base.laid overlay).leafAt path = base.leafAt path := by
  rw [leafAt, descend_laid_of_none hsorted (leafAt_eq_none_iff.1 h.1) h.2, leafAt]

/-- At each path an overlay has something, or cuts the path off, or leaves it to the base. -/
theorem leafAt_cases (v : Value) (path : List String) :
    (∃ leaf, v.leafAt path = some leaf) ∨ v.CutsOff path ∨ v.Frees path := by
  rcases hleaf : v.leafAt path with _ | leaf
  · by_cases hcut : v.CutsOff path
    · exact Or.inr (Or.inl hcut)
    · exact Or.inr (Or.inr ⟨hleaf, hcut⟩)
  · exact Or.inl ⟨leaf, rfl⟩

theorem cutsOff_iff : v.CutsOff path ↔
    ∃ front w, front <+: path ∧ front ≠ path ∧ v.leafAt front = some (some w) := by
  simp only [CutsOff, leafAt_eq_leaf_iff]

theorem ascending_laidEntries {t : Entries Value} (h : t.Ascending)
    (entries : List (String × Value)) : (laidEntries t entries).Ascending := by
  induction entries generalizing t with
  | nil => exact h
  | cons p rest ih => exact ih h.insert

theorem sorted_laid (hbase : base.Sorted) (hsorted : overlay.Sorted) :
    (base.laid overlay).Sorted := by
  intro path t ht
  rcases hoverlay : overlay.descend path with _ | v
  · by_cases hcut : overlay.CutsOff path
    · rw [descend_of_cutsOff (cutsOff_laid hsorted hcut)] at ht
      cases ht
    · rw [descend_laid_of_none hsorted hoverlay hcut] at ht
      exact hbase path t ht
  · rw [descend_laid_of_some hsorted hoverlay] at ht
    rcases hbelow : base.descend path with _ | below <;> rw [hbelow] at ht
    · exact hsorted path t (hoverlay.trans ht)
    · -- two mappings make a table that ascends, anything else is the overlay's own
      cases v with
      | mapping entries =>
        cases below with
        | mapping under =>
          cases ht
          exact ascending_laidEntries (hbase path under hbelow) entries
        | _ => exact hsorted path t (hoverlay.trans ht)
      | _ => cases ht

mutual

/-- A tree is no deeper than the deeper one of the two that it is laid from. -/
theorem shallow_laid : ∀ {depth : Nat} {base : Value} (overlay : Value),
    base.shallow depth = true → overlay.shallow depth = true →
      (base.laid overlay).shallow depth = true
  | depth, base, .mapping overlay, hbase, h => by
    cases base with
    | mapping entries =>
      obtain ⟨hdepth, hentries⟩ := Bool.and_eq_true_iff.1 hbase
      rw [laid, shallow, hdepth, Bool.true_and]
      exact shallow_laidEntries overlay hentries (Bool.and_eq_true_iff.1 h).2
    | _ => exact h
  | _, _, .null, _, h => h
  | _, _, .bool _, _, h => h
  | _, _, .num _, _, h => h
  | _, _, .str _, _, h => h
  | _, _, .list _, _, h => h

theorem shallow_laidEntries : ∀ {depth : Nat} {base : Entries Value}
    (overlay : List (String × Value)), shallowEntries depth base = true →
      shallowEntries depth overlay = true → shallowEntries depth (laidEntries base overlay) = true
  | _, _, [], hbase, _ => hbase
  | depth, base, (key, value) :: rest, hbase, h => by
    obtain ⟨hvalue, hrest⟩ := Bool.and_eq_true_iff.1 h
    rw [laidEntries]
    refine shallow_laidEntries rest (shallowEntries_iff.2 fun p hp => ?_) hrest
    rcases Entries.mem_of_mem_insert hp with rfl | hp
    · simp only
      split
      next below hbelow =>
        have hunder := shallowEntries_iff.1 hbase _ (Entries.mem_of_find? hbelow)
        exact shallow_laid value hunder hvalue
      next => exact hvalue
    · exact shallowEntries_iff.1 hbase p hp

end

/-! ### Laws -/

theorem laid_laid_self (hbase : base.Sorted) (hsorted : overlay.Sorted) :
    (base.laid overlay).laid overlay = base.laid overlay := by
  refine eq_of_leafAt (sorted_laid (sorted_laid hbase hsorted) hsorted) (sorted_laid hbase hsorted)
    fun path => ?_
  rcases leafAt_cases overlay path with ⟨leaf, hleaf⟩ | hcut | hfree
  · rw [leafAt_laid_of_some hsorted hleaf, leafAt_laid_of_some hsorted hleaf]
  · rw [leafAt_laid_of_cutsOff hsorted hcut, leafAt_laid_of_cutsOff hsorted hcut]
  · exact leafAt_laid_of_free hsorted hfree

/-- Nowhere do `a` and `c` both have a mapping and `b` a value that is none. -/
def Unbroken (a b c : Value) : Prop :=
  ∀ path w, a.leafAt path = some none → b.leafAt path = some (some w) → c.leafAt path ≠ some none

/-- A path that `c` leaves to what is below is cut off by `b` with `c` laid over it only if `b`
itself cuts it off. -/
theorem cutsOff_of_laid (hc : c.Sorted) (hfree : c.Frees path) (h : (b.laid c).CutsOff path) :
    b.CutsOff path := by
  obtain ⟨front, w, hfront, hne, hw⟩ := cutsOff_iff.1 h
  refine cutsOff_iff.2 ⟨front, w, hfront, hne, ?_⟩
  rcases leafAt_cases c front with ⟨leaf, hleaf⟩ | hcut | hbelow
  · rw [leafAt_laid_of_some hc hleaf] at hw
    cases hw
    exact absurd (cutsOff_iff.2 ⟨front, w, hfront, hne, hleaf⟩) hfree.2
  · exact absurd (hcut.mono hfront) hfree.2
  · rwa [leafAt_laid_of_free hc hbelow] at hw

/-- Where `b` cuts a path off that `c` leaves to it, so does `b` with `c` laid over it, or else `a`
has nothing there. -/
theorem cutsOff_or_of_unbroken (hc : c.Sorted) (hunbroken : Unbroken a b c) (hfree : c.Frees path)
    (h : b.CutsOff path) : (b.laid c).CutsOff path ∨ a.leafAt path = none := by
  obtain ⟨front, w, hfront, hne, hw⟩ := cutsOff_iff.1 h
  rcases leafAt_cases c front with ⟨leaf, hleaf⟩ | hcut | hbelow
  · rcases leaf with _ | u
    · exact Or.inr (leafAt_eq_none_of_front hfront hne fun ha => hunbroken front w ha hw hleaf)
    · exact absurd (cutsOff_iff.2 ⟨front, u, hfront, hne, hleaf⟩) hfree.2
  · exact absurd (hcut.mono hfront) hfree.2
  · refine Or.inl (cutsOff_iff.2 ⟨front, w, hfront, hne, ?_⟩)
    rw [leafAt_laid_of_free hc hbelow, hw]

theorem laid_assoc (ha : a.Sorted) (hb : b.Sorted) (hc : c.Sorted) (hunbroken : Unbroken a b c) :
    (a.laid b).laid c = a.laid (b.laid c) := by
  have hbc := sorted_laid hb hc
  refine eq_of_leafAt (sorted_laid (sorted_laid ha hb) hc) (sorted_laid ha hbc) fun path => ?_
  rcases leafAt_cases c path with ⟨leaf, hleaf⟩ | hcut | hfree
  · rw [leafAt_laid_of_some hc hleaf, leafAt_laid_of_some hbc (leafAt_laid_of_some hc hleaf)]
  · rw [leafAt_laid_of_cutsOff hc hcut, leafAt_laid_of_cutsOff hbc (cutsOff_laid hc hcut)]
  · -- the path is left to `b`, in the middle as well as at the bottom
    have hmiddle : (b.laid c).leafAt path = b.leafAt path := leafAt_laid_of_free hc hfree
    rw [leafAt_laid_of_free hc hfree]
    rcases leafAt_cases b path with ⟨leaf, hleaf⟩ | hcut | hfree'
    · rw [leafAt_laid_of_some hb hleaf, leafAt_laid_of_some hbc (hmiddle.trans hleaf)]
    · rw [leafAt_laid_of_cutsOff hb hcut]
      by_cases hcut' : (b.laid c).CutsOff path
      · rw [leafAt_laid_of_cutsOff hbc hcut']
      · have hnothing := (cutsOff_or_of_unbroken hc hunbroken hfree hcut).resolve_left hcut'
        have hmiddle' := hmiddle.trans (leafAt_eq_none_iff.2 (descend_of_cutsOff hcut))
        rw [leafAt_laid_of_free hbc ⟨hmiddle', hcut'⟩, hnothing]
    · have hfree'' : (b.laid c).Frees path :=
        ⟨hmiddle.trans hfree'.1, fun hcut => hfree'.2 (cutsOff_of_laid hc hfree hcut)⟩
      rw [leafAt_laid_of_free hb hfree', leafAt_laid_of_free hbc hfree'']

/-- A number between two mappings: laid over the lower one first it takes that away, laid under the
upper one it is taken away itself. -/
example :
    ((mapping [("s", mapping [("x", .int 1)])]).laid (mapping [("s", .int 5)])).laid
        (mapping [("s", mapping [("y", .int 2)])]) = mapping [("s", mapping [("y", .int 2)])] ∧
      (mapping [("s", mapping [("x", .int 1)])]).laid
          ((mapping [("s", .int 5)]).laid (mapping [("s", mapping [("y", .int 2)])])) =
        mapping [("s", mapping [("x", .int 1), ("y", .int 2)])] := ⟨rfl, rfl⟩

end Value

/-! ### Merging -/

/-- The laws of merging. An overlay that has been merged in changes nothing the second time. An
empty mapping changes no mapping. And three trees can be merged in either grouping, unless somewhere
the middle one has a value that is no mapping where the outer two have mappings. -/
theorem merge_laws :
    (∀ {base overlay tree : Value}, base.Sorted → overlay.Sorted →
      merged base overlay = .ok tree → merged tree overlay = .ok tree) ∧
    (∀ t : Entries Value, merged (.mapping t) (.mapping []) = .ok (.mapping t)) ∧
    ∀ {a b c ab bc : Value}, a.Sorted → b.Sorted → c.Sorted → Value.Unbroken a b c →
      merged a b = .ok ab → merged b c = .ok bc →
        ∃ abc, merged ab c = .ok abc ∧ merged a bc = .ok abc := by
  refine ⟨fun {base overlay tree} hbase hsorted h => ?_, fun t => rfl,
    fun {a b c ab bc} ha hb hc hunbroken hab hbc => ?_⟩
  · obtain ⟨hshallow, rfl⟩ := merged_eq_ok_iff.1 h
    exact merged_eq_ok_iff.2 ⟨hshallow, (Value.laid_laid_self hbase hsorted).symm⟩
  · obtain ⟨hshallow, rfl⟩ := merged_eq_ok_iff.1 hab
    obtain ⟨hshallow', rfl⟩ := merged_eq_ok_iff.1 hbc
    refine ⟨_, merged_eq_ok_iff.2 ⟨hshallow', rfl⟩, merged_eq_ok_iff.2 ⟨?_, ?_⟩⟩
    · exact Value.shallow_laid c hshallow hshallow'
    · exact Value.laid_assoc ha hb hc hunbroken

/-- Two sections of a document. -/
def firstLayer : Value := .mapping [("grid", .mapping [("nx", .int 64)]), ("nu", .int 1)]

/-- A document that adds to one of them. -/
def secondLayer : Value := .mapping [("grid", .mapping [("ny", .int 32)]), ("nu", .int 2)]

/-- A document that changes and adds to it. -/
def thirdLayer : Value := .mapping [("grid", .mapping [("nx", .int 128), ("nz", .int 8)])]

theorem merge_laws_of_three_layers :
    firstLayer.Sorted ∧ secondLayer.Sorted ∧ thirdLayer.Sorted ∧
      Value.Unbroken firstLayer secondLayer thirdLayer ∧
      ∃ ab bc abc, merged firstLayer secondLayer = .ok ab ∧ merged secondLayer thirdLayer = .ok bc ∧
        merged ab thirdLayer = .ok abc ∧ merged firstLayer bc = .ok abc ∧
        merged ab secondLayer = .ok ab := by
  have hsorted : firstLayer.Sorted ∧ secondLayer.Sorted ∧ thirdLayer.Sorted := by
    simp (disch := decide) [firstLayer, secondLayer, thirdLayer, Value.sorted_mapping_iff_mem,
      Value.sorted_int]
  have hunbroken : Value.Unbroken firstLayer secondLayer thirdLayer := by
    intro path w hfirst hsecond
    -- the first document has mappings at its root and at `grid`, and there so has the second
    rcases path with _ | ⟨key, rest⟩
    · cases hsecond
    · rw [Value.leafAt_cons] at hfirst
      obtain ⟨v, hv, hfirst⟩ := Option.bind_eq_some_iff.1 hfirst
      have hmem := Entries.mem_of_find? hv
      simp only [List.mem_cons, Prod.mk.injEq, List.not_mem_nil, or_false] at hmem
      rcases hmem with ⟨rfl, rfl⟩ | ⟨rfl, rfl⟩
      · obtain rfl := Value.eq_nil_of_leaves (by simp [Value.int, Value.isMapping]) hfirst
        cases hsecond
      · exact absurd hfirst (Value.leafAt_of_leaf rfl)
  obtain ⟨htwice, -, hassoc⟩ := merge_laws
  obtain ⟨ha, hb, hc⟩ := hsorted
  have hab : merged firstLayer secondLayer = .ok _ := rfl
  have hbc : merged secondLayer thirdLayer = .ok _ := rfl
  obtain ⟨abc, hleft, hright⟩ := hassoc ha hb hc hunbroken hab hbc
  exact ⟨ha, hb, hc, hunbroken, _, _, abc, hab, hbc, hleft, hright, htwice ha hb hab⟩

end ParamSweep
