import Mathlib.Data.List.Nodup
import ParamSweep.Proofs.Tables
import ParamSweep.Value.Path

/-!
Values looked at path by path.

A path of keys leads to nothing, to a mapping, or to a value that is none (`leafAt`). A value is
sorted if every mapping that a path leads to is in the order of its keys, and then it is fixed by
what its paths lead to: `eq_of_leafAt`. So an equation between sorted values can be proved one path
at a time.
-/

namespace ParamSweep

/-- Tables that hold the same under every key are equal. -/
theorem Entries.Ascending.ext {α : Type} {t t' : Entries α} (h : t.Ascending) (h' : t'.Ascending)
    (hfind : ∀ key, t.find? key = t'.find? key) : t = t' := by
  have hmem : ∀ p, p ∈ t ↔ p ∈ t' := fun (key, value) => by
    rw [← h.find?_eq_some_iff, ← h'.find?_eq_some_iff, hfind]
  have hperm : t.Perm t' :=
    (List.perm_ext_iff_of_nodup (.of_map _ h.nodup_keys) (.of_map _ h'.nodup_keys)).2 hmem
  refine hperm.eq_of_pairwise (fun p q _ _ hpq hqp => ?_) (List.pairwise_map.1 h)
    (List.pairwise_map.1 h')
  exact absurd (String.lt_trans hpq hqp) (String.lt_irrefl p.1)

/-- Setting a key to what it holds changes nothing. -/
theorem Entries.Ascending.insert_of_find? {α : Type} {t : Entries α} {key : String} {value : α}
    (h : t.Ascending) (hfind : t.find? key = some value) : t.insert key value = t := by
  refine h.insert.ext h fun other => ?_
  rw [find?_insert]
  split
  next hsame => rw [← hsame, hfind]
  next => rfl

namespace Value

variable {v w : Value} {key : String} {path front : List String}

/-- What a path of keys leads to: nothing, a mapping, or a value that is none. -/
def leafAt (path : List String) (v : Value) : Option (Option Value) :=
  (v.descend path).map fun w => if w.isMapping then none else some w

theorem descend_of_leaf (h : v.isMapping = false) : v.descend (key :: path) = none := by
  cases v with
  | mapping t => cases h
  | _ => rfl

theorem descend_append (v : Value) (path more : List String) :
    v.descend (path ++ more) = (v.descend path).bind fun w => w.descend more := by
  induction path generalizing v with
  | nil => rfl
  | cons k rest ih =>
    rw [List.cons_append, descend, descend, Option.bind_assoc]
    congr 1
    funext w
    exact ih w

theorem leafAt_cons : v.leafAt (key :: path) = (v.get? key).bind (leafAt path) := by
  rw [leafAt, descend, Option.map_bind]
  rfl

theorem leafAt_eq_none_iff : v.leafAt path = none ↔ v.descend path = none := Option.map_eq_none_iff

theorem leafAt_eq_mapping_iff :
    v.leafAt path = some none ↔ ∃ t : Entries Value, v.descend path = some (.mapping t) := by
  rw [leafAt]
  rcases v.descend path with _ | (_ | _ | _ | _ | _ | t) <;> simp [isMapping]

theorem leafAt_eq_leaf_iff :
    v.leafAt path = some (some w) ↔ v.descend path = some w ∧ w.isMapping = false := by
  rw [leafAt]
  rcases v.descend path with _ | u
  · simp
  · cases hu : u.isMapping <;> simp only [Option.map_some, hu, if_true, Bool.false_eq_true, if_false]
    · refine ⟨fun h => ?_, fun h => congrArg some h.1⟩
      cases h
      exact ⟨rfl, hu⟩
    · refine ⟨nofun, fun ⟨heq, hw⟩ => ?_⟩
      cases heq
      rw [hu] at hw
      cases hw

theorem leafAt_of_leaf (h : v.isMapping = false) : v.leafAt path ≠ some none := by
  cases path with
  | nil => rw [leafAt_eq_leaf_iff.2 ⟨rfl, h⟩]; nofun
  | cons key rest => rw [leafAt_eq_none_iff.2 (descend_of_leaf h)]; nofun

/-- A table of values that are no mappings has no mapping in it but itself. -/
theorem eq_nil_of_leaves {t : Entries Value} (hleaves : ∀ p ∈ t, p.2.isMapping = false)
    (h : (mapping t).leafAt path = some none) : path = [] := by
  cases path with
  | nil => rfl
  | cons key rest =>
    rw [leafAt_cons] at h
    obtain ⟨w, hw, h⟩ := Option.bind_eq_some_iff.1 h
    exact absurd h (leafAt_of_leaf (hleaves _ (Entries.mem_of_find? hw)))

/-- A path leads somewhere only through mappings. -/
theorem leafAt_eq_none_of_front (hfront : front <+: path) (hne : front ≠ path)
    (h : v.leafAt front ≠ some none) : v.leafAt path = none := by
  obtain ⟨more, rfl⟩ := hfront
  obtain ⟨k, rest, rfl⟩ := List.exists_cons_of_ne_nil fun hnil : more = [] => hne (by simp [hnil])
  rw [leafAt_eq_none_iff, descend_append]
  rcases hdescend : v.descend front with _ | w
  · rfl
  · refine descend_of_leaf (Bool.eq_false_iff.2 fun hmapping => h ?_)
    rw [leafAt, hdescend, Option.map_some, if_pos hmapping]

/-! ### The order of keys -/

/-- The keys of every mapping that a path leads to ascend. -/
def Sorted (v : Value) : Prop := ∀ path t, v.descend path = some (.mapping t) → Entries.Ascending t

theorem sorted_of_leaf (h : v.isMapping = false) : v.Sorted := by
  intro path t ht
  cases path with
  | nil =>
    cases ht
    cases h
  | cons k rest =>
    rw [descend_of_leaf h] at ht
    cases ht

theorem sorted_int (n : Int) : (int n).Sorted := sorted_of_leaf rfl

theorem sorted_mapping_iff {t : Entries Value} :
    (mapping t).Sorted ↔ t.Ascending ∧ ∀ key w, t.find? key = some w → w.Sorted := by
  constructor
  · intro h
    refine ⟨h [] t rfl, fun key w hw path inner hinner => h (key :: path) inner ?_⟩
    rw [descend, get?, hw]
    exact hinner
  · rintro ⟨hascending, hbelow⟩ path inner h
    cases path with
    | nil =>
      cases h
      exact hascending
    | cons key rest =>
      obtain ⟨w, hw, h⟩ := Option.bind_eq_some_iff.1 h
      exact hbelow key w hw rest inner h

theorem eq_of_leaf (hleaf : v.isMapping = false) (h : v.leafAt [] = w.leafAt []) : v = w := by
  have hv : v.leafAt [] = some (some v) := leafAt_eq_leaf_iff.2 ⟨rfl, hleaf⟩
  obtain ⟨hw, -⟩ := leafAt_eq_leaf_iff.1 (h.symm.trans hv)
  exact (Option.some.inj hw).symm

theorem sorted_mapping_iff_mem {t : Entries Value} (h : t.Ascending) :
    (mapping t).Sorted ↔ ∀ p ∈ t, p.2.Sorted := by
  simp only [sorted_mapping_iff, h, true_and, h.find?_eq_some_iff, Prod.forall]

theorem Sorted.get? (h : v.Sorted) (hw : v.get? key = some w) : w.Sorted := by
  cases v with
  | mapping t => exact (sorted_mapping_iff.1 h).2 key w hw
  | _ => cases hw

theorem sorted_mapping_cons_iff {rest : List (String × Value)} :
    (mapping ((key, v) :: rest)).Sorted ↔
      (∀ other ∈ Entries.keys rest, key < other) ∧ v.Sorted ∧ (mapping rest).Sorted := by
  constructor
  · intro h
    obtain ⟨hascending, -⟩ := sorted_mapping_iff.1 h
    obtain ⟨hfirst, hrest⟩ := List.pairwise_cons.1 hascending
    obtain ⟨hv, hbelow⟩ := List.forall_mem_cons.1 ((sorted_mapping_iff_mem hascending).1 h)
    exact ⟨hfirst, hv, (sorted_mapping_iff_mem hrest).2 hbelow⟩
  · rintro ⟨hfirst, hv, hrest⟩
    have hascending : Entries.Ascending ((key, v) :: rest) :=
      List.pairwise_cons.2 ⟨hfirst, (sorted_mapping_iff.1 hrest).1⟩
    have hbelow := (sorted_mapping_iff_mem (sorted_mapping_iff.1 hrest).1).1 hrest
    exact (sorted_mapping_iff_mem hascending).2 (List.forall_mem_cons.2 ⟨hv, hbelow⟩)

theorem sorted_empty : (mapping []).Sorted :=
  sorted_mapping_iff.2 ⟨Entries.ascending_nil, nofun⟩

/-- A sorted value is fixed by what its paths lead to. -/
theorem eq_of_leafAt : ∀ {v w : Value}, v.Sorted → w.Sorted →
    (∀ path, v.leafAt path = w.leafAt path) → v = w
  | .mapping t, w, hv, hw, h => by
    obtain ⟨t', ht'⟩ :=
      leafAt_eq_mapping_iff.1 ((h []).symm.trans (leafAt_eq_mapping_iff.2 ⟨t, rfl⟩))
    cases ht'
    obtain ⟨hascending, hbelow⟩ := sorted_mapping_iff.1 hv
    obtain ⟨hascending', hbelow'⟩ := sorted_mapping_iff.1 hw
    refine congrArg mapping (hascending.ext hascending' fun key => ?_)
    have hkey : ∀ path, (Entries.find? key t).bind (leafAt path) =
        (Entries.find? key t').bind (leafAt path) := by
      intro path
      have hpath := h (key :: path)
      rwa [leafAt_cons, leafAt_cons] at hpath
    rcases hx : Entries.find? key t with _ | x <;>
      rcases hy : Entries.find? key t' with _ | y <;>
      simp only [hx, hy, Option.bind_none, Option.bind_some] at hkey
    · rfl
    · exact absurd (hkey []).symm (by simp [leafAt, descend])
    · exact absurd (hkey []) (by simp [leafAt, descend])
    · have hsmaller := List.sizeOf_lt_of_mem (hascending.find?_eq_some_iff.1 hx)
      exact congrArg some (eq_of_leafAt (hbelow key x hx) (hbelow' key y hy) hkey)
  | .null, _, _, _, h => eq_of_leaf rfl (h [])
  | .bool _, _, _, _, h => eq_of_leaf rfl (h [])
  | .num _, _, _, _, h => eq_of_leaf rfl (h [])
  | .str _, _, _, _, h => eq_of_leaf rfl (h [])
  | .list _, _, _, _, h => eq_of_leaf rfl (h [])
termination_by v => sizeOf v
decreasing_by
  simp only [Prod.mk.sizeOf_spec] at hsmaller
  simp only [mapping.sizeOf_spec]
  omega

end Value

end ParamSweep
