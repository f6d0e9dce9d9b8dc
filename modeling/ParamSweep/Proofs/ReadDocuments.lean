import ParamSweep.Proofs.CompactTexts
import ParamSweep.Proofs.Inheritance
import ParamSweep.Proofs.LaidTrees

/-!
Documents that are read from files.

Whatever is read from a text is proper (`Yaml.proper_read`), and laying documents over each other
keeps it so. Hence the documents of a configuration on disk are proper (`Resolver.proper_layered`),
and like all proper values they are sorted.
-/

namespace ParamSweep

/-! ### What is read -/

namespace Yaml

theorem proper_float (x : Float) : (Value.float x).Proper := by
  rw [Value.float]
  split
  next hfinite => exact .num hfinite
  next => exact .null

mutual

theorem proper_toValue? : ∀ {tree : Tree} {v : Value}, tree.toValue? = some v → v.Proper
  | .mapping pairs, v, h => by
    obtain ⟨entries, hentries, rfl⟩ := Option.map_eq_some_iff.1 h
    exact Value.proper_record (proper_toEntries? hentries)
  | .tagged tag content, v, h => by
    obtain ⟨w, hw, rfl⟩ := Option.map_eq_some_iff.1 h
    exact Value.proper_empty.insert (proper_toValue? hw)
  | .list items, v, h => by
    obtain ⟨values, hvalues, rfl⟩ := Option.map_eq_some_iff.1 h
    exact .list (proper_toValues? hvalues)
  | .null, _, h => by cases h; exact .null
  | .bool b, _, h => by cases h; exact .bool b
  | .int n, _, h => by cases h; exact .num trivial
  | .float x, _, h => by cases h; exact proper_float x
  | .text s, _, h => by cases h; exact .str s

theorem proper_toValues? : ∀ {trees : List Tree} {values : List Value},
    toValues? trees = some values → ∀ v ∈ values, v.Proper
  | [], _, h => by
    cases h
    simp
  | tree :: rest, values, h => by
    obtain ⟨v, hv, h⟩ := Option.bind_eq_some_iff.1 h
    obtain ⟨others, hothers, h⟩ := Option.bind_eq_some_iff.1 h
    cases h
    exact List.forall_mem_cons.2 ⟨proper_toValue? hv, proper_toValues? hothers⟩

theorem proper_toEntries? : ∀ {pairs : List (Tree × Tree)} {entries : List (String × Value)},
    toEntries? pairs = some entries → ∀ p ∈ entries, p.2.Proper
  | [], _, h => by
    cases h
    simp
  | (k, tree) :: rest, entries, h => by
    obtain ⟨key, -, h⟩ := Option.bind_eq_some_iff.1 h
    obtain ⟨v, hv, h⟩ := Option.bind_eq_some_iff.1 h
    obtain ⟨others, hothers, h⟩ := Option.bind_eq_some_iff.1 h
    cases h
    exact List.forall_mem_cons.2 ⟨proper_toValue? hv, proper_toEntries? hothers⟩

end

/-- Every value that is read is proper. -/
theorem proper_read {path text : String} {v : Value} (h : read path text = .ok v) : v.Proper := by
  rw [read] at h
  split at h
  · cases h
  · split at h
    · cases h
      exact Value.proper_empty
    · split at h
      next hv =>
        cases h
        exact proper_toValue? hv
      · cases h

end Yaml

/-! ### Documents -/

namespace Value

mutual

theorem proper_laid : ∀ {base overlay : Value}, base.Proper → overlay.Proper →
    (base.laid overlay).Proper
  | base, .mapping overlay, hbase, hoverlay => by
    cases base with
    | mapping entries => exact proper_laidEntries hbase hoverlay.entries
    | _ => exact hoverlay
  | _, .null, _, h => h
  | _, .bool _, _, h => h
  | _, .num _, _, h => h
  | _, .str _, _, h => h
  | _, .list _, _, h => h

theorem proper_laidEntries : ∀ {base : Entries Value} {overlay : List (String × Value)},
    (mapping base).Proper → (∀ p ∈ overlay, p.2.Proper) →
      (mapping (laidEntries base overlay)).Proper
  | _, [], hbase, _ => hbase
  | base, (key, value) :: rest, hbase, hoverlay => by
    obtain ⟨hvalue, hrest⟩ := List.forall_mem_cons.1 hoverlay
    rw [laidEntries]
    refine proper_laidEntries (hbase.insert ?_) hrest
    split
    next below hbelow =>
      exact proper_laid (hbase.entries _ (Entries.mem_of_find? hbelow)) hvalue
    next => exact hvalue

end

theorem proper_merged {base overlay v : Value} (hbase : base.Proper) (hoverlay : overlay.Proper)
    (h : merged base overlay = .ok v) : v.Proper := by
  obtain ⟨-, rfl⟩ := merged_eq_ok_iff.1 h
  exact proper_laid hbase hoverlay

end Value

namespace Document

theorem proper_dataOf {file : String} {entry : Option Value} {v : Value}
    (hentry : ∀ w, entry = some w → w.Proper) (h : dataOf file entry = .ok v) : v.Proper := by
  rw [dataOf.eq_def] at h
  split at h
  · cases h
    exact Value.proper_empty
  · cases h
    exact Value.proper_empty
  · cases h
    exact hentry _ rfl
  · cases h

theorem proper_ofValue {file : String} {v : Value} {doc : Document} (hv : v.Proper)
    (h : ofValue file v = .ok doc) : doc.data.Proper := by
  cases v with
  | mapping entries =>
    rw [ofValue] at h
    split at h
    · cases h
      exact hv
    · obtain ⟨format, -, h⟩ := except_bind_ok h
      obtain ⟨data, hdata, h⟩ := except_bind_ok h
      cases h
      exact proper_dataOf (fun w hw => hv.entries _ (Entries.mem_of_find? hw)) hdata
  | _ => cases h

theorem proper_overlay {below layer doc : Document} (hbelow : below.data.Proper)
    (hlayer : layer.data.Proper) (h : below.overlay layer = .ok doc) : doc.data.Proper := by
  obtain ⟨data, hdata, h⟩ := except_bind_ok h
  cases h
  exact Value.proper_merged hbelow hlayer hdata

end Document

namespace ConfigSource

variable {t : FileTree} {root experiment file : String} {v : Value}

theorem proper_load (h : (ofTree t root).load experiment file = .ok (some v)) : v.Proper := by
  have hload : loadIn t root experiment file = .ok (some v) := h
  rw [loadIn] at hload
  split at hload
  · obtain ⟨w, hw, heq⟩ := except_map_ok hload
    cases heq
    obtain ⟨text, -, hread⟩ := except_bind_ok hw
    exact Yaml.proper_read hread
  · cases hload

/-- Every file of a configuration on disk has the keys of its mappings in order. -/
theorem sorted_load (h : (ofTree t root).load experiment file = .ok (some v)) : v.Sorted :=
  (proper_load h).sorted

end ConfigSource

namespace Resolver

variable {t : FileTree} {root file : String} {links : List String} {doc : Document}

/-- The documents of files on disk have proper data. -/
theorem proper_layered (h : layered (.ofTree t root) file links = .ok (some doc)) :
    doc.data.Proper := by
  refine layered_holds (P := fun doc => doc.data.Proper) (fun link layer hlayer => ?_)
    (fun _ _ _ => Document.proper_overlay) h
  obtain ⟨content, hcontent, hlayer⟩ := except_bind_ok hlayer
  cases content with
  | none => cases hlayer
  | some v =>
    obtain ⟨doc', hdoc', heq⟩ := except_map_ok hlayer
    cases heq
    exact Document.proper_ofValue (ConfigSource.proper_load hcontent) (mapError_ok hdoc')

/-- So they are among the trees that the laws of merging are about. -/
theorem sorted_layered (h : layered (.ofTree t root) file links = .ok (some doc)) :
    doc.data.Sorted :=
  (proper_layered h).sorted

end Resolver

end ParamSweep
