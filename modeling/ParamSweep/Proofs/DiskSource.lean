import ParamSweep.Config.Source
import ParamSweep.Proofs.Outcome
import ParamSweep.Proofs.Place
import ParamSweep.Proofs.Tables

/-!
The bases that a source on disk names.

Reading a base can fail in a few ways (`Error.IsReadFault`), and none of them is a failure that the
walk along the bases or the compilation of a suite reports for itself.

A source says how many different bases it names at most, and `ConfigSource.Bounded` that it does not
say too little. On disk a base is named by a file, and which base that is depends on nothing but the
content of the file. So there are no more bases than files (`bounded_ofTree`).
-/

namespace ParamSweep

/-! ### Failures -/

/-- What can go wrong when the base of an experiment or a file of it is read. -/
inductive Error.IsReadFault : Error → Prop
  | file (path : String) (fault : FileFault) : IsReadFault (.file path fault)
  | yaml (path : String) : IsReadFault (.invalidYaml path)
  | json (fault : SnapshotFault) : IsReadFault (.invalidJson fault)
  | pointer (path found : String) : IsReadFault (.configuration (.basePointerNotName path found))

theorem FileTree.errsOnly_readYaml (t : FileTree) (path : String) :
    ErrsOnly Error.IsReadFault (t.readYaml path) := by
  have hfile : ErrsOnly Error.IsReadFault ((t.readText path).mapError (Error.file path)) :=
    ErrsOnly.mapError (K := fun _ => True) (fun _ _ => trivial) fun fault _ => .file path fault
  refine hfile.bind fun text => ?_
  rw [Yaml.read]
  split
  · exact .error (.yaml path)
  · split
    · exact .ok _
    · split
      · exact .ok _
      · exact .error (.json _)

theorem errsOnly_basePointer (path : String) (metadata : Value) :
    ErrsOnly Error.IsReadFault (basePointer path metadata) := by
  rw [basePointer]
  split
  · exact .ok _
  · exact .ok _
  · split
    · exact .error (.pointer path _)
    · exact .ok _
  · exact .error (.pointer path _)

namespace ConfigSource

theorem errsOnly_baseIn (t : FileTree) (root experiment : String) :
    ErrsOnly Error.IsReadFault (baseIn t root experiment) := by
  rw [baseIn]
  split
  · exact .ok _
  · exact (t.errsOnly_readYaml _).bind fun _ => errsOnly_basePointer _ _

theorem errsOnly_loadIn (t : FileTree) (root experiment file : String) :
    ErrsOnly Error.IsReadFault (loadIn t root experiment file) := by
  rw [loadIn]
  split
  · exact (t.errsOnly_readYaml _).map _
  · exact .ok _

end ConfigSource

/-! ### The contents of files -/

namespace Node

mutual

/-- The contents of the files in a node. -/
def contents : Node → List ByteArray
  | .file content _ => [content]
  | .dir entries => allContents entries

/-- The contents of the files in all entries. -/
def allContents : List (String × Node) → List ByteArray
  | [] => []
  | (_, n) :: rest => n.contents ++ allContents rest

end

mutual

theorem length_contents : ∀ n : Node, n.contents.length = n.fileCount
  | .file _ _ => rfl
  | .dir entries => length_allContents entries

theorem length_allContents : ∀ entries, (allContents entries).length = fileCounts entries
  | [] => rfl
  | (_, n) :: rest => by
    rw [allContents, fileCounts, List.length_append, length_contents n, length_allContents rest]

end

theorem contents_subset {name : String} {n : Node} : ∀ {entries : List (String × Node)},
    (name, n) ∈ entries → n.contents ⊆ allContents entries
  | (_, _) :: _, h => by
    rw [allContents]
    rcases List.mem_cons.1 h with heq | hmem
    · cases heq
      exact List.subset_append_left _ _
    · exact List.subset_append_of_subset_right _ (contents_subset hmem)

/-- What can be found in a node is one of its contents. -/
theorem mem_contents {content : ByteArray} {executable : Bool} :
    ∀ {names : List String} {n : Node}, nodeAt? names n = some (.file content executable) →
      content ∈ n.contents
  | [], _, h => by
    cases h
    exact List.mem_singleton_self content
  | _ :: _, .file _ _, h => by cases h
  | name :: rest, .dir entries, h => by
    obtain ⟨below, hbelow, h⟩ := Option.bind_eq_some_iff.1 h
    exact contents_subset (Entries.mem_of_find? hbelow) (mem_contents h)

end Node

theorem FileTree.mem_contents_of_readText {t : FileTree} {path text : String}
    (h : t.readText path = .ok text) :
    ∃ content ∈ Node.allContents t.entries, Text.utf8? content = some text := by
  obtain ⟨content, hcontent, h⟩ := except_bind_ok h
  obtain ⟨-, executable, hsight⟩ := FileTree.readBytes_eq_ok_iff.1 hcontent
  refine ⟨content, Node.mem_contents (FileTree.sight_eq_file_iff.1 hsight), ?_⟩
  split at h
  next htext => rw [htext, Except.ok.inj h]
  · cases h

/-! ### Bases -/

/-- Every base that a source names is one of a list that is no longer than it says. -/
def ConfigSource.Bounded (source : ConfigSource) : Prop :=
  ∃ bases : List String, bases.length ≤ source.bound ∧
    ∀ experiment base, source.base? experiment = .ok (some base) → base ∈ bases

/-- The path of a file shows in failures only. -/
theorem Yaml.read_elsewhere {path path' text : String} {v : Value}
    (h : Yaml.read path text = .ok v) : Yaml.read path' text = .ok v := by
  rw [Yaml.read] at h ⊢
  split at h
  · cases h
  · exact h

theorem basePointer_elsewhere {path path' : String} {metadata : Value} {base : Option String}
    (h : basePointer path metadata = .ok base) : basePointer path' metadata = .ok base := by
  rw [basePointer] at h ⊢
  split at h
  · exact h
  · exact h
  · split at h
    · cases h
    next hname => rwa [if_neg hname]
  · cases h

namespace ConfigSource

/-- The base that a metadata file of some content names. -/
def baseOfContent (content : ByteArray) : Option String :=
  (Text.utf8? content).bind fun text => (Yaml.read "" text >>= basePointer "").toOption.join

/-- A base that is read is named by what a file holds, whatever the path of the file. -/
theorem baseOfContent_of_baseIn {t : FileTree} {root experiment base : String}
    (h : baseIn t root experiment = .ok (some base)) :
    ∃ content ∈ Node.allContents t.entries, baseOfContent content = some base := by
  rw [baseIn] at h
  split at h
  · cases h
  · obtain ⟨metadata, hmetadata, h⟩ := except_bind_ok h
    obtain ⟨text, htext, hread⟩ := except_bind_ok hmetadata
    obtain ⟨content, hmem, hcontent⟩ := FileTree.mem_contents_of_readText (mapError_ok htext)
    refine ⟨content, hmem, ?_⟩
    rw [baseOfContent, hcontent, Option.bind_some, Yaml.read_elsewhere hread, except_ok_bind,
      basePointer_elsewhere h]
    rfl

/-- There are no more bases on disk than files. -/
theorem bounded_ofTree (t : FileTree) (root : String) : (ofTree t root).Bounded := by
  refine ⟨(Node.allContents t.entries).filterMap baseOfContent, ?_, fun experiment base h => ?_⟩
  · calc ((Node.allContents t.entries).filterMap baseOfContent).length
      _ ≤ (Node.allContents t.entries).length := List.length_filterMap_le _ _
      _ = (ofTree t root).bound := Node.length_allContents t.entries
  · exact List.mem_filterMap.2 (baseOfContent_of_baseIn h)

end ConfigSource

end ParamSweep
