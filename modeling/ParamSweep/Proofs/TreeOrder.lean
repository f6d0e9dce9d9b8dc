import ParamSweep.Proofs.Tables
import ParamSweep.Proofs.TreeChange

/-!
The order in which a tree holds its names.

A tree is well formed if every name in it is one that a path can lead to, and the names of each
directory ascend. `WellFormed` can be computed. Of the two halves only the order matters to those
who list a directory, and it outlasts every change: `sorted_setAt`.
-/

namespace ParamSweep

namespace Node

/-! ### Nodes -/

mutual

/-- Whether every name in a node is one and the names of each directory ascend. -/
def isWellFormed : Node → Bool
  | .file _ _ => true
  | .dir entries => decide (Entries.Ascending entries) && areWellFormed entries

/-- The same for each of the entries of a directory. -/
def areWellFormed : List (String × Node) → Bool
  | [] => true
  | (name, n) :: rest => decide (Path.IsName name) && n.isWellFormed && areWellFormed rest

end

theorem wellFormed_of_mem {name : String} {n : Node} :
    ∀ {entries : List (String × Node)}, areWellFormed entries = true → (name, n) ∈ entries →
      Path.IsName name ∧ n.isWellFormed = true
  | (k, v) :: rest, h, hmem => by
    simp only [areWellFormed, Bool.and_eq_true, decide_eq_true_eq] at h
    obtain ⟨⟨hname, hnode⟩, hrest⟩ := h
    rcases List.mem_cons.1 hmem with heq | hmem
    · cases heq
      exact ⟨hname, hnode⟩
    · exact wellFormed_of_mem hrest hmem

theorem isWellFormed_nodeAt? {inner : Node} :
    ∀ {place : List String} {n : Node}, n.isWellFormed = true → nodeAt? place n = some inner →
      inner.isWellFormed = true
  | [], _, hn, h => by
    cases h
    exact hn
  | _ :: _, .file _ _, _, h => by cases h
  | name :: rest, .dir entries, hn, h => by
    obtain ⟨below, hbelow, h⟩ := Option.bind_eq_some_iff.1 h
    rw [isWellFormed, Bool.and_eq_true] at hn
    exact isWellFormed_nodeAt? (wellFormed_of_mem hn.2 (Entries.mem_of_find? hbelow)).2 h

/-- The names of every directory in a node ascend. -/
def Sorted (n : Node) : Prop :=
  ∀ place entries, nodeAt? place n = some (.dir entries) → Entries.Ascending entries

theorem sorted_file (content : ByteArray) (executable : Bool) :
    (Node.file content executable).Sorted := by
  intro place entries h
  cases place <;> cases h

theorem sorted_dir_iff {entries : Entries Node} :
    (Node.dir entries).Sorted ↔
      entries.Ascending ∧ ∀ name n, entries.find? name = some n → n.Sorted := by
  constructor
  · intro h
    refine ⟨h [] entries rfl, fun name n hn place inner hinner => h (name :: place) inner ?_⟩
    rw [nodeAt?, hn]
    exact hinner
  · rintro ⟨hascending, hbelow⟩ place inner h
    cases place with
    | nil =>
      cases h
      exact hascending
    | cons name rest =>
      obtain ⟨n, hn, h⟩ := Option.bind_eq_some_iff.1 h
      exact hbelow name n hn rest inner h

theorem sorted_emptyDir : (Node.dir []).Sorted :=
  sorted_dir_iff.2 ⟨Entries.ascending_nil, fun _ _ h => by cases h⟩

/-- The order outlasts putting something in place or taking it away. -/
theorem sorted_setAt {value : Option Node} (hvalue : ∀ n, value = some n → n.Sorted) :
    ∀ {names : List String} {entries : Entries Node}, (Node.dir entries).Sorted →
      (Node.dir (setAt value names entries)).Sorted
  | [], _, h => h
  | [name], entries, h => by
    obtain ⟨hascending, hbelow⟩ := sorted_dir_iff.1 h
    cases value with
    | none =>
      refine sorted_dir_iff.2 ⟨hascending.erase, fun other n hn => ?_⟩
      simp only [setAt, Entries.find?_erase] at hn
      split at hn
      · cases hn
      · exact hbelow other n hn
    | some new =>
      refine sorted_dir_iff.2 ⟨hascending.insert, fun other n hn => ?_⟩
      simp only [setAt, Entries.find?_insert] at hn
      split at hn
      · cases hn
        exact hvalue new rfl
      · exact hbelow other n hn
  | name :: next :: more, entries, h => by
    obtain ⟨hascending, hbelow⟩ := sorted_dir_iff.1 h
    rcases hfind : Entries.find? name entries with _ | ⟨_ | inner⟩
    · simpa [setAt, hfind] using h
    · simpa [setAt, hfind] using h
    · have hinner : (Node.dir (setAt value (next :: more) inner)).Sorted :=
        sorted_setAt hvalue (hbelow name _ hfind)
      simp only [setAt, hfind]
      refine sorted_dir_iff.2 ⟨hascending.insert, fun other n hn => ?_⟩
      rw [Entries.find?_insert] at hn
      split at hn
      · cases hn
        exact hinner
      · exact hbelow other n hn

end Node

namespace FileTree

variable {t : FileTree}

/-! ### Trees -/

/-- Every name in the tree is one, and the names of each directory ascend. -/
def WellFormed (t : FileTree) : Prop := (Node.dir t.entries).isWellFormed = true

instance (t : FileTree) : Decidable t.WellFormed := inferInstanceAs (Decidable (_ = true))

/-- The names of every directory ascend. -/
def Sorted (t : FileTree) : Prop := (Node.dir t.entries).Sorted

theorem WellFormed.sorted (h : t.WellFormed) : t.Sorted := by
  intro place entries hentries
  have hdir := Node.isWellFormed_nodeAt? h hentries
  rw [Node.isWellFormed, Bool.and_eq_true, decide_eq_true_eq] at hdir
  exact hdir.1

theorem WellFormed.isName (h : t.WellFormed) {place : List String} {entries : Entries Node}
    (hentries : t.nodeAt? place = some (.dir entries)) {name : String} {n : Node}
    (hmem : (name, n) ∈ entries) : Path.IsName name := by
  have hdir := Node.isWellFormed_nodeAt? h hentries
  rw [Node.isWellFormed, Bool.and_eq_true] at hdir
  exact (Node.wellFormed_of_mem hdir.2 hmem).1

theorem sorted_setAt (h : t.Sorted) (names : List String) {value : Option Node}
    (hvalue : ∀ n, value = some n → n.Sorted) : (t.setAt names value).Sorted := by
  rw [setAt.eq_def]
  split
  · exact hvalue _ rfl
  · exact Node.sorted_setAt hvalue h

theorem sorted_removeDir (h : t.Sorted) (path : String) : (t.removeDir path).1.Sorted := by
  have hemptied : ∀ names, (t.setAt names (some (.dir []))).Sorted := by
    intro names
    refine sorted_setAt h names fun n hn => ?_
    cases hn
    exact Node.sorted_emptyDir
  rw [removeDir]
  split
  · exact h
  · split
    · exact hemptied _
    · exact hemptied _
    · exact hemptied _
    · exact sorted_setAt h _ fun _ hn => by cases hn
    · exact h
    · exact h

end FileTree

end ParamSweep
