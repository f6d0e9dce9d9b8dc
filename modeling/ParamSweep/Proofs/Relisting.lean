import ParamSweep.Proofs.Tables
import ParamSweep.Proofs.TreeChange
import ParamSweep.Tasks.LogIndex

/-!
Directories that are listed in another order.

A directory holds names, and the order in which they are listed is nothing to rely on: two trees
hold the same if the one is the other with the entries of some directories in another order
(`FileTree.Relisted`). Everything that is found by a path is the same in both, and a directory lists
the same names in another order.
-/

namespace ParamSweep

namespace Entries

variable {α : Type} {t t' : Entries α}

theorem nodup_keys_of_perm (hnodup : t.keys.Nodup) (h : List.Perm t t') : t'.keys.Nodup :=
  (List.Perm.map (fun p : String × α => p.1) h).nodup_iff.1 hnodup

/-- In which order a table holds its keys is all the same to who looks for one of them. -/
theorem find?_perm (hnodup : t.keys.Nodup) (h : List.Perm t t') (key : String) :
    t.find? key = t'.find? key := by
  refine Option.ext fun value => ?_
  rw [find?_eq_some_iff_of_nodup hnodup, find?_eq_some_iff_of_nodup (nodup_keys_of_perm hnodup h),
    h.mem_iff]

end Entries

namespace Node

/-- The same files in the same directories, the entries of each perhaps in another order. -/
inductive Relisted : Node → Node → Prop
  | refl (n : Node) : Relisted n n
  | entries {entries entries' : Entries Node} (hnodup : entries.keys.Nodup)
      (h : List.Perm entries entries') : Relisted (.dir entries) (.dir entries')
  | inside {n n' : Node} (front : List (String × Node)) (name : String)
      (behind : List (String × Node)) (h : Relisted n n') :
      Relisted (.dir (front ++ (name, n) :: behind)) (.dir (front ++ (name, n') :: behind))
  | trans {n n' n'' : Node} (h : Relisted n n') (h' : Relisted n' n'') : Relisted n n''

/-- What a directory lists: its names, and which of them are directories. -/
def listing : Node → List (String × Bool)
  | .dir entries => entries.map fun p => (p.1, p.2.isDir)
  | .file _ _ => []

namespace Relisted

variable {n n' : Node}

theorem symm (h : Relisted n n') : Relisted n' n := by
  induction h with
  | refl n => exact .refl n
  | entries hnodup h => exact .entries (Entries.nodup_keys_of_perm hnodup h) h.symm
  | inside front name behind _ ih => exact .inside front name behind ih
  | trans _ _ ih ih' => exact ih'.trans ih

theorem ofNode_eq (h : Relisted n n') : Sight.ofNode (some n) = Sight.ofNode (some n') := by
  induction h with
  | refl _ => rfl
  | entries _ _ => rfl
  | inside _ _ _ _ _ => rfl
  | trans _ _ ih ih' => exact ih.trans ih'

theorem isDir_eq (h : Relisted n n') : n.isDir = n'.isDir := by
  induction h with
  | refl _ => rfl
  | entries _ _ => rfl
  | inside _ _ _ _ _ => rfl
  | trans _ _ ih ih' => exact ih.trans ih'

theorem listing_perm (h : Relisted n n') : n.listing.Perm n'.listing := by
  induction h with
  | refl n => exact .refl _
  | entries _ h => exact h.map _
  | inside front name behind h _ =>
    rw [listing, listing, List.map_append, List.map_append, List.map_cons, List.map_cons,
      h.isDir_eq]
  | trans _ _ ih ih' => exact ih.trans ih'

theorem rel_refl (o : Option Node) : Option.Rel Relisted o o := by
  cases o with
  | none => exact .none
  | some n => exact .some (.refl n)

theorem rel_trans {o o' o'' : Option Node} (h : Option.Rel Relisted o o')
    (h' : Option.Rel Relisted o' o'') : Option.Rel Relisted o o'' := by
  cases h with
  | none => exact h'
  | some h =>
    cases h' with
    | some h' => exact .some (h.trans h')

/-- Names lead to the same in both, in which the order is perhaps another one again. -/
theorem nodeAt? (h : Relisted n n') (place : List String) :
    Option.Rel Relisted (Node.nodeAt? place n) (Node.nodeAt? place n') := by
  induction h generalizing place with
  | refl n => exact rel_refl _
  | entries hnodup h =>
    cases place with
    | nil => exact .some (.entries hnodup h)
    | cons first rest =>
      rw [Node.nodeAt?, Node.nodeAt?, Entries.find?_perm hnodup h]
      exact rel_refl _
  | inside front name behind h ih =>
    cases place with
    | nil => exact .some (.inside front name behind h)
    | cons first rest =>
      rw [Node.nodeAt?, Node.nodeAt?, Entries.find?_append, Entries.find?_append, Entries.find?,
        Entries.find?]
      cases Entries.find? first front with
      | some below => exact rel_refl _
      | none =>
        by_cases hname : name = first
        · rw [if_pos hname, if_pos hname]
          exact ih rest
        · rw [if_neg hname, if_neg hname]
          exact rel_refl _
  | trans _ _ ih ih' => exact rel_trans (ih place) (ih' place)

end Relisted

end Node

namespace FileTree

variable {t t' : FileTree}

/-- The same files seen from the same directory, listed perhaps in another order. -/
structure Relisted (t t' : FileTree) : Prop where
  workingDir : t'.workingDir = t.workingDir
  root : Node.Relisted (.dir t.entries) (.dir t'.entries)

namespace Relisted

theorem symm (h : t.Relisted t') : t'.Relisted t := ⟨h.workingDir.symm, h.root.symm⟩

theorem sight (h : t.Relisted t') (place : List String) : t'.sight place = t.sight place := by
  rw [FileTree.sight, FileTree.sight, FileTree.nodeAt?, FileTree.nodeAt?]
  have hrel := h.root.nodeAt? place
  generalize Node.nodeAt? place (.dir t.entries) = seen at hrel ⊢
  generalize Node.nodeAt? place (.dir t'.entries) = seen' at hrel ⊢
  cases hrel with
  | none => rfl
  | some hrel => exact hrel.ofNode_eq.symm

theorem reaches (h : t.Relisted t') {path : String} (hreach : t.Reaches path) : t'.Reaches path :=
  hreach.mono h.workingDir fun place hdir => by rw [h.sight, hdir]

theorem isDir (h : t.Relisted t') (path : String) : t'.isDir path = t.isDir path := by
  rw [Bool.eq_iff_iff, isDir_iff, isDir_iff, place_congr h.workingDir, h.sight]
  exact and_congr_left' ⟨h.symm.reaches, h.reaches⟩

theorem list (h : t.Relisted t') {path : String} {entries : Entries Node}
    (hlist : t.list path = .ok entries) :
    ∃ entries', t'.list path = .ok entries' ∧
      (Node.dir entries).listing.Perm (Node.dir entries').listing := by
  obtain ⟨hreach, hnode⟩ := list_eq_ok_iff.1 hlist
  obtain ⟨entries', hnode'⟩ := sight_eq_dir_iff.1
    ((h.sight (t.place path)).trans (sight_eq_dir_iff.2 ⟨entries, hnode⟩))
  have hrel := h.root.nodeAt? (t.place path)
  rw [FileTree.nodeAt?] at hnode hnode'
  rw [hnode, hnode'] at hrel
  cases hrel with
  | some hrel =>
    refine ⟨entries', list_eq_ok_iff.2 ⟨h.reaches hreach, ?_⟩, hrel.listing_perm⟩
    rwa [place_congr h.workingDir]

theorem directoryNames_perm (h : t.Relisted t') (path : String) :
    (directoryNames t path).Perm (directoryNames t' path) := by
  have hnames : ∀ {u : FileTree} {entries : Entries Node}, u.list path = .ok entries →
      directoryNames u path = ((Node.dir entries).listing.filter (·.2)).map (·.1) := by
    intro u entries hlist
    rw [directoryNames, hlist, Node.listing, List.filter_map, List.map_map]
    rfl
  rcases hlist : t.list path with fault | entries
  · rcases hlist' : t'.list path with fault' | entries'
    · rw [directoryNames, directoryNames, hlist, hlist']
    · obtain ⟨entries, hok, -⟩ := h.symm.list hlist'
      rw [hlist] at hok
      cases hok
  · obtain ⟨entries', hlist', hperm⟩ := h.list hlist
    rw [hnames hlist, hnames hlist']
    exact (hperm.filter _).map _

end Relisted

end FileTree

end ParamSweep
