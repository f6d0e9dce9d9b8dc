import ParamSweep.Proofs.MakingDirectories
import ParamSweep.Proofs.TaskNumbers

/-!
A manifest that is lost.

Where the manifest of an experiment is missing, loading makes it again from the directories in the
directory of the rendered configurations. `load_of_lost` says what that gives: the names of exactly
these directories, ascending. The order comes from the tree, which holds the names of a directory
ascending, and nothing sorts them again.
-/

namespace ParamSweep

namespace FileTree

variable {t : FileTree}

theorem ofNode_eq_dir_iff {n : Option Node} :
    Sight.ofNode n = .dir ↔ ∃ m, n = some m ∧ m.isDir = true := by
  rcases n with _ | ⟨_ | _⟩ <;> simp [Sight.ofNode, Node.isDir]

/-- Where a file is taken away there is nothing, and nothing else changes. -/
theorem sight_setAt_none {names : List String} (hfile : (t.sight names).IsFile)
    (place : List String) :
    (t.setAt names none).sight place = if place = names then .nothing else t.sight place := by
  obtain ⟨content, executable, hsight⟩ := hfile
  exact sight_setAt_of_bare (sight_dropLast (by simp [hsight])) (by simp [hsight])
    (fun _ _ => rfl) place

/-- Taking a file away leaves the directories as they are. -/
theorem sight_setAt_none_eq_dir_iff {names place : List String} (hfile : (t.sight names).IsFile) :
    (t.setAt names none).sight place = .dir ↔ t.sight place = .dir := by
  rw [sight_setAt_none hfile]
  split
  next hplace =>
    obtain ⟨content, executable, hsight⟩ := hfile
    simp [hplace, hsight]
  · rfl

end FileTree

namespace Manifest

variable {τ : Type} {l : Layout} {t : FileTree}

/-- The directories of runs are found ascending, and all of them. -/
theorem runDirectories_ok (hreach : t.Reaches l.generatedConfigsDir)
    (hdir : t.sight (t.place l.generatedConfigsDir) = .dir) (hsorted : t.Sorted) :
    (runDirectories t l).Pairwise (· < ·) ∧
      ∀ name, name ∈ runDirectories t l ↔
        t.sight (t.place l.generatedConfigsDir ++ [name]) = .dir := by
  obtain ⟨entries, hentries⟩ := FileTree.sight_eq_dir_iff.1 hdir
  have hascending : Entries.Ascending entries := hsorted _ _ hentries
  have hfound : runDirectories t l = (entries.filter (·.2.isDir)).map (·.1) := by
    rw [runDirectories, FileTree.list_eq_ok_iff.2 ⟨hreach, hentries⟩]
  rw [hfound]
  refine ⟨hascending.sublist (List.filter_sublist.map _), fun name => ?_⟩
  rw [FileTree.sight_entry hentries, FileTree.ofNode_eq_dir_iff]
  simp only [hascending.find?_eq_some_iff, List.mem_map, List.mem_filter, Prod.exists,
    exists_and_right, exists_eq_right]

/-- A manifest that is missing is made again with the names of the directories of the runs, if there
are any and they can stand on a line. -/
theorem ensure_of_lost {s : Site τ} (hreach : s.tree.Reaches l.manifestPath)
    (hlost : s.tree.sight (s.tree.place l.manifestPath) = .nothing)
    (hsome : runDirectories s.tree l ≠ [])
    (hfit : ∀ name ∈ runDirectories s.tree l, fitsLine name = true) :
    ∃ s', outcome (ensure l) s = (.ok (.regenerated (runDirectories s.tree l).length), s') ∧
      read s'.tree l = .ok (runDirectories s.tree l) := by
  have hmissing : s.tree.holds l.manifestPath = false := by
    rw [← Bool.not_eq_true, FileTree.holds_iff]
    exact fun h => h.2 hlost
  have hnonempty : (runDirectories s.tree l).isEmpty = false := List.isEmpty_eq_false_iff.2 hsome
  have hfree : s.tree.sight (s.tree.place l.experimentDir ++ [manifestFile]) ≠ .dir := by
    rw [← Layout.place_manifestPath, hlost]
    exact nofun
  obtain ⟨s₁, hwrite⟩ : ∃ s₁, outcome
      (Action.replaceText l.manifestPath (body (runDirectories s.tree l))) s = (.ok ⟨⟩, s₁) :=
    Action.replaceText_join Layout.isName_manifestFile (by decide) hreach hfree
  have hread : read s₁.tree l = .ok (runDirectories s.tree l) :=
    read_of_readText (Action.written_replaceText hwrite).readText hfit
  rw [ensure, outcome_bind, Action.outcome_tree]
  simp only [hmissing, hnonempty, Bool.false_eq_true, if_false]
  rw [outcome_bind, manifestWrite_of_fits l hfit, hwrite]
  exact ⟨_, rfl, hread⟩

/-- Loading a manifest that is missing gives the names of the directories of the runs, ascending. -/
theorem load_of_lost {s : Site τ} (hreach : s.tree.Reaches l.manifestPath)
    (hlost : s.tree.sight (s.tree.place l.manifestPath) = .nothing)
    (hconfigs : s.tree.Reaches l.generatedConfigsDir)
    (hdir : s.tree.sight (s.tree.place l.generatedConfigsDir) = .dir) (hsorted : s.tree.Sorted)
    (hsome : ∃ name, s.tree.sight (s.tree.place l.generatedConfigsDir ++ [name]) = .dir)
    (hfit : ∀ name, s.tree.sight (s.tree.place l.generatedConfigsDir ++ [name]) = .dir →
      fitsLine name = true) :
    ∃ names s', outcome (load l) s = (.ok (names, .regenerated names.length), s') ∧
      names.Pairwise (· < ·) ∧
      ∀ name, name ∈ names ↔
        s.tree.sight (s.tree.place l.generatedConfigsDir ++ [name]) = .dir := by
  obtain ⟨hpairwise, hmem⟩ := runDirectories_ok hconfigs hdir hsorted
  obtain ⟨name, hname⟩ := hsome
  obtain ⟨s', hensure, hread⟩ := ensure_of_lost hreach hlost
    (List.ne_nil_of_mem ((hmem name).2 hname)) fun name hname => hfit name ((hmem name).1 hname)
  refine ⟨runDirectories s.tree l, s', ?_, hpairwise, hmem⟩
  rw [load, outcome_bind, hensure]
  simp only
  rw [outcome_bind, Action.outcome_look, hread]
  rfl

end Manifest

end ParamSweep
