import ParamSweep.Proofs.MakingDirectories

/-!
What putting things into a tree one after the other leaves of it.

An `Item` is a directory or a file at a path. When a list of items has been put into a tree, every
place looks as the list says and not otherwise (`Lays`): it holds the file that was last written
there, or is a directory on the way to one of the items, or looks as it did before. So what is there
afterwards is known place by place, without the operations that made it.
-/

namespace ParamSweep

/-- Something that is put into a tree. -/
inductive Item where
  | dir (path : String)
  | file (path : String) (content : ByteArray) (executable : Bool)

/-- The path at which it is put. -/
def Item.path : Item → String
  | .dir path => path
  | .file path _ _ => path

/-- How a place looks for a file that is put there. -/
def Item.fileAt? (t : FileTree) (place : List String) : Item → Option Sight
  | .dir _ => none
  | .file path content executable =>
    if t.place path = place then some (.file content executable) else none

namespace FileTree

variable {t t' t'' : FileTree} {items more : List Item} {place : List String}

/-- How a place looks for the last file that is put there, if there is one. -/
def lastFile? (t : FileTree) (items : List Item) (place : List String) : Option Sight :=
  items.reverse.findSome? (·.fileAt? t place)

theorem lastFile?_append :
    t.lastFile? (items ++ more) place = (t.lastFile? more place).or (t.lastFile? items place) := by
  rw [lastFile?, List.reverse_append, List.findSome?_append]
  rfl

theorem lastFile?_congr (h : t'.workingDir = t.workingDir) (items : List Item) :
    t'.lastFile? items = t.lastFile? items := by
  funext place
  have hsame : (fun item : Item => item.fileAt? t' place) = fun item => item.fileAt? t place := by
    funext item
    cases item <;> simp only [Item.fileAt?, place_congr h]
  rw [lastFile?, lastFile?, hsame]

/-- What a place looks like for the last file is due to one of the items. -/
theorem mem_of_lastFile? {look : Sight} (h : t.lastFile? items place = some look) :
    ∃ path content executable, Item.file path content executable ∈ items ∧
      t.place path = place ∧ look = .file content executable := by
  obtain ⟨item, hmem, hitem⟩ := List.exists_of_findSome?_eq_some h
  cases item with
  | dir path => cases hitem
  | file path content executable =>
    rw [Item.fileAt?] at hitem
    split at hitem
    next hplace =>
      cases hitem
      exact ⟨path, content, executable, List.mem_reverse.1 hmem, hplace, rfl⟩
    · cases hitem

/-- Where a file is put, some file is the last one. -/
theorem exists_lastFile? (t : FileTree) {path : String} {content : ByteArray} {executable : Bool}
    (h : Item.file path content executable ∈ items) :
    ∃ look, t.lastFile? items (t.place path) = some look := by
  rw [← Option.ne_none_iff_exists', lastFile?, Ne, List.findSome?_eq_none_iff]
  intro hnone
  have hitem := hnone _ (List.mem_reverse.2 h)
  rw [Item.fileAt?, if_pos rfl] at hitem
  cases hitem

/-- A place that the path of an item leads through or to. -/
def OnWayTo (t : FileTree) (items : List Item) (place : List String) : Prop :=
  ∃ item ∈ items, t.OnWay item.path place

theorem onWayTo_append :
    t.OnWayTo (items ++ more) place ↔ t.OnWayTo items place ∨ t.OnWayTo more place := by
  simp only [OnWayTo, List.mem_append, or_and_right, exists_or]

theorem OnWayTo.congr (h : t.OnWayTo items place) (hdir : t'.workingDir = t.workingDir) :
    t'.OnWayTo items place := by
  obtain ⟨item, hitem, hway⟩ := h
  exact ⟨item, hitem, hway.congr hdir⟩

theorem onWayTo_of_lastFile? {look : Sight} (h : t.lastFile? items place = some look) :
    t.OnWayTo items place := by
  obtain ⟨path, content, executable, hmem, rfl, -⟩ := mem_of_lastFile? h
  exact ⟨_, hmem, t.onWay_place path⟩

/-- The items have been put into a tree, one after the other. -/
structure Lays (items : List Item) (t t' : FileTree) : Prop where
  adds : Adds (fun _ => True) t t'
  sorted : t.Sorted → t'.Sorted
  reaches : ∀ item ∈ items, t'.Reaches item.path
  dirs : ∀ path, Item.dir path ∈ items → t'.sight (t'.place path) = .dir
  written : ∀ {place look}, t.lastFile? items place = some look → t'.sight place = look
  made : ∀ {place}, t.lastFile? items place = none → t.OnWayTo items place →
    t'.sight place = .dir
  kept : ∀ {place}, t.lastFile? items place = none → ¬ t.OnWayTo items place →
    t'.sight place = t.sight place

namespace Lays

theorem refl (t : FileTree) : Lays [] t t :=
  ⟨Adds.refl _ _, id, nofun, nofun, nofun, fun _ ⟨_, hmem, _⟩ => (nomatch hmem), fun _ _ => rfl⟩

/-- A file that is there stays one, and so is not on the way to anything that is put there later. -/
theorem append (h : Lays items t t') (h' : Lays more t' t'') : Lays (items ++ more) t t'' := by
  have hwork := h.adds.workingDir
  have hlast : t'.lastFile? more = t.lastFile? more := lastFile?_congr hwork more
  have hway : ∀ {place}, t'.OnWayTo more place ↔ t.OnWayTo more place :=
    ⟨fun hw => hw.congr hwork.symm, fun hw => hw.congr hwork⟩
  refine ⟨h.adds.trans h'.adds, h'.sorted ∘ h.sorted, ?_, ?_, ?_, ?_, ?_⟩
  · intro item hitem
    rcases List.mem_append.1 hitem with hitem | hitem
    · exact h'.adds.reaches (h.reaches item hitem)
    · exact h'.reaches item hitem
  · intro path hpath
    rcases List.mem_append.1 hpath with hpath | hpath
    · rw [h'.adds.place]
      exact h'.adds.dir (h.dirs path hpath)
    · exact h'.dirs path hpath
  · intro place look hlook
    rw [lastFile?_append, ← hlast] at hlook
    rcases hmore : t'.lastFile? more place with _ | later <;> rw [hmore] at hlook
    · rw [Option.none_or] at hlook
      have hsight := h.written hlook
      obtain ⟨_, content, executable, -, -, rfl⟩ := mem_of_lastFile? hlook
      by_cases hnext : t'.OnWayTo more place
      · obtain ⟨_, _, hfile⟩ := h'.adds.isFile ⟨content, executable, hsight⟩
        rw [h'.made hmore hnext] at hfile
        cases hfile
      · rw [h'.kept hmore hnext, hsight]
    · cases hlook
      exact h'.written hmore
  · intro place hnone hboth
    rw [lastFile?_append, Option.or_eq_none_iff, ← hlast] at hnone
    rw [onWayTo_append, ← hway] at hboth
    by_cases hnext : t'.OnWayTo more place
    · exact h'.made hnone.1 hnext
    · rw [h'.kept hnone.1 hnext]
      exact h.made hnone.2 (hboth.resolve_right hnext)
  · intro place hnone hneither
    rw [lastFile?_append, Option.or_eq_none_iff, ← hlast] at hnone
    rw [onWayTo_append, not_or, ← hway] at hneither
    rw [h'.kept hnone.1 hneither.2, h.kept hnone.2 hneither.1]

/-- Where a file has been put there is one. -/
theorem isFile (h : Lays items t t') {path : String} {content : ByteArray} {executable : Bool}
    (hmem : Item.file path content executable ∈ items) : (t'.sight (t'.place path)).IsFile := by
  obtain ⟨look, hlook⟩ := t.exists_lastFile? hmem
  obtain ⟨_, content', executable', -, -, rfl⟩ := mem_of_lastFile? hlook
  rw [h.adds.place]
  exact ⟨content', executable', h.written hlook⟩

/-- Every directory was there before or is on the way to an item. -/
theorem dir_or_onWayTo (h : Lays items t t') (hdir : t'.sight place = .dir) :
    t.sight place = .dir ∨ t.OnWayTo items place := by
  rcases hlast : t.lastFile? items place with _ | look
  · by_cases hway : t.OnWayTo items place
    · exact .inr hway
    · rw [h.kept hlast hway] at hdir
      exact .inl hdir
  · obtain ⟨_, _, _, -, -, rfl⟩ := mem_of_lastFile? hlast
    rw [h.written hlast] at hdir
    cases hdir

end Lays

/-! ### Single items -/

theorem onWayTo_singleton {item : Item} :
    t.OnWayTo [item] place ↔ t.OnWay item.path place := by
  simp [OnWayTo]

/-- Everything on the way to what a path reaches is a directory, short of its end. -/
theorem Reaches.sight_of_onWay {path : String} (h : t.Reaches path) (hway : t.OnWay path place)
    (hne : place ≠ t.place path) : t.sight place = .dir := by
  obtain ⟨front, ⟨behind, hparts⟩, rfl⟩ := hway
  refine h.sight_walk hparts.symm fun hnil => hne ?_
  rw [FileTree.place, ← hparts, hnil, List.append_nil]

/-- What has been added without a new directory off the way has been kept off the way. -/
theorem Builds.sight_of_not_onWay {A M : List String → Prop} (h : Builds M t t') (hadds : Adds A t t')
    (hA : ¬ A place) (hM : ¬ M place) : t'.sight place = t.sight place := by
  rcases hadds.sight place with heq | ⟨hnothing, hdir⟩ | ⟨hA', -⟩
  · exact heq
  · rcases h.made hdir with hdir' | hM'
    · rw [hnothing] at hdir'
      cases hdir'
    · exact absurd hM' hM
  · exact absurd hA' hA

theorem lays_dir {path : String} (hbuilds : Builds (t.OnWay path) t t')
    (hadds : Adds (fun _ => False) t t') (hreach : t'.Reaches path)
    (hdir : t'.sight (t'.place path) = .dir) : Lays [.dir path] t t' := by
  refine ⟨hbuilds.adds, hbuilds.sorted, by simpa [Item.path] using hreach, by simpa using hdir,
    nofun, ?_, ?_⟩
  · intro place _ hway
    rw [onWayTo_singleton] at hway
    by_cases hend : place = t'.place path
    · rw [hend, hdir]
    · exact hreach.sight_of_onWay (hway.congr hbuilds.adds.workingDir) hend
  · intro place _ hway
    rw [onWayTo_singleton] at hway
    exact hbuilds.sight_of_not_onWay hadds id hway

theorem lays_file {path : String} {content : ByteArray} {executable : Bool}
    (hbuilds : Builds (t.OnWay path) t t') (hwritten : Written path content executable t t') :
    Lays [.file path content executable] t t' := by
  have hlast : ∀ {place}, t.lastFile? [.file path content executable] place =
      if t.place path = place then some (.file content executable) else none := by
    intro place
    rw [lastFile?, List.reverse_singleton, List.findSome?_singleton, Item.fileAt?]
  refine ⟨hbuilds.adds, hbuilds.sorted, by simpa [Item.path] using hwritten.reaches, by simp, ?_, ?_,
    ?_⟩
  · intro place look hlook
    rw [hlast] at hlook
    split at hlook
    next hplace =>
      cases hlook
      rw [← hplace, hwritten.sight]
    · cases hlook
  · intro place hnone hway
    rw [hlast, ite_eq_right_iff] at hnone
    rw [onWayTo_singleton] at hway
    refine hwritten.reaches.sight_of_onWay (hway.congr hbuilds.adds.workingDir) fun hend => ?_
    rw [hwritten.adds.place] at hend
    cases hnone hend.symm
  · intro place hnone hway
    rw [hlast, ite_eq_right_iff] at hnone
    rw [onWayTo_singleton] at hway
    refine hbuilds.sight_of_not_onWay hwritten.adds (fun hend => ?_) hway
    cases hnone hend.symm

end FileTree

namespace Action

variable {τ : Type} {s s' : Site τ} {u : Unit}

theorem lays_ensureDir {path : String} (hne : path ≠ "")
    (h : outcome (ensureDir path) s = (.ok u, s')) : FileTree.Lays [.dir path] s.tree s'.tree := by
  obtain ⟨hreach, hdir⟩ := ensureDir_ok hne h
  exact FileTree.lays_dir
    ((keeps_builds_ensureDir fun _ => id).after (FileTree.Builds.refl _ _) h)
    ((keeps_adds_ensureDir s.tree path).after (FileTree.Adds.refl _ _) h) hreach hdir

theorem lays_replaceText {path text : String}
    (h : outcome (replaceText path text) s = (.ok u, s')) :
    FileTree.Lays [.file path text.toUTF8 false] s.tree s'.tree :=
  FileTree.lays_file ((keeps_builds_replaceText fun _ => id).after (FileTree.Builds.refl _ _) h)
    (written_replaceText h)

end Action

end ParamSweep
