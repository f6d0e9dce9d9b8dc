import Mathlib.Data.List.Sort
import ParamSweep.Proofs.LostManifest

/-!
Trees that differ below a place.

`ChangedBelow place t t'` says that whatever happened between two trees happened below a place: all
other places look as before. Who follows a path that keeps clear of that place (`KeepsClear`) meets
the same directories and the same faults in both trees. So what is read there is the same, what is
written there is written in both, and the trees afterwards still differ below that place only.
-/

namespace ParamSweep

/-- What is read at a sight. -/
def Sight.read : Sight → Except FileFault ByteArray
  | .file content _ => .ok content
  | .dir => .error .isDirectory
  | .nothing => .error .notFound

namespace FileTree

variable {t t' u u' : FileTree} {place : List String} {path : String}

/-- Whatever is different is below a place. At the place itself there may be a directory or nothing,
before and afterwards; a file stays as it is. -/
structure ChangedBelow (place : List String) (t t' : FileTree) : Prop where
  workingDir : t'.workingDir = t.workingDir
  sight : ∀ other, ¬ place <+: other → t'.sight other = t.sight other
  file : ∀ content executable,
    t'.sight place = .file content executable ↔ t.sight place = .file content executable

/-- The way of a path does not lead to a place or through it. -/
def KeepsClear (t : FileTree) (path : String) (place : List String) : Prop :=
  ∀ on, t.OnWay path on → ¬ place <+: on

namespace ChangedBelow

theorem symm (h : ChangedBelow place t t') : ChangedBelow place t' t :=
  ⟨h.workingDir.symm, fun other hother => (h.sight other hother).symm,
    fun content executable => (h.file content executable).symm⟩

theorem start (h : ChangedBelow place t t') (path : String) : t'.start path = t.start path := by
  rw [FileTree.start, FileTree.start, h.workingDir]

theorem keepsClear (h : ChangedBelow place t t') {other : List String}
    (hclear : t.KeepsClear path other) : t'.KeepsClear path other :=
  fun on hon => hclear on (hon.congr h.workingDir.symm)

end ChangedBelow

/-- What is set strictly below a place is a change below it. -/
theorem changedBelow_setAt {names : List String} (hbelow : place <+: names) (hne : names ≠ place)
    (value : Option Node) : ChangedBelow place t (t.setAt names value) := by
  have hat : ¬ names <+: place := fun h =>
    hne (hbelow.eq_of_length_le h.length_le).symm
  refine ⟨setAt_workingDir _ _, fun other hother => ?_, fun content executable => ?_⟩
  · exact sight_setAt_other value fun hnames => hother (hbelow.trans hnames)
  · rw [sight_setAt_other value hat]

/-! ### The way of a path -/

theorem KeepsClear.of_parent (h : t.KeepsClear path place) (hne : Path.parent path ≠ "") :
    t.KeepsClear (Path.parent path) place :=
  fun on hon => h on (hon.of_parent hne)

theorem KeepsClear.walk (h : t.KeepsClear path place) {front : List String}
    (hfront : front <+: Path.parts path) : ¬ place <+: Path.walk (t.start path) front :=
  h _ ⟨front, hfront, rfl⟩

/-- A path without `..` keeps clear of every place that it does not lead to or below. -/
theorem keepsClear_of_not_prefix (hup : ".." ∉ Path.parts path) (h : ¬ place <+: t.place path) :
    t.KeepsClear path place :=
  fun _ hon hplace => h (hplace.trans (hon.prefix_place hup))

/-- Following a name depends on what can be seen at the place where it is looked up. -/
theorem follow_cons (t : FileTree) (here : List String) (part : String) (rest : List String) :
    t.follow here (part :: rest) =
      match t.sight here with
      | .dir =>
        if part = "." ∨ part = ".." ∨ part.utf8ByteSize ≤ maxName then
          t.follow (Path.step here part) rest
        else .error .nameTooLong
      | .file _ _ => .error .notDirectory
      | .nothing => .error .notFound := by
  rw [follow, sight]
  rcases t.nodeAt? here with _ | ⟨_ | _⟩
  · rfl
  · rfl
  · by_cases hdot : part = "."
    · simp [Sight.ofNode, Path.step, hdot]
    · by_cases hdots : part = ".."
      · simp [Sight.ofNode, Path.step, hdots]
      · by_cases hlong : maxName < part.utf8ByteSize
        · simp [Sight.ofNode, hdot, hdots, hlong, Nat.not_le.2 hlong]
        · simp [Sight.ofNode, Path.step, hdot, hdots, hlong, Nat.not_lt.1 hlong]

/-- Names are followed alike if every directory that one of them is looked up in is elsewhere. -/
theorem follow_of_changedBelow (h : ChangedBelow place t t') {here names : List String}
    (hclear : ∀ front behind, names = front ++ behind → behind ≠ [] →
      ¬ place <+: Path.walk here front) : t'.follow here names = t.follow here names := by
  induction names generalizing here with
  | nil => rfl
  | cons part rest ih =>
    have hhere : t'.sight here = t.sight here :=
      h.sight here (hclear [] (part :: rest) rfl (List.cons_ne_nil _ _))
    have hrest : t'.follow (Path.step here part) rest = t.follow (Path.step here part) rest :=
      ih fun front behind hnames hne => hclear (part :: front) behind (by rw [hnames]; rfl) hne
    rw [follow_cons, follow_cons, hhere, hrest]

theorem resolve_of_changedBelow (h : ChangedBelow place t t') (hclear : t.KeepsClear path place) :
    t'.resolve path = t.resolve path := by
  rw [resolve, resolve, h.start]
  split
  · rfl
  · refine follow_of_changedBelow h fun front behind hnames hne => hclear.walk ?_
    split at hnames
    · -- the point that a slash at the end stands for is looked up where the names lead
      exact Path.prefix_of_concat_eq hnames hne
    · rw [List.append_nil] at hnames
      exact ⟨behind, hnames.symm⟩

/-- The last name of a path is looked up in the directory that it is in, wherever it leads. -/
theorem resolve_join_of_changedBelow (h : ChangedBelow place t t') {dir name : String}
    (hname : Path.IsName name) (hclear : t.KeepsClear dir place) :
    t'.resolve (Path.join dir name) = t.resolve (Path.join dir name) := by
  rw [resolve, resolve, h.start, t.start_join dir hname.isAbsolute, hname.join_endsWith dir,
    Path.parts_join dir hname.isAbsolute, hname.parts]
  split
  · rfl
  · refine follow_of_changedBelow h fun front behind hnames hne => hclear.walk ?_
    exact Path.prefix_of_concat_eq (by simpa using hnames) hne

/-! ### Reading -/

/-- Reading a file depends on what can be seen where its path leads. -/
theorem readBytes_eq (t : FileTree) (path : String) :
    t.readBytes path = (do (t.sight (← t.resolve path)).read) := by
  rw [readBytes, node]
  rcases t.resolve path with fault | names
  · rfl
  · simp only [except_ok_bind, sight]
    rcases t.nodeAt? names with _ | ⟨_ | _⟩ <;> rfl

theorem sight_of_changedBelow (h : ChangedBelow place t t') (hclear : t.KeepsClear path place) :
    t'.sight (t.place path) = t.sight (t.place path) :=
  h.sight _ (hclear _ (t.onWay_place path))

theorem readBytes_of_changedBelow (h : ChangedBelow place t t')
    (hclear : t.KeepsClear path place) : t'.readBytes path = t.readBytes path := by
  rw [readBytes_eq, readBytes_eq, resolve_of_changedBelow h hclear]
  rcases hresolve : t.resolve path with fault | names
  · rfl
  · obtain ⟨-, rfl⟩ := resolve_eq_ok_iff.1 hresolve
    rw [except_ok_bind, except_ok_bind, sight_of_changedBelow h hclear]

theorem readText_of_changedBelow (h : ChangedBelow place t t')
    (hclear : t.KeepsClear path place) : t'.readText path = t.readText path := by
  rw [readText, readText, readBytes_of_changedBelow h hclear]

theorem reaches_of_changedBelow (h : ChangedBelow place t t') (hclear : t.KeepsClear path place)
    (hreach : t.Reaches path) : t'.Reaches path := by
  have hresolve := resolve_of_changedBelow h hclear
  rw [resolve_eq_ok_iff.2 ⟨hreach, rfl⟩] at hresolve
  exact (resolve_eq_ok_iff.1 hresolve).1

theorem holds_of_changedBelow (h : ChangedBelow place t t') (hclear : t.KeepsClear path place) :
    t'.holds path = t.holds path := by
  rw [Bool.eq_iff_iff, holds_iff, holds_iff, place_congr h.workingDir,
    sight_of_changedBelow h hclear]
  refine and_congr_left' ⟨?_, reaches_of_changedBelow h hclear⟩
  exact reaches_of_changedBelow h.symm (h.keepsClear hclear)

/-- What can be listed in one tree can be listed in the other, with other entries perhaps. -/
theorem list_of_changedBelow (h : ChangedBelow place t t') (hclear : t.KeepsClear path place)
    {entries : Entries Node} (hlist : t.list path = .ok entries) :
    ∃ entries', t'.list path = .ok entries' := by
  obtain ⟨hreach, hnode⟩ := list_eq_ok_iff.1 hlist
  have hsight : t'.sight (t'.place path) = .dir := by
    rw [place_congr h.workingDir, sight_of_changedBelow h hclear]
    exact sight_eq_dir_iff.2 ⟨entries, hnode⟩
  obtain ⟨entries', hnode'⟩ := sight_eq_dir_iff.1 hsight
  exact ⟨entries', list_eq_ok_iff.2 ⟨reaches_of_changedBelow h hclear hreach, hnode'⟩⟩

/-! ### Making directories and writing files -/

/-- Putting one thing in the same place of both trees keeps them alike elsewhere. -/
theorem ChangedBelow.setAt (h : ChangedBelow place t t') {names : List String} (hne : names ≠ [])
    (hparent : t.sight names.dropLast = .dir) (hparent' : t'.sight names.dropLast = .dir)
    (value : Option Node) : ChangedBelow place (t.setAt names value) (t'.setAt names value) := by
  have hlook : ∀ other, t'.sight other = t.sight other →
      (t'.setAt names value).sight other = (t.setAt names value).sight other := by
    intro other hother
    by_cases hnames : names <+: other
    · obtain ⟨rest, rfl⟩ := hnames
      rw [sight_setAt_append value hne hparent, sight_setAt_append value hne hparent']
    · rw [sight_setAt_other value hnames, sight_setAt_other value hnames, hother]
  refine ⟨?_, fun other hother => hlook other (h.sight other hother), ?_⟩
  · rw [setAt_workingDir, setAt_workingDir, h.workingDir]
  · intro content executable
    by_cases hnames : names <+: place
    · obtain ⟨rest, hrest⟩ := hnames
      rw [← hrest, sight_setAt_append value hne hparent, sight_setAt_append value hne hparent']
    · rw [sight_setAt_other value hnames, sight_setAt_other value hnames]
      exact h.file content executable

/-- Two answers agree if they are the same fault, or trees that still differ below the place
only. -/
inductive AnswersAgree (place : List String) :
    Except FileFault FileTree → Except FileFault FileTree → Prop
  | ok {made made' : FileTree} : ChangedBelow place made made' →
      AnswersAgree place (.ok made) (.ok made')
  | error (fault : FileFault) : AnswersAgree place (.error fault) (.error fault)

/-- What making a directory does depends on what can be seen at its place. -/
theorem makeDir_eq (t : FileTree) (path : String) :
    t.makeDir path =
      (match pathFault? path with
        | some fault => .error fault
        | none => do
          let names ← t.follow (t.start path) (Path.parts path)
          match t.sight names with
          | .dir => .ok t
          | .file _ _ => .error .alreadyThere
          | .nothing => .ok (t.setAt names (some (.dir [])))) := by
  rw [makeDir]
  rcases pathFault? path with _ | fault
  · rcases t.follow (t.start path) (Path.parts path) with fault | names
    · rfl
    · simp only [except_ok_bind, sight]
      rcases t.nodeAt? names with _ | ⟨_ | _⟩ <;> rfl
  · rfl

theorem answersAgree_makeDir (h : ChangedBelow place t t') (hclear : t.KeepsClear path place) :
    AnswersAgree place (t.makeDir path) (t'.makeDir path) := by
  have hfollow : t'.follow (t.start path) (Path.parts path) =
      t.follow (t.start path) (Path.parts path) :=
    follow_of_changedBelow h fun front behind hnames _ => hclear.walk ⟨behind, hnames.symm⟩
  rw [makeDir_eq, makeDir_eq, h.start, hfollow]
  rcases hpath : pathFault? path with _ | fault
  · rcases hnames : t.follow (t.start path) (Path.parts path) with fault | names
    · exact .error _
    · rw [hnames] at hfollow
      obtain ⟨hpass, rfl⟩ := follow_eq_ok_iff.1 hnames
      obtain ⟨hpass', -⟩ := follow_eq_ok_iff.1 hfollow
      have hplace : Path.walk (t.start path) (Path.parts path) = t.place path := rfl
      simp only [except_ok_bind]
      rw [hplace, sight_of_changedBelow h hclear]
      rcases hthere : t.sight (t.place path) with _ | ⟨content, executable⟩ | _
      · have hne : t.place path ≠ [] := by
          intro hnil
          rw [hnil] at hthere
          cases hthere
        have hparent' := parent_of_passable (t := t') hpath (by rw [h.start]; exact hpass')
        rw [place_congr h.workingDir] at hparent'
        exact .ok (h.setAt hne (parent_of_passable hpath hpass) hparent' _)
      · exact .error _
      · exact .ok h
  · exact .error _

/-- Two trees have been changed alike, with the same fault or none. -/
structure MadeAlike (place : List String) (m m' : FileTree × Option FileFault) : Prop where
  tree : ChangedBelow place m.1 m'.1
  fault : m'.2 = m.2

/-- A tree after an attempt to change it: where there is a fault, it stays as it was. -/
def attempted (t : FileTree) : Except FileFault FileTree → FileTree × Option FileFault
  | .ok made => (made, none)
  | .error fault => (t, some fault)

/-- A directory is made once more, if those that it lies in could be made. -/
def madeAfter (path : String) : FileTree × Option FileFault → FileTree × Option FileFault
  | (t, some fault) => (t, some fault)
  | (t, none) => t.attempted (t.makeDir path)

theorem makeDirsWithin_succ (fuel : Nat) (t : FileTree) (hpath : path ≠ "") :
    makeDirsWithin (fuel + 1) t path =
      match t.makeDir path with
      | .error .notFound => madeAfter path (makeDirsWithin fuel t (Path.parent path))
      | answer => t.attempted answer := by
  rw [makeDirsWithin, if_neg hpath]
  rcases t.makeDir path with fault | made
  · cases fault with
    | notFound =>
      rcases makeDirsWithin fuel t (Path.parent path) with ⟨u, _ | fault⟩
      · simp only [madeAfter]
        rcases u.makeDir path with fault | made <;> rfl
      · rfl
    | _ => rfl
  · rfl

theorem MadeAlike.attempted (h : ChangedBelow place t t')
    {answer answer' : Except FileFault FileTree}
    (hanswers : AnswersAgree place answer answer') :
    MadeAlike place (t.attempted answer) (t'.attempted answer') := by
  cases hanswers with
  | ok hmade => exact ⟨hmade, rfl⟩
  | error => exact ⟨h, rfl⟩

theorem MadeAlike.madeAfter {m m' : FileTree × Option FileFault} (h : MadeAlike place m m')
    (hclear : m.1.KeepsClear path place) :
    MadeAlike place (madeAfter path m) (madeAfter path m') := by
  obtain ⟨u, fault⟩ := m
  obtain ⟨u', fault'⟩ := m'
  obtain rfl : fault' = fault := h.fault
  cases fault' with
  | none => exact .attempted h.tree (answersAgree_makeDir h.tree hclear)
  | some fault => exact h

theorem makeDirsWithin_of_changedBelow (fuel : Nat) (h : ChangedBelow place t t')
    (hclear : t.KeepsClear path place) :
    MadeAlike place (makeDirsWithin fuel t path) (makeDirsWithin fuel t' path) := by
  induction fuel generalizing path with
  | zero => exact ⟨h, rfl⟩
  | succ fuel ih =>
    by_cases hempty : path = ""
    · rw [makeDirsWithin, makeDirsWithin, if_pos hempty, if_pos hempty]
      exact ⟨h, rfl⟩
    · have hmake := answersAgree_makeDir h hclear
      rw [makeDirsWithin_succ fuel t hempty, makeDirsWithin_succ fuel t' hempty]
      generalize t.makeDir path = answer at hmake ⊢
      generalize t'.makeDir path = answer' at hmake ⊢
      rcases hmake with hmade | fault
      · exact ⟨hmade, rfl⟩
      · cases fault with
        | notFound =>
          refine .madeAfter ?_ fun on hon => hclear on
            (hon.congr (adds_makeDirsWithin fuel t (Path.parent path)).workingDir.symm)
          by_cases hparent : Path.parent path = ""
          · -- above an empty path there is nothing to make
            rw [hparent]
            cases fuel <;> exact ⟨h, rfl⟩
          · exact ih (hclear.of_parent hparent)
        | _ => exact ⟨h, rfl⟩

theorem makeDirs_of_changedBelow (h : ChangedBelow place t t') (hclear : t.KeepsClear path place) :
    MadeAlike place (t.makeDirs path) (t'.makeDirs path) :=
  makeDirsWithin_of_changedBelow _ h hclear

/-- Where a file can be replaced in one tree, it can be in the other. -/
theorem replaceFile_of_changedBelow (h : ChangedBelow place t t')
    (hclear : t.KeepsClear path place) {content : ByteArray}
    (hok : t.replaceFile path content = .ok u)
    (content' : ByteArray) : ∃ u', t'.replaceFile path content' = .ok u' := by
  obtain ⟨hreach, hsize, hlast, hdir, -⟩ := replaceFile_eq_ok_iff.1 hok
  have hreach' := reaches_of_changedBelow h hclear hreach
  refine ⟨_, replaceFile_eq_ok_iff.2 ⟨hreach', hsize, hlast, ?_, rfl⟩⟩
  rw [place_congr h.workingDir, sight_of_changedBelow h hclear]
  exact hdir

end FileTree

namespace Action

variable {τ : Type}

/-- Where a text can be written on one site, any text can be on the other. -/
theorem replaceText_of_changedBelow {place : List String} {path text : String} {s s₁ s' : Site τ}
    (h : FileTree.ChangedBelow place s.tree s'.tree) (hclear : s.tree.KeepsClear path place)
    (hok : outcome (replaceText path text) s = (.ok ⟨⟩, s₁)) (text' : String) :
    ∃ s₁', outcome (replaceText path text') s' = (.ok ⟨⟩, s₁') := by
  obtain ⟨u, hdir, hfile⟩ := replaceText_ok hok
  rw [ensureDir, outcome_changeAsFar, Prod.mk.injEq] at hdir
  obtain ⟨hnone, rfl⟩ := hdir
  dsimp only at hfile
  -- the directories that the file lies in are made alike
  have hmade : FileTree.MadeAlike place (s.tree.makeDirs (Path.parent path))
      (s'.tree.makeDirs (Path.parent path)) := by
    by_cases hparent : Path.parent path = ""
    · rw [hparent]
      exact ⟨h, rfl⟩
    · exact FileTree.makeDirs_of_changedBelow h (hclear.of_parent hparent)
  have hclear' : (s.tree.makeDirs (Path.parent path)).1.KeepsClear path place := fun on hon =>
    hclear on (hon.congr (s.tree.adds_makeDirs (Path.parent path)).workingDir.symm)
  obtain ⟨u', hu'⟩ := FileTree.replaceFile_of_changedBelow hmade.tree hclear' hfile text'.toUTF8
  rcases hfault : (s.tree.makeDirs (Path.parent path)).2 with _ | fault
  · rw [replaceText, replaceFile, outcome_bind, ensureDir, outcome_changeAsFar, hmade.fault, hfault]
    simp only
    rw [outcome_change, hu']
    exact ⟨_, rfl⟩
  · rw [hfault] at hnone
    cases hnone

end Action

namespace Snapshot

open FileTree

variable {t t' : FileTree} {place : List String} {dir : String}

theorem mem_fileNames_iff {entries : Entries Node} (h : entries.Ascending) {name : String} :
    name ∈ fileNames entries ↔
      Path.extension? name = some "json" ∧
        ∃ content executable, entries.find? name = some (.file content executable) := by
  simp only [fileNames, List.mem_map, List.mem_filter, Bool.and_eq_true, beq_iff_eq, Prod.exists,
    exists_and_right, exists_eq_right, ← h.find?_eq_some_iff]
  constructor
  · rintro ⟨n, hfind, hfile, hext⟩
    cases n with
    | file content executable => exact ⟨hext, content, executable, hfind⟩
    | dir _ => cases hfile
  · rintro ⟨hext, content, executable, hfind⟩
    exact ⟨_, hfind, rfl, hext⟩

theorem pairwise_fileNames {entries : Entries Node} (h : entries.Ascending) :
    (fileNames entries).Pairwise (· < ·) :=
  h.sublist (List.filter_sublist.map _)

/-- A directory that is elsewhere holds the same files in both trees. -/
theorem find?_file_iff (h : ChangedBelow place t t') {here : List String}
    (hhere : ¬ place <+: here) {entries entries' : Entries Node}
    (hentries : t.nodeAt? here = some (.dir entries))
    (hentries' : t'.nodeAt? here = some (.dir entries')) (name : String) (content : ByteArray)
    (executable : Bool) :
    entries'.find? name = some (.file content executable) ↔
      entries.find? name = some (.file content executable) := by
  have hsight : ∀ {n : Option Node}, n = some (.file content executable) ↔
      Sight.ofNode n = .file content executable := by
    intro n
    rcases n with _ | ⟨_ | _⟩ <;> simp [Sight.ofNode]
  rw [hsight, hsight, ← sight_entry hentries, ← sight_entry hentries']
  by_cases hplace : place <+: here ++ [name]
  · -- the place itself is an entry of the directory
    have heq : place = here ++ [name] := (List.prefix_concat_iff.1 hplace).resolve_right hhere
    rw [← heq]
    exact h.file content executable
  · rw [h.sight _ hplace]

theorem fileNames_of_changedBelow (h : ChangedBelow place t t') {here : List String}
    (hhere : ¬ place <+: here) {entries entries' : Entries Node}
    (hentries : t.nodeAt? here = some (.dir entries))
    (hentries' : t'.nodeAt? here = some (.dir entries')) (hascending : entries.Ascending)
    (hascending' : entries'.Ascending) : fileNames entries' = fileNames entries := by
  refine (pairwise_fileNames hascending').eq_of_mem_iff (pairwise_fileNames hascending)
    fun name => ?_
  simp only [mem_fileNames_iff hascending, mem_fileNames_iff hascending',
    find?_file_iff h hhere hentries hentries']

/-- A file of a directory that is elsewhere is read alike, even if it is at the place itself. -/
theorem readBytes_join_of_changedBelow (h : ChangedBelow place t t') {name : String}
    (hname : Path.IsName name) (hclear : t.KeepsClear dir place)
    (hfile : (t.sight (t.place dir ++ [name])).IsFile) :
    t'.readBytes (Path.join dir name) = t.readBytes (Path.join dir name) := by
  rw [readBytes_eq, readBytes_eq, resolve_join_of_changedBelow h hname hclear]
  rcases hresolve : t.resolve (Path.join dir name) with fault | names
  · rfl
  · obtain ⟨-, rfl⟩ := resolve_eq_ok_iff.1 hresolve
    obtain ⟨content, executable, hfile⟩ := hfile
    rw [except_ok_bind, except_ok_bind, t.place_join_name dir hname, hfile]
    by_cases hplace : place <+: t.place dir ++ [name]
    · have heq : place = t.place dir ++ [name] :=
        (List.prefix_concat_iff.1 hplace).resolve_right (hclear _ (t.onWay_place dir))
      rw [heq] at h
      rw [(h.file content executable).2 hfile]
    · rw [h.sight _ hplace, hfile]

theorem loadFiles_congr {names : List String}
    (h : ∀ name ∈ names,
      t'.readBytes (Path.join dir name) = t.readBytes (Path.join dir name)) :
    loadFiles t' dir names = loadFiles t dir names := by
  induction names with
  | nil => rfl
  | cons name rest ih =>
    obtain ⟨hname, hrest⟩ := List.forall_mem_cons.1 h
    simp only [loadFiles, hname, ih hrest]

/-- The snapshots in a directory do not depend on what lies below a place that the way of its path
keeps clear of. -/
theorem load_of_changedBelow (h : ChangedBelow place t t') (hwell : t.WellFormed)
    (hwell' : t'.WellFormed) (hclear : t.KeepsClear dir place) : load t' dir = load t dir := by
  have hhere : ¬ place <+: t.place dir := hclear _ (t.onWay_place dir)
  have hplace : t'.place dir = t.place dir := place_congr h.workingDir dir
  rw [load, load]
  rcases ht : t.list dir with fault | entries
  · rcases ht' : t'.list dir with fault' | entries'
    · rfl
    · obtain ⟨entries, hentries⟩ := list_of_changedBelow h.symm (h.keepsClear hclear) ht'
      rw [ht] at hentries
      cases hentries
  · obtain ⟨entries', ht'⟩ := list_of_changedBelow h hclear ht
    obtain ⟨-, hnode⟩ := list_eq_ok_iff.1 ht
    obtain ⟨-, hnode'⟩ := list_eq_ok_iff.1 ht'
    rw [hplace] at hnode'
    have hascending := hwell.sorted _ _ hnode
    rw [ht']
    simp only
    rw [fileNames_of_changedBelow h hhere hnode hnode' hascending (hwell'.sorted _ _ hnode'),
      loadFiles_congr fun name hname => ?_]
    obtain ⟨-, content, executable, hfind⟩ := (mem_fileNames_iff hascending).1 hname
    refine readBytes_join_of_changedBelow h
      (hwell.isName hnode (hascending.find?_eq_some_iff.1 hfind)) hclear ⟨content, executable, ?_⟩
    rw [sight_entry hnode, hfind]
    rfl

end Snapshot

end ParamSweep
