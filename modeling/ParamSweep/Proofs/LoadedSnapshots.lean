import Mathlib.Data.List.Forall2
import Mathlib.Data.List.Sort
import ParamSweep.Output.SuiteHealth
import ParamSweep.Proofs.ReadNumbers
import ParamSweep.Proofs.TreeOrder
import ParamSweep.Proofs.DoubleOrder

/-!
The snapshots of an output directory.

The files are read in the order of their names, all of them or none, and then sorted by time. Where
no two snapshots have one time, sorting gives one list for all orders in which they are read
(`sortByTime_eq_of_perm`), so that the names of the files do not matter: `load_of_distinct_times`.
-/

namespace ParamSweep.Snapshot

variable {t t' : FileTree} {dir name : String} {names : List String} {s : Snapshot}
  {read read' : List Snapshot} {entries entries' : Entries Node} {e : Error}

/-! ### Reading the files -/

/-- Reads a snapshot file of a directory. -/
def loadFile (t : FileTree) (dir name : String) : Except Error Snapshot := do
  let path := Path.join dir name
  let bytes ← (t.readBytes path).mapError (Error.file path)
  (ofBytes bytes).mapError fun fault => .configuration (.invalidSnapshot path fault)

theorem loadFiles_cons (t : FileTree) (dir name : String) (names : List String) :
    loadFiles t dir (name :: names) =
      (loadFile t dir name >>= fun s => (loadFiles t dir names).map (s :: ·)) := by
  rw [loadFiles, loadFile]
  rcases t.readBytes (Path.join dir name) with _ | bytes
  · rfl
  · show ((ofBytes bytes).mapError _ >>= _) = ((ofBytes bytes).mapError _ >>= _)
    rcases ofBytes bytes with _ | s
    · rfl
    · show (loadFiles t dir names >>= _) = (loadFiles t dir names).map _
      rcases loadFiles t dir names with _ | _ <;> rfl

/-- What is read is read from the files one by one. -/
theorem loadFiles_eq_ok_iff :
    loadFiles t dir names = .ok read ↔
      List.Forall₂ (fun name s => loadFile t dir name = .ok s) names read := by
  induction names generalizing read with
  | nil => cases read <;> simp [loadFiles]
  | cons name names ih =>
    rw [loadFiles_cons]
    cases hfile : loadFile t dir name with
    | error e => cases read <;> simp [hfile]
    | ok s =>
      cases hothers : loadFiles t dir names with
      | error e => cases read <;> simp [hfile, ← ih, hothers, Except.map]
      | ok others => cases read <;> simp [hfile, ← ih, hothers, Except.map]

/-- A file that cannot be read fails the whole, and what is reported is such a file. -/
theorem loadFiles_of_error (hname : name ∈ names) (h : loadFile t dir name = .error e) :
    ∃ name' ∈ names, ∃ e', loadFile t dir name' = .error e' ∧
      loadFiles t dir names = .error e' := by
  induction names with
  | nil => cases hname
  | cons first names ih =>
    rw [loadFiles_cons]
    cases hfile : loadFile t dir first with
    | error e' => exact ⟨first, List.mem_cons_self, e', hfile, rfl⟩
    | ok s =>
      obtain rfl | hname := List.mem_cons.1 hname
      · rw [hfile] at h
        cases h
      · obtain ⟨name', hname', e', he', hothers⟩ := ih hname
        exact ⟨name', List.mem_cons_of_mem _ hname', e', he', by rw [hothers]; rfl⟩

theorem isNaN_time_of_loadFile (h : loadFile t dir name = .ok s) : s.time.isNaN = false := by
  obtain ⟨bytes, -, hbytes⟩ := except_bind_ok h
  exact isNaN_time (mapError_ok hbytes)

/-! ### Sorting by time -/

/-- The snapshot is of an earlier time. The negative zero goes before the other. -/
def Earlier (a b : Snapshot) : Prop := a.time < b.time ∨ a.time = -0 ∧ b.time = 0

theorem perm_sortByTime (read : List Snapshot) : (sortByTime read).Perm read :=
  List.mergeSort_perm read _

theorem pairwise_sortByTime (read : List Snapshot) :
    (sortByTime read).Pairwise fun a b => orderKey a.time ≤ orderKey b.time := by
  refine (List.pairwise_mergeSort (fun a b c hab hbc => ?_) (fun a b => ?_) read).imp
    of_decide_eq_true
  · exact decide_eq_true (le_trans (of_decide_eq_true hab) (of_decide_eq_true hbc))
  · rw [Bool.or_eq_true, decide_eq_true_eq, decide_eq_true_eq]
    exact le_total _ _

/-- Snapshots of different times are sorted in one way only. -/
theorem sortByTime_eq_of_perm (hperm : read.Perm read')
    (hdistinct : read.Pairwise fun a b => a.time ≠ b.time) :
    sortByTime read = sortByTime read' := by
  have hsame := (perm_sortByTime read).trans (hperm.trans (perm_sortByTime read').symm)
  refine List.Perm.eq_of_pairwise ?_ (pairwise_sortByTime read) (pairwise_sortByTime read') hsame
  intro a b ha hb hab hba
  rw [← hsame.mem_iff, (perm_sortByTime read).mem_iff] at hb
  rw [(perm_sortByTime read).mem_iff] at ha
  by_contra hne
  have : Std.Symm fun a b : Snapshot => a.time ≠ b.time := ⟨fun _ _ h => h.symm⟩
  exact hdistinct.forall ha hb hne (orderKey_injective (le_antisymm hab hba))

/-- Snapshots of different times ascend after sorting. -/
theorem earlier_sortByTime (hdistinct : read.Pairwise fun a b => a.time ≠ b.time)
    (hnumber : ∀ s ∈ read, s.time.isNaN = false) : (sortByTime read).Pairwise Earlier := by
  have hdistinct' := (perm_sortByTime read).symm.pairwise hdistinct fun h => Ne.symm h
  refine ((pairwise_sortByTime read).and hdistinct').imp_of_mem ?_
  rintro a b ha hb ⟨hle, hne⟩
  refine lt_of_orderKey_lt (hnumber a ((perm_sortByTime read).mem_iff.1 ha))
    (hnumber b ((perm_sortByTime read).mem_iff.1 hb)) ?_
  exact lt_of_le_of_ne hle fun heq => hne (orderKey_injective heq)

/-! ### The files of a directory -/

/-- The name and the content of a snapshot file. -/
def snapshotFile? : String × Node → Option (String × ByteArray)
  | (name, .file content _) =>
    if Path.extension? name == some "json" then some (name, content) else none
  | (_, .dir _) => none

/-- The snapshot files among the entries of a directory. -/
def snapshotFiles (entries : Entries Node) : List (String × ByteArray) :=
  entries.filterMap snapshotFile?

theorem fileNames_eq (entries : Entries Node) :
    fileNames entries = (snapshotFiles entries).map Prod.fst := by
  rw [fileNames, snapshotFiles, List.map_filterMap, ← List.filterMap_eq_map, List.filterMap_filter]
  refine List.filterMap_congr fun ⟨name, n⟩ _ => ?_
  cases n with
  | dir => rfl
  | file content executable =>
    show (if (true && Path.extension? name == some "json") = true then some name else none) = _
    rw [Bool.true_and, snapshotFile?]
    split_ifs <;> rfl

/-- The entries are the same but for their names, which keep their extensions. -/
def Renamed (entries entries' : Entries Node) : Prop :=
  ∃ rename : String → String,
    (∀ name ∈ entries.keys, Path.extension? (rename name) = Path.extension? name) ∧
      List.Perm entries' (entries.map fun (name, n) => (rename name, n))

theorem snapshotFile?_rename {rename : String → String} {n : Node}
    (h : Path.extension? (rename name) = Path.extension? name) :
    (snapshotFile? (rename name, n)).map Prod.snd = (snapshotFile? (name, n)).map Prod.snd := by
  cases n with
  | dir => rfl
  | file content executable =>
    rw [snapshotFile?, snapshotFile?, h]
    split_ifs <;> rfl

/-- Renaming changes nothing about what is in the files. -/
theorem Renamed.contents (h : Renamed entries entries') :
    ((snapshotFiles entries').map Prod.snd).Perm ((snapshotFiles entries).map Prod.snd) := by
  obtain ⟨rename, hrename, hperm⟩ := h
  refine ((hperm.filterMap snapshotFile?).map Prod.snd).trans (.of_eq ?_)
  rw [snapshotFiles, List.map_filterMap, List.map_filterMap, List.filterMap_map]
  refine List.filterMap_congr fun p hp => ?_
  exact snapshotFile?_rename (hrename p.1 (List.mem_map_of_mem hp))

/-- The snapshot that the content of a file stands for is read from it. -/
theorem loadFile_eq_ok_iff (ht : t.WellFormed) (hlist : t.list dir = .ok entries)
    {file : String × ByteArray} (hfile : file ∈ snapshotFiles entries)
    (hpath : FileTree.pathFault? (Path.join dir file.1) = none) :
    loadFile t dir file.1 = .ok s ↔ ofBytes file.2 = .ok s := by
  obtain ⟨name, content⟩ := file
  obtain ⟨hreach, hdir⟩ := FileTree.list_eq_ok_iff.1 hlist
  obtain ⟨executable, hmem⟩ : ∃ executable, (name, .file content executable) ∈ entries := by
    obtain ⟨⟨name', n⟩, hmem, hp⟩ := List.mem_filterMap.1 hfile
    cases n with
    | dir => cases hp
    | file content' executable =>
      rw [snapshotFile?] at hp
      split_ifs at hp
      cases hp
      exact ⟨executable, hmem⟩
  have hname : Path.IsName name := ht.isName hdir hmem
  have hread : t.readBytes (Path.join dir name) = .ok content := by
    refine FileTree.readBytes_eq_ok_iff.2 ⟨(FileTree.reaches_join_iff hname).2
      ⟨hpath, hreach.passable, FileTree.sight_eq_dir_iff.2 ⟨entries, hdir⟩⟩, executable, ?_⟩
    have hfind : entries.find? name = some (.file content executable) :=
      (ht.sorted _ _ hdir).find?_eq_some_iff.2 hmem
    rw [t.place_join_name dir hname, FileTree.sight_entry hdir, hfind]
    rfl
  rw [loadFile, hread]
  exact ⟨mapError_ok, fun h => by simp [h]⟩

theorem load_of_list (hlist : t.list dir = .ok entries) :
    load t dir = (loadFiles t dir (fileNames entries)).map sortByTime := by
  rw [load, hlist]

/-- The snapshots that are read are those that the contents of the files stand for. -/
theorem loadFiles_eq_ok_iff_contents (ht : t.WellFormed) (hlist : t.list dir = .ok entries)
    (hpath : ∀ name ∈ fileNames entries, FileTree.pathFault? (Path.join dir name) = none) :
    loadFiles t dir (fileNames entries) = .ok read ↔
      List.Forall₂ (fun content s => ofBytes content = .ok s)
        ((snapshotFiles entries).map Prod.snd) read := by
  have hsame : ∀ file ∈ snapshotFiles entries, ∀ s,
      loadFile t dir file.1 = .ok s ↔ ofBytes file.2 = .ok s := by
    intro file hfile s
    refine loadFile_eq_ok_iff ht hlist hfile (hpath _ ?_)
    rw [fileNames_eq]
    exact List.mem_map_of_mem hfile
  rw [loadFiles_eq_ok_iff, fileNames_eq, List.forall₂_map_left_iff, List.forall₂_map_left_iff]
  constructor
  · intro h
    exact ((List.forall₂_and_left _ _).2 ⟨hsame, h⟩).imp fun file s h => (h.1 s).1 h.2
  · intro h
    exact ((List.forall₂_and_left _ _).2 ⟨hsame, h⟩).imp fun file s h => (h.1 s).2 h.2

theorem isPath_of_loadFile (h : loadFile t dir name = .ok s) :
    FileTree.pathFault? (Path.join dir name) = none := by
  obtain ⟨bytes, hbytes, -⟩ := except_bind_ok h
  exact (FileTree.readBytes_eq_ok_iff.1 (mapError_ok hbytes)).1.isPath

theorem isPath_of_loadFiles (h : loadFiles t dir names = .ok read) :
    ∀ name ∈ names, FileTree.pathFault? (Path.join dir name) = none :=
  ((List.forall₂_and_left names read).1 <| (loadFiles_eq_ok_iff.1 h).imp
    fun _ _ hfile => ⟨isPath_of_loadFile hfile, hfile⟩).1

/-- The times of all snapshots that are read are numbers. -/
theorem isNaN_of_loadFiles (h : loadFiles t dir names = .ok read) :
    ∀ s ∈ read, s.time.isNaN = false :=
  ((List.forall₂_and_left read names).1 <| (loadFiles_eq_ok_iff.1 h).flip.imp
    fun _ _ hfile => ⟨isNaN_time_of_loadFile hfile, hfile⟩).1

/-- In a directory with other names for the files the same snapshots are found. -/
theorem load_of_renamed (ht : t.WellFormed) (hlist : t.list dir = .ok entries) (ht' : t'.WellFormed)
    (hlist' : t'.list dir = .ok entries') (hrenamed : Renamed entries entries')
    (hpath : ∀ name ∈ fileNames entries', FileTree.pathFault? (Path.join dir name) = none)
    (hread : loadFiles t dir (fileNames entries) = .ok read)
    (hdistinct : read.Pairwise fun a b => a.time ≠ b.time) :
    load t' dir = .ok (sortByTime read) := by
  rw [loadFiles_eq_ok_iff_contents ht hlist (isPath_of_loadFiles hread)] at hread
  obtain ⟨read', hread', hperm⟩ := List.perm_comp_forall₂ hrenamed.contents hread
  rw [← loadFiles_eq_ok_iff_contents ht' hlist' hpath] at hread'
  rw [load_of_list hlist', hread', sortByTime_eq_of_perm hperm.symm hdistinct]
  rfl

/-! ### What is loaded -/

/-- Loading fails if a file does, and what is loaded otherwise are the snapshots of the files, each
once, in the order of their times. Names do not matter, neither to what is loaded nor to the health
of the run. -/
theorem load_of_distinct_times (ht : t.WellFormed) (hlist : t.list dir = .ok entries) :
    (∀ name ∈ fileNames entries, ∀ e, loadFile t dir name = .error e →
      ∃ name' ∈ fileNames entries, ∃ e', loadFile t dir name' = .error e' ∧
        load t dir = .error e') ∧
    ∀ read, List.Forall₂ (fun name s => loadFile t dir name = .ok s) (fileNames entries) read →
      read.Pairwise (fun a b => a.time ≠ b.time) →
      ∃ loaded, load t dir = .ok loaded ∧ loaded.Perm read ∧ loaded.Pairwise Earlier ∧
        ∀ t' entries', t'.WellFormed → t'.list dir = .ok entries' → Renamed entries entries' →
          (∀ name ∈ fileNames entries', FileTree.pathFault? (Path.join dir name) = none) →
          load t' dir = .ok loaded ∧ ∀ c outputs task run, Path.join outputs run = dir →
            SuiteHealth.assess t' c outputs task run = SuiteHealth.assess t c outputs task run := by
  refine ⟨fun name hname e he => ?_, fun read hfiles hdistinct => ?_⟩
  · obtain ⟨name', hname', e', he', hload⟩ := loadFiles_of_error hname he
    exact ⟨name', hname', e', he', by rw [load_of_list hlist, hload]; rfl⟩
  · have hread := loadFiles_eq_ok_iff.2 hfiles
    have hload : load t dir = .ok (sortByTime read) := by
      rw [load_of_list hlist, hread]
      rfl
    refine ⟨sortByTime read, hload, perm_sortByTime read,
      earlier_sortByTime hdistinct (isNaN_of_loadFiles hread), ?_⟩
    intro t' entries' ht' hlist' hrenamed hpath
    have hload' := load_of_renamed ht hlist ht' hlist' hrenamed hpath hread hdistinct
    refine ⟨hload', fun c outputs task run hdir => ?_⟩
    subst hdir
    rw [SuiteHealth.assess, SuiteHealth.assess, hload, hload']

/-- What an output directory with two snapshots and another file holds. -/
def twoFiles (a z : String) : Entries Node :=
  [("a.json", .file a.toUTF8 false), ("notes.txt", .file "".toUTF8 false),
    ("z.json", .file z.toUTF8 false)]

/-- A tree with that directory. -/
def twoOutputs (a z : String) : FileTree where
  entries := [("out", .dir (twoFiles a z))]

theorem list_twoOutputs (a z : String) : (twoOutputs a z).list "out" = .ok (twoFiles a z) := by
  have hpath : FileTree.pathFault? "out" = none ∧ "out".endsWith "/" = false ∧
      Path.parts "out" = ["out"] ∧ Path.isAbsolute "out" = false := by decide +kernel
  obtain ⟨hfault, hslash, hparts, habsolute⟩ := hpath
  have hstart : (twoOutputs a z).start "out" = [] := if_neg (by rw [habsolute]; decide)
  have hpass : (twoOutputs a z).Passable ((twoOutputs a z).start "out") (Path.parts "out") := by
    rw [hstart, hparts]
    exact ⟨rfl, .inr (.inr (by decide)), trivial⟩
  refine FileTree.list_eq_ok_iff.2 ⟨⟨hfault, hpass, fun h => ?_⟩, ?_⟩
  · rw [hslash] at h
    cases h
  · rw [FileTree.place, hstart, hparts]
    rfl

theorem ofBytes_of_bits (text : String) (bits : UInt64)
    (h : (ofText text).toOption.map (fun s => s.time.toBits) = some bits) :
    ∃ s, ofBytes text.toUTF8 = .ok s ∧ s.time.toBits = bits := by
  obtain ⟨s, hs, hbits⟩ := Option.map_eq_some_iff.1 h
  exact ⟨s, by rw [ofBytes, Text.utf8?_toUTF8]; exact eq_ok_of_toOption hs, hbits⟩

/-- The later snapshot is loaded last, under the name that is first as under the other one. -/
theorem load_of_swapped_names :
    ∃ loaded, load (twoOutputs "[2]" "[0.5]") "out" = .ok loaded ∧ loaded.length = 2 ∧
      loaded.Pairwise Earlier ∧ load (twoOutputs "[0.5]" "[2]") "out" = .ok loaded := by
  obtain ⟨late, hlate, hlatebits⟩ := ofBytes_of_bits "[2]" 0x4000000000000000
    (by decide +kernel)
  obtain ⟨early, hearly, hearlybits⟩ := ofBytes_of_bits "[0.5]" 0x3FE0000000000000
    (by decide +kernel)
  have hwell : (twoOutputs "[2]" "[0.5]").WellFormed ∧ (twoOutputs "[0.5]" "[2]").WellFormed := by
    decide +kernel
  have hpath : ∀ name ∈ ["a.json", "z.json"],
      FileTree.pathFault? (Path.join "out" name) = none := by decide +kernel
  have hread := (loadFiles_eq_ok_iff_contents hwell.1 (list_twoOutputs _ _) hpath).2
    (.cons hlate (.cons hearly .nil))
  have hdistinct : [late, early].Pairwise fun a b => a.time ≠ b.time := by
    refine List.pairwise_pair.2 fun heq => ?_
    rw [heq, hearlybits] at hlatebits
    cases hlatebits
  obtain ⟨loaded, hload, hperm, hearlier, hrenamed⟩ :=
    (load_of_distinct_times hwell.1 (list_twoOutputs _ _)).2 _ (loadFiles_eq_ok_iff.1 hread)
      hdistinct
  refine ⟨loaded, hload, hperm.length_eq, hearlier, ?_⟩
  refine (hrenamed _ _ hwell.2 (list_twoOutputs _ _) ?_ hpath).1
  obtain ⟨swap, hswap⟩ : ∃ swap : String → String, swap = fun name =>
    if name = "a.json" then "z.json" else if name = "z.json" then "a.json" else name := ⟨_, rfl⟩
  have hnames : swap "a.json" = "z.json" ∧ swap "notes.txt" = "notes.txt" ∧
      swap "z.json" = "a.json" := by
    rw [hswap]
    decide
  refine ⟨swap, by rw [hswap]; decide +kernel, ?_⟩
  simp only [twoFiles, List.map_cons, List.map_nil, hnames]
  exact (List.reverse_perm (twoFiles "[0.5]" "[2]")).symm

end ParamSweep.Snapshot
