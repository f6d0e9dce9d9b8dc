import ParamSweep.Proofs.Laying
import ParamSweep.Proofs.RunFiles
import ParamSweep.Proofs.TaskNumbers

/-!
What placing a suite makes of a tree.

Once the experiment's directory has been cleared, the suite is put there item by item
(`lays_placeSuite`): a directory for the scheduler's logs, the directory of every run with its files,
the manifest, the job script, and the record. So directories are made on the way to these and nowhere
else, and every run is left in its directory with its files inside (`Stands`). `Placed` puts together
what this comes to for the directories.
-/

namespace ParamSweep

variable {τ : Type} {l : Layout} {rendered : List RenderedRun} {t t' : FileTree}

/-- The directory of a run. -/
def Layout.runDir (l : Layout) (name : String) : String := Path.join l.generatedConfigsDir name

namespace Generate

/-! ### What a suite is made of -/

/-- The directory of a run and its files. -/
def runItems (l : Layout) (run : RenderedRun) : List Item :=
  .dir (l.runDir run.name) ::
    run.files.map fun f => .file (Path.join (l.runDir run.name) f.1) f.2.toUTF8 false

/-- All that a suite consists of, in the order in which it is written. -/
def suiteItems (l : Layout) (p : PreparedSuite) (record : Value) : List Item :=
  .dir l.schedulerLogsDir :: p.rendered.flatMap (runItems l) ++
    [.file l.manifestPath (Manifest.body p.suite.runNames).toUTF8 false,
     .file l.submitScriptPath p.script.toUTF8 false,
     .file l.submitScriptPath p.script.toUTF8 true,
     .file l.suiteRecordPath record.pretty.toUTF8 false]

theorem mem_suiteItems {p : PreparedSuite} {record : Value} {item : Item} :
    item ∈ suiteItems l p record ↔
      item = .dir l.schedulerLogsDir ∨
      (∃ run ∈ p.rendered, item = .dir (l.runDir run.name) ∨
        ∃ f ∈ run.files, item = .file (Path.join (l.runDir run.name) f.1) f.2.toUTF8 false) ∨
      item = .file l.manifestPath (Manifest.body p.suite.runNames).toUTF8 false ∨
      item = .file l.submitScriptPath p.script.toUTF8 false ∨
      item = .file l.submitScriptPath p.script.toUTF8 true ∨
      item = .file l.suiteRecordPath record.pretty.toUTF8 false := by
  simp [suiteItems, runItems, eq_comm]

/-- The record is written last. -/
theorem lastFile?_suiteRecordPath (t : FileTree) (l : Layout) (p : PreparedSuite) (record : Value) :
    t.lastFile? (suiteItems l p record) (t.place l.suiteRecordPath) =
      some (.file record.pretty.toUTF8 false) := by
  rw [suiteItems, FileTree.lastFile?_append]
  simp [FileTree.lastFile?, Item.fileAt?]

theorem generatedConfigsDir_ne_empty (l : Layout) : l.generatedConfigsDir ≠ "" :=
  fun hempty => absurd (Path.join_eq_empty_iff.1 hempty).2 (by decide)

theorem runDir_ne_empty (l : Layout) (name : String) : l.runDir name ≠ "" :=
  fun hempty => generatedConfigsDir_ne_empty l (Path.join_eq_empty_iff.1 hempty).1

theorem schedulerLogsDir_ne_empty (l : Layout) : l.schedulerLogsDir ≠ "" :=
  fun hempty => absurd (Path.join_eq_empty_iff.1 hempty).2 (by decide)

/-! ### Writing it -/

theorem lays_writeFiles {dir : String} {files : List (String × String)} {s s' : Site τ} {u : Unit}
    (h : outcome (writeFiles dir files) s = (.ok u, s')) :
    FileTree.Lays (files.map fun f => .file (Path.join dir f.1) f.2.toUTF8 false)
      s.tree s'.tree := by
  induction files generalizing s with
  | nil =>
    cases h
    exact .refl _
  | cons f rest ih =>
    obtain ⟨_, s₁, hwrite, h⟩ := outcome_bind_ok h
    exact (Action.lays_replaceText hwrite).append (ih h)

theorem lays_writeRuns {runs : List RenderedRun} {s s' : Site τ} {u : Unit}
    (h : outcome (writeRuns l runs) s = (.ok u, s')) :
    FileTree.Lays (runs.flatMap (runItems l)) s.tree s'.tree := by
  induction runs generalizing s with
  | nil =>
    cases h
    exact .refl _
  | cons run rest ih =>
    obtain ⟨_, s₁, hmake, h⟩ := outcome_bind_ok h
    obtain ⟨_, s₂, hfiles, h⟩ := outcome_bind_ok h
    have hmade := Action.lays_ensureDir (runDir_ne_empty l run.name) hmake
    exact (hmade.append (lays_writeFiles hfiles)).append (ih h)

theorem lays_placeScript {p : PreparedSuite} {record : Value} {s s' : Site τ} {g : GeneratedSuite}
    (h : outcome (placeScript l p record) s = (.ok g, s')) :
    FileTree.Lays [.file l.submitScriptPath p.script.toUTF8 false,
      .file l.submitScriptPath p.script.toUTF8 true,
      .file l.suiteRecordPath record.pretty.toUTF8 false] s.tree s'.tree := by
  obtain ⟨_, s₁, hscript, h⟩ := outcome_bind_ok h
  obtain ⟨_, s₂, hexecutable, h⟩ := outcome_bind_ok h
  obtain ⟨_, s₃, hrecord, h⟩ := outcome_bind_ok h
  -- what is said afterwards goes to the console
  have htree : s'.tree = s₃.tree := by
    obtain ⟨_, _, hsaid, h⟩ := outcome_bind_ok h
    cases hsaid
    obtain ⟨_, _, hsaid, h⟩ := outcome_bind_ok h
    cases hsaid
    obtain ⟨_, _, hsaid, h⟩ := outcome_bind_ok h
    cases hsaid
    cases h
    rfl
  have hchange := Action.outcome_change_ok hexecutable
  have hmarked : FileTree.Lays [.file l.submitScriptPath p.script.toUTF8 true] s₁.tree s₂.tree :=
    FileTree.lays_file (FileTree.builds_makeExecutable hchange)
      (FileTree.written_makeExecutable (Action.written_replaceText hscript).sight_place hchange)
  rw [htree]
  exact ((Action.lays_replaceText hscript).append hmarked).append (Action.lays_replaceText hrecord)

theorem keeps_sorted_clear (l : Layout) :
    Keeps (fun s : Site τ => s.tree.Sorted) (clear l) := by
  intro s hs
  rw [clear, outcome_bind, Action.outcome_tree]
  simp only
  split
  · rw [Action.removeDir, Action.outcome_changeAsFar]
    exact FileTree.sorted_removeDir hs _
  · exact hs

theorem workingDir_clear {s s' : Site τ} {u : Unit} (h : outcome (clear l) s = (.ok u, s')) :
    s'.tree.workingDir = s.tree.workingDir := by
  rcases clear_ok h with ⟨-, hcleared⟩ | ⟨-, heq⟩
  · exact hcleared.workingDir
  · rw [heq]

/-- Once the experiment's directory has been cleared the suite is put there, and nothing else. -/
theorem lays_placeSuite {p : PreparedSuite} {record : Value} {s s' : Site τ} {g : GeneratedSuite}
    (h : outcome (placeSuite l p record) s = (.ok g, s')) :
    ∃ s₁, outcome (clear l) s = (.ok ⟨⟩, s₁) ∧
      FileTree.Lays (suiteItems l p record) s₁.tree s'.tree := by
  obtain ⟨hfit, -⟩ := placeSuite_ok h
  obtain ⟨_, s₁, hclear, h⟩ := outcome_bind_ok h
  obtain ⟨_, s₂, hlogs, h⟩ := outcome_bind_ok h
  obtain ⟨_, s₃, hruns, h⟩ := outcome_bind_ok h
  obtain ⟨_, s₄, hmanifest, h⟩ := outcome_bind_ok h
  rw [manifestWrite_of_fits l hfit] at hmanifest
  have hmade := Action.lays_ensureDir (schedulerLogsDir_ne_empty l) hlogs
  have hlisted := Action.lays_replaceText hmanifest
  exact ⟨s₁, hclear,
    (hmade.append (lays_writeRuns hruns)).append (hlisted.append (lays_placeScript h))⟩

/-! ### What stands then -/

/-- The paths that a suite is written to: single names in the experiment's directory, the
directories of the runs, and the rendered files inside these. -/
inductive PathOf (l : Layout) (rendered : List RenderedRun) : String → Prop
  | single {name : String} : Path.IsName name → PathOf l rendered (Path.join l.experimentDir name)
  | run {run : RenderedRun} : run ∈ rendered → PathOf l rendered (l.runDir run.name)
  | file {run : RenderedRun} {f : String × String} : run ∈ rendered → f ∈ run.files →
      Path.Inside f.1 → PathOf l rendered (Path.join (l.runDir run.name) f.1)

/-- A place on the way to one of these paths. -/
def OnWayOf (l : Layout) (rendered : List RenderedRun) (t : FileTree)
    (place : List String) : Prop :=
  ∃ path, PathOf l rendered path ∧ t.OnWay path place

/-- A run stands in its directory, with its files inside. -/
structure Stands (l : Layout) (t : FileTree) (run : RenderedRun) : Prop where
  reaches : t.Reaches (l.runDir run.name)
  dir : t.sight (t.place (l.runDir run.name)) = .dir
  files : ∀ f ∈ run.files, Path.Inside f.1 ∧
    (t.sight (t.place (Path.join (l.runDir run.name) f.1))).IsFile

section

variable {p : PreparedSuite} {record : Value}

theorem stands_of_lays (hlays : FileTree.Lays (suiteItems l p record) t t')
    (hleads : ∀ run ∈ p.rendered, ∀ f ∈ run.files, LeadsDown f.1) :
    ∀ run ∈ p.rendered, Stands l t' run := by
  intro run hrun
  have hdir : Item.dir (l.runDir run.name) ∈ suiteItems l p record :=
    mem_suiteItems.2 (.inr (.inl ⟨run, hrun, .inl rfl⟩))
  refine ⟨hlays.reaches _ hdir, hlays.dirs _ hdir, fun f hf => ?_⟩
  have hitem : Item.file (Path.join (l.runDir run.name) f.1) f.2.toUTF8 false ∈
      suiteItems l p record := mem_suiteItems.2 (.inr (.inl ⟨run, hrun, .inr ⟨f, hf, rfl⟩⟩))
  have hfile := hlays.isFile hitem
  exact ⟨inside_of_isFile (hleads run hrun f hf) (hlays.reaches _ hitem) hfile, hfile⟩

theorem onWayOf_of_onWayTo (hstands : ∀ run ∈ p.rendered, Stands l t' run) {place : List String}
    (h : t.OnWayTo (suiteItems l p record) place) : OnWayOf l p.rendered t place := by
  obtain ⟨item, hitem, hway⟩ := h
  refine ⟨item.path, ?_, hway⟩
  rcases mem_suiteItems.1 hitem with
    rfl | ⟨run, hrun, rfl | ⟨f, hf, rfl⟩⟩ | rfl | rfl | rfl | rfl
  · exact .single (by decide)
  · exact .run hrun
  · exact .file hrun hf ((hstands run hrun).files f hf).1
  · exact .single Layout.isName_manifestFile
  · exact .single Layout.isName_submitScriptFile
  · exact .single Layout.isName_submitScriptFile
  · exact .single Layout.isName_suiteRecordFile

end

/-- Where the path of the experiment's directory does not go up and the manifest is reached
afterwards, the directory was held before if it was there at all. -/
theorem holds_of_dir (hwork : t'.workingDir = t.workingDir) (hreach : t'.Reaches l.manifestPath)
    (hdir : l.experimentDir ≠ "") (hup : ".." ∉ Path.parts l.experimentDir)
    (hsight : t.sight (t.place l.experimentDir) = .dir) : t.holds l.experimentDir = true := by
  obtain ⟨rest, hrest⟩ : ∃ rest, l.manifestPath = l.experimentDir ++ rest :=
    Path.join_eq_append l.experimentDir Layout.isName_manifestFile.isAbsolute
  have hpass := ((FileTree.reaches_join_iff Layout.isName_manifestFile).1 hreach).2.1
  rw [FileTree.start, hwork] at hpass
  have hpath : FileTree.pathFault? (l.experimentDir ++ rest) = none := hrest ▸ hreach.isPath
  have hreach : t.Reaches l.experimentDir :=
    ⟨FileTree.pathFault?_of_append hdir hpath, hpass.of_dir hup hsight, fun _ => hsight⟩
  exact FileTree.holds_iff.2 ⟨hreach, by simp [hsight]⟩

/-- What placing a suite makes of a tree. -/
structure Placed (l : Layout) (rendered : List RenderedRun) (t t' : FileTree) : Prop where
  workingDir : t'.workingDir = t.workingDir
  kept : t.holds l.experimentDir = false → ∀ place, t.sight place = .dir → t'.sight place = .dir
  made : ∀ rest, rest ≠ [] → t'.sight (t.place l.experimentDir ++ rest) = .dir →
    (t.holds l.experimentDir = false ∧ t.sight (t.place l.experimentDir ++ rest) = .dir) ∨
      OnWayOf l rendered t (t.place l.experimentDir ++ rest)
  stands : ∀ run ∈ rendered, Stands l t' run
  manifest : t'.Reaches l.manifestPath ∧ (t'.sight (t'.place l.manifestPath)).IsFile
  sorted : t.Sorted → t'.Sorted

theorem placed_of_placeSuite {p : PreparedSuite} {record : Value} {s s' : Site τ}
    {g : GeneratedSuite} (hleads : ∀ run ∈ p.rendered, ∀ f ∈ run.files, LeadsDown f.1)
    (h : outcome (placeSuite l p record) s = (.ok g, s')) :
    Placed l p.rendered s.tree s'.tree := by
  obtain ⟨s₁, hclear, hlays⟩ := lays_placeSuite h
  have hstands := stands_of_lays hlays hleads
  have hwork := workingDir_clear hclear
  constructor
  case workingDir => exact hlays.adds.workingDir.trans hwork
  case kept =>
    intro hnot place hdir
    rcases clear_ok hclear with ⟨hholds, -⟩ | ⟨-, heq⟩
    · rw [hholds] at hnot
      cases hnot
    · refine hlays.adds.dir ?_
      rwa [heq]
  case made =>
    intro rest hrest hdir
    rcases hlays.dir_or_onWayTo hdir with hdir | hway
    · rcases clear_ok hclear with ⟨-, hcleared⟩ | ⟨hnot, heq⟩
      · rw [hcleared.below rest hrest] at hdir
        cases hdir
      · rw [heq] at hdir
        exact .inl ⟨hnot, hdir⟩
    · exact .inr (onWayOf_of_onWayTo hstands (hway.congr hwork.symm))
  case stands => exact hstands
  case manifest =>
    have hitem : Item.file l.manifestPath (Manifest.body p.suite.runNames).toUTF8 false ∈
        suiteItems l p record := mem_suiteItems.2 (.inr (.inr (.inl rfl)))
    exact ⟨hlays.reaches _ hitem, hlays.isFile hitem⟩
  case sorted =>
    exact fun hsorted => hlays.sorted ((keeps_sorted_clear l).after hsorted hclear)

end Generate

end ParamSweep
