import ParamSweep.Experiment.BatchFile
import ParamSweep.Proofs.TaskNumbers
import ParamSweep.Proofs.Trimming

/-!
What may stand in an experiment's directory, and what generating leaves there.

`Consistent` is what every operation keeps: a script never stands without the manifest that it was
written with, and the identifier of a batch never without both. Generation goes through three states
on its way, each of them consistent by itself: first neither a script nor an identifier is there
(`Fresh`), then the manifest is there too, then the script (`Unsubmitted`). Wherever it stops, it
stops in one of them.
-/

namespace ParamSweep

variable {τ : Type} {l : Layout} {t t' : FileTree} {A : List String → Prop}

/-! ### What stands in the experiment's directory -/

/-- The manifest of these names stands in its place. -/
def HasManifest (l : Layout) (t : FileTree) (names : List String) : Prop :=
  (∃ executable,
    t.sight (t.place l.manifestPath) = .file (Manifest.body names).toUTF8 executable) ∧
    (∀ n ∈ names, Manifest.fitsLine n = true) ∧ FileTree.pathFault? l.manifestPath = none

/-- A script stands in its place that the generator has written for `n` runs. -/
def HasScript (l : Layout) (t : FileTree) (n : Nat) : Prop :=
  ∃ script executable,
    t.sight (t.place l.submitScriptPath) = .file script.toUTF8 executable ∧
      Script.HasArray l.experiment n script ∧ FileTree.pathFault? l.submitScriptPath = none

/-- A suite with these runs stands in a directory that can be reached. -/
structure Ready (l : Layout) (t : FileTree) (names : List String) : Prop where
  manifest : HasManifest l t names
  script : HasScript l t names.length
  holds : t.holds l.experimentDir = true

/-- No script and no batch identifier stand in their places. -/
structure Fresh (l : Layout) (t : FileTree) : Prop where
  script : ¬ (t.sight (t.place l.submitScriptPath)).IsFile
  batch : ¬ (t.sight (t.place l.batchIdPath)).IsFile

/-- A script stands only beside the manifest that it was written with, and a batch identifier only
beside both, and then it is the one of the batch that was submitted with these names. -/
structure Consistent (l : Layout) (t : FileTree)
    (submitted : Option (BatchHandle × List String)) : Prop where
  script : (t.sight (t.place l.submitScriptPath)).IsFile → ∃ names, Ready l t names
  batch : (t.sight (t.place l.batchIdPath)).IsFile →
    ∃ batch names, submitted = some (batch, names) ∧ Ready l t names ∧
      ∃ executable, t.sight (t.place l.batchIdPath) = .file batch.id.toUTF8 executable

theorem Fresh.consistent (h : Fresh l t) (submitted : Option (BatchHandle × List String)) :
    Consistent l t submitted :=
  ⟨fun hfile => absurd hfile h.script, fun hfile => absurd hfile h.batch⟩

/-- Where an experiment has no directory there is nothing of it. -/
theorem fresh_of_nothing (h : t.nodeAt? (t.place l.experimentDir) = none) : Fresh l t := by
  have hsight : t.sight (t.place l.experimentDir) ≠ .dir := by
    simp [FileTree.sight_eq_nothing_iff.2 h]
  have hnothing : ∀ name, Path.IsName name →
      ¬ (t.sight (t.place (Path.join l.experimentDir name))).IsFile := by
    intro name hname
    rw [t.place_join_name _ hname,
      FileTree.sight_append_of_ne_dir hsight (List.cons_ne_nil _ _)]
    rintro ⟨_, _, hfile⟩
    cases hfile
  exact ⟨hnothing _ Layout.isName_submitScriptFile, hnothing _ Layout.isName_batchIdFile⟩

/-! ### Adding other files -/

theorem HasManifest.adds {names : List String} (h : HasManifest l t names)
    (hadds : t.Adds A t') (hA : ¬ A (t.place l.manifestPath)) : HasManifest l t' names := by
  obtain ⟨⟨executable, hsight⟩, hrest⟩ := h
  refine ⟨⟨executable, ?_⟩, hrest⟩
  rw [hadds.place, hadds.file_iff hA, hsight]

theorem HasScript.adds {n : Nat} (h : HasScript l t n) (hadds : t.Adds A t')
    (hA : ¬ A (t.place l.submitScriptPath)) : HasScript l t' n := by
  obtain ⟨script, executable, hsight, hrest⟩ := h
  refine ⟨script, executable, ?_, hrest⟩
  rw [hadds.place, hadds.file_iff hA, hsight]

theorem Ready.adds {names : List String} (h : Ready l t names) (hadds : t.Adds A t')
    (hM : ¬ A (t.place l.manifestPath)) (hS : ¬ A (t.place l.submitScriptPath)) :
    Ready l t' names :=
  ⟨h.manifest.adds hadds hM, h.script.adds hadds hS, hadds.holds h.holds⟩

theorem Fresh.adds (h : Fresh l t) (hadds : t.Adds A t') (hS : ¬ A (t.place l.submitScriptPath))
    (hB : ¬ A (t.place l.batchIdPath)) : Fresh l t' := by
  constructor
  · rw [hadds.place, hadds.isFile_iff hS]
    exact h.script
  · rw [hadds.place, hadds.isFile_iff hB]
    exact h.batch

theorem Consistent.adds {submitted : Option (BatchHandle × List String)}
    (h : Consistent l t submitted) (hadds : t.Adds A t') (hM : ¬ A (t.place l.manifestPath))
    (hS : ¬ A (t.place l.submitScriptPath)) (hB : ¬ A (t.place l.batchIdPath)) :
    Consistent l t' submitted := by
  constructor
  · intro hfile
    rw [hadds.place, hadds.isFile_iff hS] at hfile
    obtain ⟨names, hready⟩ := h.script hfile
    exact ⟨names, hready.adds hadds hM hS⟩
  · intro hfile
    rw [hadds.place, hadds.isFile_iff hB] at hfile
    obtain ⟨batch, names, hsubmitted, hready, executable, hsight⟩ := h.batch hfile
    refine ⟨batch, names, hsubmitted, hready.adds hadds hM hS, executable, ?_⟩
    rw [hadds.place, hadds.file_iff hB, hsight]

/-! ### Reading what stands there -/

/-- A file that stands in a directory that can be reached can be read, if its path is one at all. -/
theorem reaches_of_holds {name : String} (hname : Path.IsName name)
    (hholds : t.holds l.experimentDir = true)
    (hfile : (t.sight (t.place (Path.join l.experimentDir name))).IsFile)
    (hpath : FileTree.pathFault? (Path.join l.experimentDir name) = none) :
    t.Reaches (Path.join l.experimentDir name) := by
  obtain ⟨content, executable, hsight⟩ := hfile
  rw [t.place_join_name _ hname] at hsight
  have hne : t.sight (t.place l.experimentDir ++ [name]) ≠ .nothing := by simp [hsight]
  exact (FileTree.reaches_join_iff hname).2
    ⟨hpath, (FileTree.holds_iff.1 hholds).1.passable,
      FileTree.sight_of_append (List.cons_ne_nil _ _) hne⟩

theorem Ready.read {names : List String} (h : Ready l t names) :
    Manifest.read t l = .ok names := by
  obtain ⟨⟨executable, hsight⟩, hfit, hpath⟩ := h.manifest
  have hreach : t.Reaches l.manifestPath :=
    reaches_of_holds Layout.isName_manifestFile h.holds ⟨_, _, hsight⟩ hpath
  exact read_of_readText (FileTree.readText_of_sight hreach hsight) hfit

theorem Ready.readScript {names : List String} (h : Ready l t names) :
    ∃ script, t.readText l.submitScriptPath = .ok script ∧
      Script.HasArray l.experiment names.length script := by
  obtain ⟨script, executable, hsight, harray, hpath⟩ := h.script
  have hreach : t.Reaches l.submitScriptPath :=
    reaches_of_holds Layout.isName_submitScriptFile h.holds ⟨_, _, hsight⟩ hpath
  exact ⟨script, FileTree.readText_of_sight hreach hsight, harray⟩

theorem not_isBlank_of_mem_id (batch : BatchHandle) {c : Char} (h : c ∈ batch.id.toList) :
    Text.isBlank c = false := by
  have hid := batch.isId
  simp only [isBatchId, Bool.and_eq_true, Bool.not_eq_true', List.any_eq_false] at hid
  exact Bool.eq_false_iff.2 (hid.2 c h)

theorem trimmed_id (batch : BatchHandle) : Text.trimmed batch.id = batch.id := by
  rw [Text.trimmed_eq_self_iff, Text.trim_eq_self_iff]
  exact ⟨fun c hc => not_isBlank_of_mem_id batch (List.mem_of_mem_head? hc),
    fun c hc => not_isBlank_of_mem_id batch (List.mem_of_getLast? hc)⟩

theorem blankText_id (batch : BatchHandle) : Text.blankText batch.id = false := by
  have hne : batch.id.toList ≠ [] := fun hnil => by
    have hid := batch.isId
    rw [String.toList_eq_nil_iff.1 hnil] at hid
    exact absurd hid (by decide)
  obtain ⟨c, rest, hcs⟩ := List.exists_cons_of_ne_nil hne
  have hc := not_isBlank_of_mem_id batch (hcs ▸ List.mem_cons_self)
  simp [Text.blankText, hcs, hc]

/-- A batch identifier that has been kept is read back. -/
theorem BatchFile.read_of_sight {batch : BatchHandle} {executable : Bool}
    (hreach : t.Reaches l.batchIdPath)
    (hsight : t.sight (t.place l.batchIdPath) = .file batch.id.toUTF8 executable) :
    BatchFile.read t l = .ok batch := by
  have htext := FileTree.readText_of_sight hreach hsight
  have hhandle : BatchHandle.ofText batch.id = .ok batch := by
    simp only [BatchHandle.ofText, trimmed_id, batch.isId, dite_true]
  simp only [BatchFile.read, if_pos (readText_holds htext), htext]
  show (if Text.blankText batch.id = true then _ else _) = _
  rw [if_neg (by simp [blankText_id]), hhandle]
  rfl

/-! ### Clearing -/

theorem Fresh.cleared (h : FileTree.Cleared (t.place l.experimentDir) t t') : Fresh l t' := by
  have hgone : ∀ name, Path.IsName name →
      ¬ (t'.sight (t'.place (Path.join l.experimentDir name))).IsFile := by
    intro name hname
    rw [FileTree.place_congr h.workingDir, t.place_join_name _ hname,
      h.below _ (List.cons_ne_nil _ _)]
    rintro ⟨_, _, hfile⟩
    cases hfile
  exact ⟨hgone _ Layout.isName_submitScriptFile, hgone _ Layout.isName_batchIdFile⟩

/-- A script stands only in a directory that is held, so without one there is nothing to clear. -/
theorem Consistent.fresh_of_not_holds {submitted : Option (BatchHandle × List String)}
    (h : Consistent l t submitted) (hholds : t.holds l.experimentDir ≠ true) : Fresh l t := by
  have hscript : ¬ (t.sight (t.place l.submitScriptPath)).IsFile := by
    intro hfile
    obtain ⟨names, hready⟩ := h.script hfile
    exact hholds hready.holds
  refine ⟨hscript, fun hfile => ?_⟩
  obtain ⟨batch, names, -, hready, -⟩ := h.batch hfile
  exact hholds hready.holds

theorem leads_clear (submitted : Option (BatchHandle × List String)) :
    Leads (fun s : Site τ => Consistent l s.tree submitted) (Generate.clear l)
      (fun _ s => Fresh l s.tree) (fun s => Consistent l s.tree submitted) := by
  constructor
  · intro s u s' hs hx
    rcases Generate.clear_ok hx with ⟨-, hcleared⟩ | ⟨hnot, heq⟩
    · exact Fresh.cleared hcleared
    · rw [heq]
      exact hs.fresh_of_not_holds (by simp [hnot])
  · intro s e s' hs hx
    rcases Generate.clear_cases l s with ⟨-, hcleared⟩ | ⟨heq, -, -⟩
    · rw [hx] at hcleared
      exact (Fresh.cleared hcleared).consistent submitted
    · rw [hx] at heq
      rwa [heq]

/-! ### Generating -/

theorem place_ne {a b : String} (ha : Path.IsName a) (hb : Path.IsName b) (hab : a ≠ b) :
    t.place (Path.join l.experimentDir a) ≠ t.place (Path.join l.experimentDir b) := by
  rw [t.place_join_name _ ha, t.place_join_name _ hb]
  simpa using hab

theorem place_submitScript_ne_manifest :
    t.place l.submitScriptPath ≠ t.place l.manifestPath :=
  place_ne Layout.isName_submitScriptFile Layout.isName_manifestFile (by decide)

theorem place_batchId_ne_manifest : t.place l.batchIdPath ≠ t.place l.manifestPath :=
  place_ne Layout.isName_batchIdFile Layout.isName_manifestFile (by decide)

theorem place_batchId_ne_submitScript : t.place l.batchIdPath ≠ t.place l.submitScriptPath :=
  place_ne Layout.isName_batchIdFile Layout.isName_submitScriptFile (by decide)

/-- The files of runs are neither the script nor the batch identifier. -/
theorem Fresh.adds_unscored (h : Fresh l t) (hadds : t.Adds Generate.Unscored t') : Fresh l t' := by
  refine h.adds hadds ?_ ?_
  · rw [Layout.place_submitScriptPath]
    exact Generate.not_unscored_append (by decide)
  · rw [Layout.place_batchIdPath]
    exact Generate.not_unscored_append (by decide)

theorem keeps_fresh_ensureDir (path : String) :
    Keeps (fun s : Site τ => Fresh l s.tree) (Action.ensureDir path) :=
  Action.keeps_of_adds
    (fun s => Action.keeps_adds_ensureDir s.tree path s (FileTree.Adds.refl _ _))
    fun _ _ h hadds => h.adds_unscored hadds

theorem keeps_fresh_writeRuns {runs : List RenderedRun}
    (h : ∀ run ∈ runs, Generate.FilesUnscored run.files) :
    Keeps (fun s : Site τ => Fresh l s.tree) (Generate.writeRuns l runs) :=
  Action.keeps_of_adds
    (fun s => Generate.keeps_adds_writeRuns s.tree l h s (FileTree.Adds.refl _ _))
    fun _ _ h hadds => h.adds_unscored hadds

theorem hasManifest_of_written {names : List String}
    (hfit : ∀ n ∈ names, Manifest.fitsLine n = true)
    (h : FileTree.Written l.manifestPath (Manifest.body names).toUTF8 false t t') :
    HasManifest l t' names :=
  ⟨⟨false, h.sight_place⟩, hfit, h.reaches.isPath⟩

/-- Writing a manifest where there is no script leaves that manifest, or nothing has happened. -/
theorem leads_manifestWrite (names : List String)
    (submitted : Option (BatchHandle × List String)) :
    Leads (fun s : Site τ => Fresh l s.tree) (Manifest.write l names)
      (fun _ s => Fresh l s.tree ∧ HasManifest l s.tree names)
      (fun s => Consistent l s.tree submitted) := by
  by_cases hfit : ∀ n ∈ names, Manifest.fitsLine n = true
  · rw [manifestWrite_of_fits l hfit]
    refine Action.leads_replaceText (P := Fresh l) (Q := fun t => Fresh l t ∧ HasManifest l t names)
      (R := fun t => Consistent l t submitted) ?_ ?_
    · intro t t' h hwritten
      exact ⟨h.adds hwritten.adds place_submitScript_ne_manifest place_batchId_ne_manifest,
        hasManifest_of_written hfit hwritten⟩
    · intro t t' h hadds
      exact (h.adds hadds id id).consistent submitted
  · have hrefused : ∀ s : Site τ, ∃ name, outcome (Manifest.write l names) s =
        (.error (.configuration (.unwritableRunName name)), s) :=
      outcome_manifestWrite_of_not_fits hfit
    constructor
    · intro s u s' hs hx
      obtain ⟨name, hname⟩ := hrefused s
      rw [hname] at hx
      cases hx
    · intro s e s' hs hx
      obtain ⟨name, hname⟩ := hrefused s
      rw [hname] at hx
      cases hx
      exact Fresh.consistent hs submitted

/-- A suite stands that has not been submitted. -/
structure Unsubmitted (l : Layout) (t : FileTree) (names : List String) : Prop where
  ready : Ready l t names
  batch : ¬ (t.sight (t.place l.batchIdPath)).IsFile

theorem Unsubmitted.consistent {names : List String} (h : Unsubmitted l t names)
    (submitted : Option (BatchHandle × List String)) : Consistent l t submitted :=
  ⟨fun _ => ⟨names, h.ready⟩, fun hfile => absurd hfile h.batch⟩

theorem Unsubmitted.adds {names : List String} (h : Unsubmitted l t names) (hadds : t.Adds A t')
    (hM : ¬ A (t.place l.manifestPath)) (hS : ¬ A (t.place l.submitScriptPath))
    (hB : ¬ A (t.place l.batchIdPath)) : Unsubmitted l t' names := by
  refine ⟨h.ready.adds hadds hM hS, ?_⟩
  rw [hadds.place, hadds.isFile_iff hB]
  exact h.batch

/-- Writing a script beside its manifest makes a suite ready. -/
theorem unsubmitted_of_written {names : List String} {script : String} {executable : Bool}
    (hdir : l.experimentDir ≠ "") (harray : Script.HasArray l.experiment names.length script)
    (hmanifest : HasManifest l t names) (hbatch : ¬ (t.sight (t.place l.batchIdPath)).IsFile)
    (h : FileTree.Written l.submitScriptPath script.toUTF8 executable t t') :
    Unsubmitted l t' names := by
  have hholds : t'.holds l.experimentDir = true :=
    FileTree.holds_of_reaches_join Layout.isName_submitScriptFile hdir h.reaches
  refine ⟨⟨hmanifest.adds h.adds place_submitScript_ne_manifest.symm,
    ⟨script, executable, h.sight_place, harray, h.reaches.isPath⟩, hholds⟩, ?_⟩
  rw [h.adds.place, h.adds.isFile_iff place_batchId_ne_submitScript]
  exact hbatch

theorem leads_writeScript {names : List String} {script : String} (hdir : l.experimentDir ≠ "")
    (harray : Script.HasArray l.experiment names.length script)
    (submitted : Option (BatchHandle × List String)) :
    Leads (fun s : Site τ => Fresh l s.tree ∧ HasManifest l s.tree names)
      (Action.replaceText l.submitScriptPath script) (fun _ s => Unsubmitted l s.tree names)
      (fun s => Consistent l s.tree submitted) := by
  refine Action.leads_replaceText (P := fun t => Fresh l t ∧ HasManifest l t names)
    (Q := fun t => Unsubmitted l t names) (R := fun t => Consistent l t submitted) ?_ ?_
  · rintro t t' ⟨hfresh, hmanifest⟩ hwritten
    exact unsubmitted_of_written hdir harray hmanifest hfresh.batch hwritten
  · rintro t t' ⟨hfresh, -⟩ hadds
    exact (hfresh.adds hadds id id).consistent submitted

theorem keeps_unsubmitted_makeExecutable {names : List String} (hdir : l.experimentDir ≠ "") :
    Keeps (fun s : Site τ => Unsubmitted l s.tree names)
      (Action.change l.submitScriptPath (·.makeExecutable l.submitScriptPath)) := by
  intro s hs
  rw [Action.outcome_change]
  rcases hmake : s.tree.makeExecutable l.submitScriptPath with fault | t'
  · exact hs
  · obtain ⟨script, executable, hsight, harray, -⟩ := hs.ready.script
    exact unsubmitted_of_written hdir harray hs.ready.manifest hs.batch
      (FileTree.written_makeExecutable hsight hmake)

theorem keeps_unsubmitted_writeRecord {names : List String} (text : String) :
    Keeps (fun s : Site τ => Unsubmitted l s.tree names)
      (Action.replaceText l.suiteRecordPath text) := by
  intro s hs
  refine hs.adds (Action.adds_replaceText l.suiteRecordPath text s) ?_ ?_ ?_
  · exact place_ne Layout.isName_manifestFile Layout.isName_suiteRecordFile (by decide)
  · exact place_ne Layout.isName_submitScriptFile Layout.isName_suiteRecordFile (by decide)
  · exact place_ne Layout.isName_batchIdFile Layout.isName_suiteRecordFile (by decide)

theorem leads_placeScript {p : PreparedSuite} (record : Value) (hdir : l.experimentDir ≠ "")
    (harray : Script.HasArray l.experiment p.suite.runNames.length p.script)
    (submitted : Option (BatchHandle × List String)) :
    Leads (fun s : Site τ => Fresh l s.tree ∧ HasManifest l s.tree p.suite.runNames)
      (placeScript l p record)
      (fun _ s => Consistent l s.tree submitted) (fun s => Consistent l s.tree submitted) := by
  have hunsubmitted : ∀ s : Site τ, Unsubmitted l s.tree p.suite.runNames →
      Consistent l s.tree submitted := fun _ h => h.consistent submitted
  have hsay : ∀ line, Leads (fun s : Site τ => Unsubmitted l s.tree p.suite.runNames)
      (Action.say line) (fun _ s => Unsubmitted l s.tree p.suite.runNames)
      (fun s => Consistent l s.tree submitted) :=
    fun _ => Leads.of_keeps (fun _ h => h) hunsubmitted
  rw [placeScript]
  refine (leads_writeScript hdir harray submitted).bind fun _ => ?_
  refine (Leads.of_keeps (keeps_unsubmitted_makeExecutable hdir) hunsubmitted).bind fun _ => ?_
  refine (Leads.of_keeps (keeps_unsubmitted_writeRecord _) hunsubmitted).bind fun _ => ?_
  refine (hsay _).bind fun _ => ?_
  refine (hsay _).bind fun _ => ?_
  refine (hsay _).bind fun _ => ?_
  exact Leads.pure hunsubmitted

/-- However placing a suite ends, no script stands without its manifest. -/
theorem leads_placeSuite {p : PreparedSuite} (record : Value) (hdir : l.experimentDir ≠ "")
    (hfiles : ∀ run ∈ p.rendered, Generate.FilesUnscored run.files)
    (harray : Script.HasArray l.experiment p.suite.runNames.length p.script)
    (submitted : Option (BatchHandle × List String)) :
    Leads (fun s : Site τ => Consistent l s.tree submitted) (placeSuite l p record)
      (fun _ s => Consistent l s.tree submitted) (fun s => Consistent l s.tree submitted) := by
  have hfresh : ∀ s : Site τ, Fresh l s.tree → Consistent l s.tree submitted :=
    fun _ h => h.consistent submitted
  rw [placeSuite]
  refine (leads_clear submitted).bind fun _ => ?_
  refine (Leads.of_keeps (keeps_fresh_ensureDir _) hfresh).bind fun _ => ?_
  refine (Leads.of_keeps (keeps_fresh_writeRuns hfiles) hfresh).bind fun _ => ?_
  refine (leads_manifestWrite _ submitted).bind fun _ => ?_
  exact leads_placeScript record hdir harray submitted

theorem consistent_generateSuite {programs : Programs} {o : CompileOptions} {s : Site τ}
    {submitted : Option (BatchHandle × List String)} (hdir : l.experimentDir ≠ "")
    (h : Consistent l s.tree submitted) :
    Consistent l (outcome (generateSuite programs l o) s).2.tree submitted := by
  rw [outcome_generateSuite]
  rcases hp : prepareSuite programs s.tree l o with e | p
  · exact h
  · obtain ⟨plan, -, hrender⟩ := prepareSuite_ok hp
    have harray : Script.HasArray l.experiment p.suite.runNames.length p.script := by
      rw [CompiledSuite.runNames, List.length_map]
      exact hasArray_of_jobScript (renderSuite_ok hrender).2.2.2
    exact (leads_placeSuite _ hdir (filesUnscored_prepareSuite hp) harray submitted).state h

/-! ### Looking at the manifest -/

/-- A manifest is made again only where no suite stands. -/
theorem consistent_ensure {s : Site τ} {submitted : Option (BatchHandle × List String)}
    (h : Consistent l s.tree submitted) :
    Consistent l (outcome (Manifest.ensure l) s).2.tree submitted := by
  rw [Manifest.ensure, outcome_bind, Action.outcome_tree]
  simp only
  by_cases hholds : s.tree.holds l.manifestPath = true
  · rw [if_pos hholds]
    exact h
  · have hfresh : Fresh l s.tree := by
      have hready : ∀ names, ¬ Ready l s.tree names :=
        fun names hready => hholds (holds_of_read hready.read)
      constructor
      · intro hfile
        obtain ⟨names, hnames⟩ := h.script hfile
        exact hready names hnames
      · intro hfile
        obtain ⟨batch, names, -, hnames, -⟩ := h.batch hfile
        exact hready names hnames
    rw [if_neg hholds]
    split
    · exact h
    · have hregenerate : Leads (fun s : Site τ => Fresh l s.tree)
          (do
            Manifest.write l (Manifest.runDirectories s.tree l)
            Action.say (Manifest.regeneratedLine (Manifest.runDirectories s.tree l).length)
            return Manifest.Origin.regenerated (Manifest.runDirectories s.tree l).length)
          (fun _ s => Consistent l s.tree submitted) (fun s => Consistent l s.tree submitted) := by
        refine (leads_manifestWrite (Manifest.runDirectories s.tree l) submitted).bind fun _ => ?_
        refine (Leads.of_keeps (fun _ h => h) fun _ h => h.1.consistent submitted).bind fun _ => ?_
        exact Leads.pure fun _ h => h.1.consistent submitted
      exact hregenerate.state hfresh

theorem consistent_load {s : Site τ} {submitted : Option (BatchHandle × List String)}
    (h : Consistent l s.tree submitted) :
    Consistent l (outcome (Manifest.load l) s).2.tree submitted := by
  have hensured := consistent_ensure h
  rw [Manifest.load, outcome_bind]
  rcases hx : outcome (Manifest.ensure l) s with ⟨e | origin, s₁⟩ <;> rw [hx] at hensured
  · exact hensured
  · simp only
    rw [outcome_bind, Action.outcome_look]
    rcases Manifest.read s₁.tree l with e | names
    · exact hensured
    · exact hensured

end ParamSweep
