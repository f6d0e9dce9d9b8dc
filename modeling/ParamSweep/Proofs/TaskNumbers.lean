import ParamSweep.Proofs.Compilation
import ParamSweep.Proofs.Generation
import ParamSweep.Proofs.Reconciliation
import ParamSweep.Output.SuiteHealth
import ParamSweep.Tasks.Progress

/-!
The number of a task and the run that it stands for.

A suite numbers its runs from one, and the numbers are made up again in many places: by the job that
counts the lines of the manifest, by whoever reads the manifest, by the record of the suite, and by
each of the three reports. `sameRun_of_writeSuite` says that for a generated suite they all agree:
task `t` is one run, by one name, everywhere.
-/

namespace ParamSweep

variable {τ : Type}

/-! ### Numbered lists -/

/-- The item for task `t` of a list that counts from one has that number and the name of that
run. -/
def SaysRun {β : Type} (task : β → Nat) (run : β → String) (items : List β) (t : Nat)
    (name : String) : Prop :=
  ∃ b, items[t - 1]? = some b ∧ task b = t ∧ run b = name

theorem saysRun_zipIdx {β : Type} {task : β → Nat} {run : β → String} (f : Nat → String → β)
    (htask : ∀ k n, task (f k n) = k) (hrun : ∀ k n, run (f k n) = n) {names : List String}
    {t : Nat} {name : String} (ht : 1 ≤ t) (h : names[t - 1]? = some name) :
    SaysRun task run ((names.zipIdx 1).map fun p => f p.2 p.1) t name := by
  refine ⟨f t name, ?_, htask t name, hrun t name⟩
  rw [List.getElem?_map, List.getElem?_zipIdx, h]
  simp [Nat.add_sub_cancel' ht]

theorem ProgressReport.tasksFrom_eq (t : FileTree) (s : MonitorSettings) (index : TaskLogIndex) :
    ∀ (first : Nat) (runs : List String),
      tasksFrom t s index first runs =
        (runs.zipIdx first).map fun p => taskProgress t s index p.2 p.1
  | _, [] => rfl
  | first, run :: rest => by
    rw [tasksFrom, tasksFrom_eq t s index (first + 1) rest, List.zipIdx_cons, List.map_cons]

theorem SuiteHealth.assessFrom_eq (t : FileTree) (c : Criteria) (outputs : String) :
    ∀ (first : Nat) (runs : List String),
      assessFrom t c outputs first runs =
        (runs.zipIdx first).map fun p => assess t c outputs p.2 p.1
  | _, [] => rfl
  | first, run :: rest => by
    rw [assessFrom, assessFrom_eq t c outputs (first + 1) rest, List.zipIdx_cons, List.map_cons]

theorem Generate.runRecords_eq :
    ∀ (first : Nat) (runs : List Run),
      runRecords first runs = (runs.zipIdx first).map fun p => runRecord p.2 p.1
  | _, [] => rfl
  | first, run :: rest => by
    rw [runRecords, runRecords_eq (first + 1) rest, List.zipIdx_cons, List.map_cons]

/-! ### Reports -/

/-- Whatever the scheduler replies, a report on a batch numbers its runs. -/
theorem saysRun_reconcile {s : Scheduler τ} {batch : BatchHandle} {names : List String}
    {site site' : Site τ} {report : StatusReport}
    (h : outcome (reconcile s batch names) site = (.ok report, site')) {t : Nat} {name : String}
    (ht : 1 ≤ t) (hname : names[t - 1]? = some name) :
    SaysRun TaskReport.task TaskReport.run report.tasks t name := by
  obtain ⟨states, fill, source, rfl⟩ := build_of_reconcile h
  rw [StatusReport.build, StatusReport.tasksFrom_eq]
  exact saysRun_zipIdx
    (fun k n => (⟨k, n, ((states.state? k).map TaskStatus.ofState).getD fill, states.state? k⟩ :
      TaskReport)) (fun _ _ => rfl) (fun _ _ => rfl) ht hname

theorem saysRun_collect (tree : FileTree) (settings : MonitorSettings) (index : TaskLogIndex)
    {names : List String} {t : Nat} {name : String} (ht : 1 ≤ t)
    (hname : names[t - 1]? = some name) :
    SaysRun TaskProgress.task TaskProgress.run
      (ProgressReport.collect tree settings index names).tasks t name := by
  rw [ProgressReport.collect, ProgressReport.tasksFrom_eq]
  exact saysRun_zipIdx (ProgressReport.taskProgress tree settings index) (fun _ _ => rfl)
    (fun _ _ => rfl) ht hname

theorem holds_of_read {l : Layout} {t : FileTree} {names : List String}
    (h : Manifest.read t l = .ok names) : t.holds l.manifestPath = true := by
  rw [Manifest.read] at h
  split at h
  · assumption
  · cases h

/-- A manifest that is there is loaded as it is. -/
theorem outcome_load_of_read {l : Layout} {site : Site τ} {names : List String}
    (h : Manifest.read site.tree l = .ok names) :
    outcome (Manifest.load l) site = (.ok (names, .existing), site) := by
  have hensure : outcome (Manifest.ensure l) site = (.ok .existing, site) := by
    rw [Manifest.ensure, outcome_bind, Action.outcome_tree]
    simp [holds_of_read h]
  rw [Manifest.load, outcome_bind, hensure]
  simp only
  rw [outcome_bind, Action.outcome_look, h]
  rfl

theorem Manifest.load_ok {l : Layout} {s s₁ : Site τ} {names : List String}
    {origin : Manifest.Origin} (h : outcome (Manifest.load l) s = (.ok (names, origin), s₁)) :
    Manifest.read s₁.tree l = .ok names := by
  obtain ⟨_, s₂, -, h⟩ := outcome_bind_ok h
  obtain ⟨read, s₃, hread, h⟩ := outcome_bind_ok h
  rw [Action.outcome_look, Prod.mk.injEq] at hread
  obtain ⟨hread, rfl⟩ := hread
  cases h
  exact hread

/-- A successful analysis loads the manifest, judges every run by the tree as it is then, and writes
the report. -/
theorem analyzeSuite_ok {l : Layout} {outputs : String} {c : Criteria} {s s₁ : Site τ}
    {report : SuiteHealth} (h : outcome (analyzeSuite l outputs c) s = (.ok report, s₁)) :
    ∃ names origin loaded written,
      outcome (Manifest.load l) s = (.ok (names, origin), loaded) ∧
      report = ⟨l.experiment, SuiteHealth.assessFrom loaded.tree c outputs 1 names⟩ ∧
      outcome (Action.replaceText l.validationPath (report.toValue loaded.now).pretty) loaded =
        (.ok ⟨⟩, written) := by
  obtain ⟨⟨names, origin⟩, loaded, hload, h⟩ := outcome_bind_ok h
  simp only at h
  rw [outcome_bind, Action.outcome_tree] at h
  simp only at h
  rw [outcome_bind, Action.outcome_now] at h
  simp only at h
  obtain ⟨_, written, hwrite, h⟩ := outcome_bind_ok h
  obtain ⟨_, _, -, h⟩ := outcome_bind_ok h
  obtain ⟨_, _, -, h⟩ := outcome_bind_ok h
  obtain ⟨_, _, -, h⟩ := outcome_bind_ok h
  cases h
  exact ⟨names, origin, loaded, written, hload, rfl, hwrite⟩

/-- Whatever the outputs are, a report on the health of a suite numbers its runs. -/
theorem saysRun_analyzeSuite {l : Layout} {outputs : String} {c : Criteria} {site site' : Site τ}
    {names : List String} {report : SuiteHealth} (hread : Manifest.read site.tree l = .ok names)
    (h : outcome (analyzeSuite l outputs c) site = (.ok report, site')) {t : Nat} {name : String}
    (ht : 1 ≤ t) (hname : names[t - 1]? = some name) :
    SaysRun RunHealth.task RunHealth.run report.runs t name := by
  obtain ⟨_, _, _, _, hload, rfl, -⟩ := analyzeSuite_ok h
  rw [outcome_load_of_read hread] at hload
  cases hload
  rw [SuiteHealth.assessFrom_eq]
  exact saysRun_zipIdx (SuiteHealth.assess site.tree c outputs) (fun _ _ => rfl)
    (fun _ _ => rfl) ht hname

/-! ### The record of a suite -/

/-- The record of a suite has one entry for task `t`, in the `t`-th place, and it has that name. -/
def RecordsRun (record : Value) (t : Nat) (name : String) : Prop :=
  ∃ entries entry, record.get? "runs" = some (.list entries) ∧ entries[t - 1]? = some entry ∧
    entry.get? "task_id" = some (.nat t) ∧ entry.get? "name" = some (.str name) ∧
    ∀ other ∈ entries, other.get? "task_id" = some (.nat t) → other = entry

theorem get?_suiteRecord (s : CompiledSuite) (renderer : String) (now : Moment) :
    (Generate.suiteRecord s renderer now).get? "runs" =
      some (.list (Generate.runRecords 1 s.runs)) := by
  simp [Generate.suiteRecord, Value.record, Entries.ofList, Value.get?, Entries.find?_insert]

theorem get?_runRecord_task (task : Nat) (run : Run) :
    (Generate.runRecord task run).get? "task_id" = some (.nat task) := by
  simp [Generate.runRecord, Value.record, Entries.ofList, Value.get?, Entries.find?_insert]

theorem get?_runRecord_name (task : Nat) (run : Run) :
    (Generate.runRecord task run).get? "name" = some (.str run.name) := by
  simp [Generate.runRecord, Value.record, Entries.ofList, Value.get?, Entries.find?_insert]

theorem recordsRun_suiteRecord {s : CompiledSuite} {renderer : String} {now : Moment} {t : Nat}
    {name : String} (ht : 1 ≤ t) (hname : s.runNames[t - 1]? = some name) :
    RecordsRun (Generate.suiteRecord s renderer now) t name := by
  rw [CompiledSuite.runNames, List.getElem?_map] at hname
  obtain ⟨run, hrun, rfl⟩ := Option.map_eq_some_iff.1 hname
  refine ⟨_, Generate.runRecord t run, get?_suiteRecord s renderer now, ?_,
    get?_runRecord_task t run, get?_runRecord_name t run, ?_⟩
  · rw [Generate.runRecords_eq, List.getElem?_map, List.getElem?_zipIdx, hrun]
    simp [Nat.add_sub_cancel' ht]
  · intro other hother htask
    rw [Generate.runRecords_eq] at hother
    obtain ⟨⟨run', k⟩, hmem, rfl⟩ := List.mem_map.1 hother
    have hcast : (k : Int) = t := by
      simpa [get?_runRecord_task, Value.nat] using htask
    have hk : k = t := by omega
    have hrun' := List.mk_mem_zipIdx_iff_le_and_getElem?_sub.1 hmem
    rw [hk, hrun, Option.some.injEq] at hrun'
    rw [hrun'.2, hk]

/-! ### The files of a suite -/

/-- The script starts with the name of the experiment and an array from one to `n`. -/
structure Script.HasArray (experiment : String) (n : Nat) (script : String) : Prop where
  head : ∃ rest, script = "#!/bin/bash\n" ++ "#SBATCH --job-name=" ++ experiment ++ "\n" ++
    "#SBATCH --array=1-" ++ toString n ++ "\n" ++ rest

theorem hasArray_of_build {i : Script.Inputs} {script : String} (h : Script.build i = .ok script) :
    Script.HasArray i.experiment i.numRuns script := by
  obtain ⟨lines, hlines, rfl⟩ := except_map_ok h
  rw [Script.lines] at hlines
  split at hlines
  · cases hlines
  · obtain ⟨directives, -, hlines⟩ := except_bind_ok hlines
    cases hlines
    simp only [Script.ownDirectives, List.cons_append, List.nil_append, List.map_cons,
      String.join_cons]
    exact ⟨⟨_, by simp only [String.append_assoc]; rfl⟩⟩

theorem hasArray_of_jobScript {l : Layout} {plan : Plan} {s : CompiledSuite} {script : String}
    (h : Generate.jobScript l plan s = .ok script) :
    Script.HasArray l.experiment s.runs.length script := by
  rw [Generate.jobScript] at h
  exact hasArray_of_build h

theorem readText_holds {t : FileTree} {path text : String} (h : t.readText path = .ok text) :
    t.holds path = true := by
  obtain ⟨bytes, hbytes, -⟩ := except_bind_ok h
  obtain ⟨hreach, executable, hsight⟩ := FileTree.readBytes_eq_ok_iff.1 hbytes
  exact FileTree.holds_iff.2 ⟨hreach, by simp [hsight]⟩

/-- A manifest of names that fit is read to these names. -/
theorem read_of_readText {l : Layout} {t : FileTree} {names : List String}
    (htext : t.readText l.manifestPath = .ok (Manifest.body names))
    (hfit : ∀ n ∈ names, Manifest.fitsLine n = true) : Manifest.read t l = .ok names := by
  rw [Manifest.read, if_pos (readText_holds htext), htext]
  exact congrArg Except.ok (Manifest.parse_body hfit)

/-- What follows the manifest leaves the script and the record of the suite, and the manifest as it
is: each of these files has a place of its own. -/
theorem placeScript_ok {l : Layout} {p : PreparedSuite} {record : Value} {s s' : Site τ}
    {g : GeneratedSuite} (h : outcome (placeScript l p record) s = (.ok g, s')) :
    g.runs = p.suite.runs.length ∧
      s'.tree.readText l.submitScriptPath = .ok p.script ∧
      s'.tree.readText l.suiteRecordPath = .ok record.pretty ∧
      ∀ text, s.tree.readText l.manifestPath = .ok text →
        s'.tree.readText l.manifestPath = .ok text := by
  obtain ⟨_, s₁, hscript, h⟩ := outcome_bind_ok h
  obtain ⟨_, s₂, hexecutable, h⟩ := outcome_bind_ok h
  obtain ⟨_, s₃, hrecord, h⟩ := outcome_bind_ok h
  have hrest : s'.tree = s₃.tree ∧ g.runs = p.suite.runs.length := by
    obtain ⟨_, _, h₁, h⟩ := outcome_bind_ok h
    obtain ⟨_, _, h₂, h⟩ := outcome_bind_ok h
    obtain ⟨_, _, h₃, h⟩ := outcome_bind_ok h
    cases h₁
    cases h₂
    cases h₃
    cases h
    exact ⟨rfl, rfl⟩
  have hwritten₁ := Action.written_replaceText hscript
  have hwritten₂ := FileTree.written_makeExecutable hwritten₁.sight_place
    (Action.outcome_change_ok hexecutable)
  have hwritten₃ := Action.written_replaceText hrecord
  rw [hrest.1]
  refine ⟨hrest.2, hwritten₃.adds.readText ?_ hwritten₂.readText, hwritten₃.readText, ?_⟩
  · rw [Layout.place_submitScriptPath, Layout.place_suiteRecordPath]
    simp
  · intro text htext
    refine hwritten₃.adds.readText ?_ (hwritten₂.adds.readText ?_
      (hwritten₁.adds.readText ?_ htext))
    · rw [Layout.place_manifestPath, Layout.place_suiteRecordPath]
      simp [manifestFile]
    · rw [Layout.place_manifestPath, Layout.place_submitScriptPath]
      simp [manifestFile]
    · rw [Layout.place_manifestPath, Layout.place_submitScriptPath]
      simp [manifestFile]

/-- The second half of generation, when it succeeds, leaves the manifest, the script and the record
of the suite. -/
theorem placeSuite_ok {l : Layout} {p : PreparedSuite} {record : Value} {s s' : Site τ}
    {g : GeneratedSuite} (h : outcome (placeSuite l p record) s = (.ok g, s')) :
    p.NamesFit ∧ g.runs = p.suite.runs.length ∧
      s'.tree.readText l.manifestPath = .ok (Manifest.body p.suite.runNames) ∧
      s'.tree.readText l.submitScriptPath = .ok p.script ∧
      s'.tree.readText l.suiteRecordPath = .ok record.pretty := by
  obtain ⟨_, s₁, -, h⟩ := outcome_bind_ok h
  obtain ⟨_, s₂, -, h⟩ := outcome_bind_ok h
  obtain ⟨_, s₃, -, h⟩ := outcome_bind_ok h
  obtain ⟨_, s₄, hmanifest, h⟩ := outcome_bind_ok h
  have hfit : p.NamesFit := Classical.byContradiction fun hnot => by
    obtain ⟨name, hrefused⟩ := outcome_manifestWrite_of_not_fits (l := l) hnot s₃
    rw [hrefused] at hmanifest
    cases hmanifest
  rw [manifestWrite_of_fits l hfit] at hmanifest
  obtain ⟨hruns, hscript, hrecord, hkept⟩ := placeScript_ok h
  exact ⟨hfit, hruns, hkept _ (Action.written_replaceText hmanifest).readText, hscript, hrecord⟩

/-- All that tells which run task `t` is says that it is the run `name`: the line of the manifest
that the job takes, the names that the manifest is read to, the record of the suite, the report on
the status of a batch, the report on the progress of its tasks, and the report on its health. -/
structure TaskIsRun (l : Layout) (site : Site τ) (t : Nat) (name : String) : Prop where
  line : ∃ text, site.tree.readText l.manifestPath = .ok text ∧
    (Text.terminatedLines text)[t - 1]? = some name
  record : ∃ record : Value, site.tree.readText l.suiteRecordPath = .ok record.pretty ∧
    RecordsRun record t name
  read : ∃ names, Manifest.read site.tree l = .ok names ∧ names[t - 1]? = some name
  status : ∀ names, Manifest.read site.tree l = .ok names →
    ∀ (scheduler : Scheduler τ) (batch : BatchHandle) (now later : Site τ) (report : StatusReport),
      outcome (reconcile scheduler batch names) now = (.ok report, later) →
        SaysRun TaskReport.task TaskReport.run report.tasks t name
  progress : ∀ names, Manifest.read site.tree l = .ok names →
    ∀ (tree : FileTree) (settings : MonitorSettings) (index : TaskLogIndex),
      SaysRun TaskProgress.task TaskProgress.run
        (ProgressReport.collect tree settings index names).tasks t name
  health : ∀ now : Site τ, Manifest.read now.tree l = Manifest.read site.tree l →
    ∀ (outputs : String) (criteria : Criteria) (later : Site τ) (report : SuiteHealth),
      outcome (analyzeSuite l outputs criteria) now = (.ok report, later) →
        SaysRun RunHealth.task RunHealth.run report.runs t name

/-- A generated suite numbers its runs in one way. Its names differ from each other, its manifest is
read to them, its script is an array from one to their number, and for each number in that array
there is one run that everything says it is. -/
theorem sameRun_of_writeSuite {source : ConfigSource} {experiment : String} {compiled plan : Plan}
    {o : CompileOptions} {suite : CompiledSuite} {r r' : Resolver}
    (hcompiled : outcome (compileSuite source experiment compiled o) r = (.ok suite, r'))
    {l : Layout} {renderer : Renderer} {site site' : Site τ} {g : GeneratedSuite}
    (hwritten : outcome (writeSuite l plan suite renderer) site = (.ok g, site')) :
    suite.runNames.Nodup ∧ g.runs = suite.runNames.length ∧
      Manifest.read site'.tree l = .ok suite.runNames ∧
      (∃ script, site'.tree.readText l.submitScriptPath = .ok script ∧
        Script.HasArray l.experiment suite.runNames.length script) ∧
      ∀ t, 1 ≤ t → t ≤ suite.runNames.length →
        ∃ name, suite.runNames[t - 1]? = some name ∧ TaskIsRun l site' t name := by
  rw [outcome_writeSuite] at hwritten
  rcases hp : renderSuite l plan suite renderer with e | p
  · rw [hp] at hwritten
    cases hwritten
  · rw [hp] at hwritten
    obtain ⟨rfl, rfl, -, hscript⟩ := renderSuite_ok hp
    obtain ⟨hfit, hruns, hmanifestText, hscriptText, hrecordText⟩ := placeSuite_ok hwritten
    have hread : Manifest.read site'.tree l = .ok p.suite.runNames :=
      read_of_readText hmanifestText hfit
    have hlength : p.suite.runNames.length = p.suite.runs.length := List.length_map _
    refine ⟨nodup_runNames hcompiled, hruns.trans hlength.symm, hread,
      ⟨p.script, hscriptText, ?_⟩, ?_⟩
    · rw [hlength]
      exact hasArray_of_jobScript hscript
    · intro t ht htn
      have hname : p.suite.runNames[t - 1]? = some p.suite.runNames[t - 1] :=
        List.getElem?_eq_getElem (by omega)
      refine ⟨_, hname, ?_⟩
      constructor
      case line =>
        exact ⟨_, hmanifestText, by rw [Manifest.terminatedLines_body hfit, hname]⟩
      case record => exact ⟨_, hrecordText, recordsRun_suiteRecord ht hname⟩
      case read => exact ⟨_, hread, hname⟩
      case status =>
        intro names hnames _ _ _ _ report hreport
        cases hread.symm.trans hnames
        exact saysRun_reconcile hreport ht hname
      case progress =>
        intro names hnames tree settings index
        cases hread.symm.trans hnames
        exact saysRun_collect tree settings index ht hname
      case health =>
        intro now hnow _ _ _ report hreport
        exact saysRun_analyzeSuite (hnow.trans hread) hreport ht hname

/-- A plan with a run for each of two branches. -/
def twoBranches : Plan := { branches := [{ name := "x" }, { name := "y" }] }

/-- The suite of that plan for the experiment `e`. -/
def twoRuns : CompiledSuite :=
  (outcome (compileSuite (ConfigSource.ofTree (siteWithPlan "").tree "config") "e" twoBranches {})
    {}).1.toOption.getD default

/-- Both runs of the suite of two branches have their numbers when it has been written. -/
theorem sameRun_of_two_branches :
    ∃ site' : Site Unit, twoRuns.runNames = ["x", "y"] ∧
      (outcome (writeSuite usualLayout twoBranches twoRuns Renderer.structured)
        (siteWithPlan "")).2 = site' ∧
      TaskIsRun usualLayout site' 1 "x" ∧ TaskIsRun usualLayout site' 2 "y" := by
  have hrun : (outcome (compileSuite (ConfigSource.ofTree (siteWithPlan "").tree "config") "e"
        twoBranches {}) {}).1.isOk = true ∧
      (outcome (writeSuite usualLayout twoBranches twoRuns Renderer.structured)
        (siteWithPlan "")).1.isOk = true ∧
      twoRuns.runNames = ["x", "y"] := by
    decide +kernel
  obtain ⟨hcompiled, hwritten, hnames⟩ := hrun
  obtain ⟨-, -, -, -, htasks⟩ := sameRun_of_writeSuite (outcome_of_isOk hcompiled)
    (outcome_of_isOk hwritten)
  refine ⟨_, hnames, rfl, ?_, ?_⟩
  · obtain ⟨name, hname, htask⟩ := htasks 1 (by decide) (by rw [← twoRuns, hnames]; decide)
    rw [← twoRuns, hnames] at hname
    cases hname
    exact htask
  · obtain ⟨name, hname, htask⟩ := htasks 2 (by decide) (by rw [← twoRuns, hnames]; decide)
    rw [← twoRuns, hnames] at hname
    cases hname
    exact htask

end ParamSweep
