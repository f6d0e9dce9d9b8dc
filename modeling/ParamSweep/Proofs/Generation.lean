import ParamSweep.Proofs.Writing

/-!
Generation in two halves.

The first half, `prepareSuite`, only looks: it reads the plan and the configuration, compiles the
runs, renders them, and makes up the job script. The second half, `placeSuite`, clears the
experiment's directory and builds it anew. `outcome_generateSuite` says that generating is the one
and then the other.

A refusal is meant to come before anything is touched. It does so in all cases but one: the manifest
is stricter about the names of runs than compilation is, and looks at them only when the directory
has been cleared. `experimentDir_of_refused` says exactly this.
-/

namespace ParamSweep

/-- Whether an error says that the configuration asks for something impossible. -/
def Error.isConfigurationFault : Error → Bool
  | .configuration _ => true
  | .circularInheritance _ => true
  | _ => false

/-- Whether an answer is such a refusal. -/
def isRefusal {α : Type} : Except Error α → Bool
  | .error e => e.isConfigurationFault
  | .ok _ => false

theorem exists_of_isRefusal {α : Type} {r : Except Error α} (h : isRefusal r = true) :
    ∃ e : Error, e.isConfigurationFault = true ∧ r = .error e := by
  cases r with
  | error e => exact ⟨e, h, rfl⟩
  | ok a => cases h

theorem Error.not_isFileFault {e : Error} (h : e.isConfigurationFault = true) :
    ¬ e.IsFileFault := by
  cases e <;> simp_all [isConfigurationFault, IsFileFault]

/-! ### The two halves -/

/-- All that is to be written. -/
structure PreparedSuite where
  suite : CompiledSuite
  renderer : Renderer
  rendered : List RenderedRun
  script : String

namespace PreparedSuite

/-- Every name of a run can stand on a line of the manifest. -/
def NamesFit (p : PreparedSuite) : Prop := ∀ n ∈ p.suite.runNames, Manifest.fitsLine n = true

end PreparedSuite

/-- What a compiled suite is rendered to. -/
def renderSuite (l : Layout) (plan : Plan) (s : CompiledSuite) (r : Renderer) :
    Except Error PreparedSuite :=
  if s.runs.isEmpty then .error (.configuration .suiteWithoutRuns)
  else do
    let rendered ← (Generate.renderRuns r s.runs).mapError Error.configuration
    let script ← (Generate.jobScript l plan s).mapError Error.configuration
    .ok ⟨s, r, rendered, script⟩

/-- The first half of generation: it looks at the files and changes none. -/
def prepareSuite (programs : Programs) (t : FileTree) (l : Layout) (o : CompileOptions) :
    Except Error PreparedSuite := do
  let (plan, suite) ← compileExperiment t l o
  let renderer ← (Renderer.ofCommand? programs t plan.renderCommand).mapError Error.configuration
  renderSuite l plan suite renderer

variable {τ : Type}

/-- The part of the second half that follows the manifest. -/
def placeScript (l : Layout) (p : PreparedSuite) (record : Value) : Action τ GeneratedSuite := do
  Action.replaceText l.submitScriptPath p.script
  Action.change l.submitScriptPath (·.makeExecutable l.submitScriptPath)
  Action.replaceText l.suiteRecordPath record.pretty
  Action.say ("generated " ++ toString p.suite.runs.length ++ " run(s) in " ++
    l.generatedConfigsDir)
  Action.say ("manifest: " ++ l.manifestPath)
  Action.say ("submit script: " ++ l.submitScriptPath)
  return ⟨l, p.suite.runs.length, p.suite.plannedRuns, p.suite.rebuild, p.renderer.name⟩

/-- The second half of generation: everything that touches the files. -/
def placeSuite (l : Layout) (p : PreparedSuite) (record : Value) : Action τ GeneratedSuite := do
  Generate.clear l
  Action.ensureDir l.schedulerLogsDir
  Generate.writeRuns l p.rendered
  Manifest.write l p.suite.runNames
  placeScript l p record

theorem renderSuite_ok {l : Layout} {plan : Plan} {s : CompiledSuite} {r : Renderer}
    {p : PreparedSuite} (h : renderSuite l plan s r = .ok p) :
    p.suite = s ∧ p.renderer = r ∧ Generate.renderRuns r s.runs = .ok p.rendered ∧
      Generate.jobScript l plan s = .ok p.script := by
  rw [renderSuite] at h
  split at h
  · cases h
  · obtain ⟨rendered, hrendered, h⟩ := except_bind_ok h
    obtain ⟨script, hscript, h⟩ := except_bind_ok h
    cases h
    exact ⟨rfl, rfl, mapError_ok hrendered, mapError_ok hscript⟩

theorem outcome_writeSuite (l : Layout) (plan : Plan) (s : CompiledSuite) (r : Renderer)
    (site : Site τ) :
    outcome (writeSuite l plan s r) site =
      match renderSuite l plan s r with
      | .error e => (.error e, site)
      | .ok p => outcome (placeSuite l p (Generate.suiteRecord s r.name site.now)) site := by
  rw [writeSuite, renderSuite]
  split
  · rfl
  · rw [outcome_bind, Action.outcome_ofCause]
    rcases Generate.renderRuns r s.runs with cause | rendered
    · rfl
    · simp only [mapError_of_ok]
      rw [outcome_bind, Action.outcome_ofCause]
      rcases Generate.jobScript l plan s with cause | script
      · rfl
      · simp only [mapError_of_ok]
        rw [outcome_bind, Action.outcome_now]
        rfl

/-- Generating is preparing and then placing; a failed preparation leaves the site as it is. -/
theorem outcome_generateSuite (programs : Programs) (l : Layout) (o : CompileOptions)
    (site : Site τ) :
    outcome (generateSuite programs l o) site =
      match prepareSuite programs site.tree l o with
      | .error e => (.error e, site)
      | .ok p =>
        outcome (placeSuite l p (Generate.suiteRecord p.suite p.renderer.name site.now)) site := by
  rw [generateSuite, prepareSuite, outcome_bind, Action.outcome_tree]
  simp only
  rw [outcome_bind, Action.outcome_ofExcept]
  rcases compileExperiment site.tree l o with e | ⟨plan, suite⟩
  · rfl
  · simp only [except_ok_bind]
    rw [outcome_bind, Action.outcome_ofCause]
    rcases Renderer.ofCommand? programs site.tree plan.renderCommand with cause | renderer
    · rfl
    · simp only [mapError_of_ok, except_ok_bind, outcome_writeSuite]
      rcases hp : renderSuite l plan suite renderer with e | p
      · rfl
      · obtain ⟨rfl, rfl, -, -⟩ := renderSuite_ok hp
        rfl

/-- What has been prepared is a compiled suite with its rendered runs and its script. -/
theorem prepareSuite_ok {programs : Programs} {t : FileTree} {l : Layout} {o : CompileOptions}
    {p : PreparedSuite} (h : prepareSuite programs t l o = .ok p) :
    ∃ plan, compileExperiment t l o = .ok (plan, p.suite) ∧
      renderSuite l plan p.suite p.renderer = .ok p := by
  obtain ⟨⟨plan, suite⟩, hcompiled, h⟩ := except_bind_ok h
  obtain ⟨renderer, -, h⟩ := except_bind_ok h
  obtain ⟨rfl, rfl, -, -⟩ := renderSuite_ok h
  exact ⟨plan, hcompiled, h⟩

/-- What has been generated was prepared and then placed. -/
theorem generateSuite_ok {programs : Programs} {l : Layout} {o : CompileOptions} {s s' : Site τ}
    {g : GeneratedSuite} (h : outcome (generateSuite programs l o) s = (.ok g, s')) :
    ∃ p, prepareSuite programs s.tree l o = .ok p ∧
      outcome (placeSuite l p (Generate.suiteRecord p.suite p.renderer.name s.now)) s =
        (.ok g, s') := by
  rw [outcome_generateSuite] at h
  split at h
  · cases h
  next p hp => exact ⟨p, hp, h⟩

/-! ### Failures of the second half -/

/-- Where all names fit, the manifest is a file like any other. -/
theorem manifestWrite_of_fits (l : Layout) {names : List String}
    (h : ∀ n ∈ names, Manifest.fitsLine n = true) :
    (Manifest.write l names : Action τ Unit) =
      Action.replaceText l.manifestPath (Manifest.body names) := by
  have hnone : names.find? (fun n => !Manifest.fitsLine n) = none := by
    rw [List.find?_eq_none]
    intro n hn
    simp [h n hn]
  rw [Manifest.write, hnone]

theorem failsOnly_manifestWrite {l : Layout} {names : List String}
    (h : ∀ n ∈ names, Manifest.fitsLine n = true) :
    FailsOnly Error.IsFileFault (Manifest.write l names : Action τ Unit) := by
  rw [manifestWrite_of_fits l h]
  exact Action.failsOnly_replaceText _ _

theorem failsOnly_placeScript (l : Layout) (p : PreparedSuite) (record : Value) :
    FailsOnly Error.IsFileFault (placeScript l p record : Action τ GeneratedSuite) :=
  (Action.failsOnly_replaceText _ _).bind fun _ =>
    (Action.failsOnly_change _ _).bind fun _ =>
      (Action.failsOnly_replaceText _ _).bind fun _ =>
        (Action.failsOnly_say _).bind fun _ => (Action.failsOnly_say _).bind fun _ =>
          (Action.failsOnly_say _).bind fun _ => FailsOnly.pure _

/-- Where all names fit, nothing but the file system can stop the second half. -/
theorem failsOnly_placeSuite (l : Layout) {p : PreparedSuite} (record : Value) (h : p.NamesFit) :
    FailsOnly Error.IsFileFault (placeSuite l p record : Action τ GeneratedSuite) :=
  (Generate.failsOnly_clear l).bind fun _ =>
    (Action.failsOnly_ensureDir _).bind fun _ =>
      (Generate.failsOnly_writeRuns l _).bind fun _ =>
        (failsOnly_manifestWrite h).bind fun _ => failsOnly_placeScript l p record

/-! ### Refusals -/

theorem filesUnscored_prepareSuite {programs : Programs} {t : FileTree} {l : Layout}
    {o : CompileOptions} {p : PreparedSuite} (h : prepareSuite programs t l o = .ok p) :
    ∀ run ∈ p.rendered, Generate.FilesUnscored run.files := by
  obtain ⟨plan, -, hrender⟩ := prepareSuite_ok h
  exact Generate.filesUnscored_renderRuns (renderSuite_ok hrender).2.2.1

theorem outcome_manifestWrite_of_not_fits {l : Layout} {names : List String}
    (h : ¬ ∀ n ∈ names, Manifest.fitsLine n = true) (s : Site τ) :
    ∃ name, outcome (Manifest.write l names) s =
      (.error (.configuration (.unwritableRunName name)), s) := by
  rcases hfind : names.find? (fun n => !Manifest.fitsLine n) with _ | name
  · exact absurd (fun n hn => by simpa using List.find?_eq_none.1 hfind n hn) h
  · refine ⟨name, ?_⟩
    rw [Manifest.write, hfind]
    rfl

/-- The second half refuses a suite only for the name of a run, and by then the manifest that was
there is lost. -/
theorem manifest_lost_of_placeSuite {l : Layout} {p : PreparedSuite} {record : Value}
    {s s' : Site τ} {e : Error} (hfiles : ∀ run ∈ p.rendered, Generate.FilesUnscored run.files)
    (hfit : ¬ p.NamesFit) (he : e.isConfigurationFault = true)
    (h : outcome (placeSuite l p record) s = (.error e, s')) :
    (∃ name, e = .configuration (.unwritableRunName name)) ∧
      (s.tree.holds l.experimentDir = true → s.tree.isFile l.manifestPath = true →
        ¬ (s'.tree.sight (s.tree.place l.manifestPath)).IsFile) := by
  have hfault := Error.not_isFileFault he
  rcases outcome_bind_error h with h | ⟨_, s₁, hclear, h⟩
  · exact absurd h ((Generate.failsOnly_clear l).ne_error hfault _ _)
  rcases outcome_bind_error h with h | ⟨_, s₂, hdir, h⟩
  · exact absurd h ((Action.failsOnly_ensureDir _).ne_error hfault _ _)
  rcases outcome_bind_error h with h | ⟨_, s₃, hruns, h⟩
  · exact absurd h ((Generate.failsOnly_writeRuns l _).ne_error hfault _ _)
  obtain ⟨name, hwrite⟩ := outcome_manifestWrite_of_not_fits (l := l) hfit s₃
  have herror : Error.configuration (.unwritableRunName name) = e ∧ s₃ = s' := by
    rw [outcome_bind, hwrite] at h
    simpa using h
  obtain ⟨rfl, rfl⟩ := herror
  refine ⟨⟨name, rfl⟩, fun hholds hmanifest => ?_⟩
  -- clearing has succeeded, so the manifest is gone; what follows puts no file in its place
  have hgone : s₁.tree.sight (s.tree.place l.manifestPath) = .nothing := by
    rcases Generate.clear_ok hclear with ⟨-, hcleared⟩ | ⟨hnot, -⟩
    · rw [Layout.place_manifestPath]
      exact hcleared.below _ (List.cons_ne_nil _ _)
    · rw [hholds] at hnot
      cases hnot
  have hadds : s₁.tree.Adds Generate.Unscored s₃.tree := by
    have hmade := (Action.keeps_adds_ensureDir (A := Generate.Unscored) s₁.tree _).after
      (FileTree.Adds.refl _ _) hdir
    exact (Generate.keeps_adds_writeRuns s₁.tree l hfiles).after hmade hruns
  have hunscored : ¬ Generate.Unscored (s.tree.place l.manifestPath) := by
    rw [Layout.place_manifestPath]
    exact Generate.not_unscored_append (by decide)
  rw [hadds.isFile_iff hunscored, hgone]
  rintro ⟨_, _, hfile⟩
  cases hfile

/-- Every run of the suite that there would be has a name that fits on a line of the manifest. -/
def NamesFit (programs : Programs) (t : FileTree) (l : Layout) (o : CompileOptions) : Prop :=
  ∀ p, prepareSuite programs t l o = .ok p → p.NamesFit

/-- The experiment's directory, and all that is in it, is what it was. -/
def SameDirectory (l : Layout) (s s' : Site τ) : Prop :=
  s'.tree.nodeAt? (s.tree.place l.experimentDir) = s.tree.nodeAt? (s.tree.place l.experimentDir)

theorem SameDirectory.sight {l : Layout} {s s' : Site τ} (h : SameDirectory l s s')
    (rest : List String) :
    s'.tree.sight (s.tree.place l.experimentDir ++ rest) =
      s.tree.sight (s.tree.place l.experimentDir ++ rest) := by
  rw [FileTree.sight, FileTree.sight, FileTree.nodeAt?, FileTree.nodeAt?, Node.nodeAt?_append,
    Node.nodeAt?_append]
  exact congrArg (fun n => Sight.ofNode (n.bind (Node.nodeAt? rest))) h

theorem not_sameDirectory {l : Layout} {s s' : Site τ}
    (hbefore : (s.tree.sight (s.tree.place l.manifestPath)).IsFile)
    (hafter : ¬ (s'.tree.sight (s.tree.place l.manifestPath)).IsFile) : ¬ SameDirectory l s s' := by
  intro hsame
  refine hafter ?_
  rw [Layout.place_manifestPath] at hbefore ⊢
  rwa [hsame.sight]

/-- A refused generation changes nothing at all where every name of a run fits on a line of the
manifest. Where one does not, it is refused for that name, and a directory with a suite in it is
not what it was: it has been cleared. -/
theorem experimentDir_of_refused (programs : Programs) (l : Layout) (o : CompileOptions)
    (s s' : Site τ) (e : Error) (he : e.isConfigurationFault = true)
    (h : outcome (generateSuite programs l o) s = (.error e, s')) :
    (NamesFit programs s.tree l o → s' = s) ∧
      (¬ NamesFit programs s.tree l o →
        ∃ name, e = .configuration (.unwritableRunName name)) ∧
      (s.tree.holds l.experimentDir = true → s.tree.isFile l.manifestPath = true →
        (SameDirectory l s s' ↔ NamesFit programs s.tree l o)) := by
  rw [outcome_generateSuite] at h
  rcases hp : prepareSuite programs s.tree l o with e' | p
  · rw [hp] at h
    obtain ⟨-, rfl⟩ := Prod.mk.inj h
    have hfit : NamesFit programs s.tree l o := fun p hp' => by rw [hp] at hp'; cases hp'
    exact ⟨fun _ => rfl, fun hnot => absurd hfit hnot, fun _ _ => ⟨fun _ => hfit, fun _ => rfl⟩⟩
  · rw [hp] at h
    have hiff : NamesFit programs s.tree l o ↔ p.NamesFit := by
      simp [NamesFit, hp]
    rw [hiff]
    by_cases hfit : p.NamesFit
    · exact absurd h ((failsOnly_placeSuite l _ hfit).ne_error (Error.not_isFileFault he) _ _)
    · obtain ⟨hname, hlost⟩ :=
        manifest_lost_of_placeSuite (filesUnscored_prepareSuite hp) hfit he h
      refine ⟨fun hfit' => absurd hfit' hfit, fun _ => hname, fun hholds hmanifest => ?_⟩
      have hbefore := (FileTree.isFile_iff.1 hmanifest).2
      exact ⟨fun hsame => absurd hsame (not_sameDirectory hbefore (hlost hholds hmanifest)),
        fun hfit' => absurd hfit' hfit⟩

/-- An experiment with a plan and the manifest of an earlier suite. -/
def siteWithPlan (plan : String) : Site Unit where
  tree := {
    entries :=
      [("config", .dir [("e", .dir [("plan", .dir [("sweep.yaml", .file plan.toUTF8 false)])])]),
       ("runs", .dir [("e", .dir [("run_manifest.txt", .file "old\n".toUTF8 false)])])] }
  outside := ()

/-- The experiment `e` with the usual roots. -/
def usualLayout : Layout := ⟨"e", "config", "runs", "logs"⟩

/-- A machine without programs. -/
def noPrograms : Programs := fun _ _ => .error .notFound

/-- Two runs of one name are refused, and nothing has happened. -/
theorem experimentDir_of_collision :
    ∃ e : Error, e.isConfigurationFault = true ∧
      outcome (generateSuite noPrograms usualLayout {})
          (siteWithPlan "run_name_template: a\nbranches: [{name: x}, {name: y}]\n") =
        (.error e, siteWithPlan "run_name_template: a\nbranches: [{name: x}, {name: y}]\n") := by
  let site := siteWithPlan "run_name_template: a\nbranches: [{name: x}, {name: y}]\n"
  have hrun : isRefusal (outcome (generateSuite noPrograms usualLayout {}) site).1 = true ∧
      isRefusal (prepareSuite noPrograms site.tree usualLayout {}) = true := by
    decide +kernel
  obtain ⟨hrefused, hunprepared⟩ := hrun
  obtain ⟨e, he, h⟩ := exists_of_isRefusal hrefused
  have hfit : NamesFit noPrograms site.tree usualLayout {} := by
    intro p hp
    rw [hp] at hunprepared
    cases hunprepared
  have hsite := (experimentDir_of_refused noPrograms usualLayout {} site _ e he
    (outcome_of_answer h)).1 hfit
  exact ⟨e, he, Prod.ext h hsite⟩

/-- The name ` a` is refused when the manifest is to be written, and by then the experiment's
directory has been cleared. -/
theorem sameDirectory_fails_of_padded_name :
    ¬ ∀ (s s' : Site Unit) (e : Error), e.isConfigurationFault = true →
      outcome (generateSuite noPrograms usualLayout {}) s = (.error e, s') →
        SameDirectory usualLayout s s' := by
  intro hclaim
  let site := siteWithPlan "run_name_template: \" a\"\n"
  let after := (outcome (generateSuite noPrograms usualLayout {}) site).2
  have hrun : isRefusal (outcome (generateSuite noPrograms usualLayout {}) site).1 = true ∧
      site.tree.isFile usualLayout.manifestPath = true ∧
      (after.tree.nodeAt? (site.tree.place usualLayout.manifestPath)).isNone = true := by
    decide +kernel
  obtain ⟨hrefused, hbefore, hafter⟩ := hrun
  obtain ⟨e, he, h⟩ := exists_of_isRefusal hrefused
  refine not_sameDirectory (FileTree.isFile_iff.1 hbefore).2 ?_
    (hclaim site after e he (outcome_of_answer h))
  rw [FileTree.sight, Option.isNone_iff_eq_none.1 hafter]
  rintro ⟨_, _, hfile⟩
  cases hfile

end ParamSweep
