import ParamSweep.Proofs.GivenOptions
import ParamSweep.Proofs.StandingSuite
import ParamSweep.Batch.Submission

/-!
A batch over the lifetime of an experiment.

An experiment is generated, submitted, looked at and cleaned, in any order and as often as anyone
likes, and each of these can fail halfway. What must not happen is that the identifier of a batch
stands beside the manifest of another suite: then every report would tell of the wrong runs.

`Lifetime` is a site together with what nothing on it tells, the batch that was submitted last and
the names that were in place then. Cleaning is `Generate.clear`, to which the command `clean` comes
down (`CommandLine.tree_clean`). Each operation keeps the files consistent (`consistent_step`), so
they are in every state that can be reached.
-/

namespace ParamSweep

variable {τ : Type} {l : Layout}

/-! ### Submitting -/

/-- The part of a submission that follows the manifest. -/
def submitRuns (l : Layout) (scheduler : Scheduler τ) (pattern logDir : String)
    (runs : List String) : Action τ Submission := do
  if runs.isEmpty then Action.refuse .manifestWithoutRuns
  else
    Action.ensureDir logDir
    let answer ← Action.ask
      (scheduler.submit l.submitScriptPath [(submissionLogVariable, logDir)])
    let batch ← Action.ofExcept (BatchHandle.ofSubmission pattern answer)
    BatchFile.write l batch
    Action.say ("submitted batch " ++ batch.id ++ " with " ++ toString runs.length ++ " task(s)")
    Action.say ("task logs: " ++ logDir)
    return ⟨batch, runs.length, l.batchIdPath, logDir⟩

theorem outcome_submitSuite (scheduler : Scheduler τ) (pattern logDir : String) (s : Site τ) :
    outcome (submitSuite l scheduler pattern logDir) s =
      if s.tree.isFile l.submitScriptPath = true then
        match outcome (Manifest.load l) s with
        | (.ok (runs, _), s') =>
          outcome (submitRuns l scheduler pattern (s.tree.absolute logDir) runs) s'
        | (.error e, s') => (.error e, s')
      else (.error (.configuration (.noSubmitScript l.submitScriptPath)), s) := by
  rw [submitSuite, outcome_bind, Action.outcome_tree]
  by_cases hfile : s.tree.isFile l.submitScriptPath = true
  · simp only [hfile, Bool.not_true, Bool.false_eq_true, if_false, if_true, outcome_bind]
    rcases outcome (Manifest.load l) s with ⟨_ | ⟨runs, origin⟩, s₁⟩
    · rfl
    · rfl
  · simp [hfile]

theorem tree_ask (q : Query τ) (s : Site τ) :
    (outcome (Action.ask q) s).2.tree = s.tree := by
  rw [Action.ask, outcome_bind, outcome_get]
  rfl

/-- A submission keeps the identifier of its batch beside the suite that it was made for. -/
theorem leads_submitRuns {scheduler : Scheduler τ} {pattern logDir : String} {names : List String}
    (submitted : Option (BatchHandle × List String)) :
    Leads (fun s : Site τ => Consistent l s.tree submitted ∧ Ready l s.tree names)
      (submitRuns l scheduler pattern logDir names)
      (fun submission s => Consistent l s.tree (some (submission.batch, names)))
      (fun s => Consistent l s.tree submitted) := by
  rw [submitRuns]
  split
  · exact ⟨fun _ hx => by simp at hx, fun hs hx => by cases hx; exact hs.1⟩
  · have hdir : Keeps (fun s : Site τ => Consistent l s.tree submitted ∧ Ready l s.tree names)
        (Action.ensureDir logDir) :=
      Action.keeps_of_adds (A := fun _ => False)
        (P := fun t => Consistent l t submitted ∧ Ready l t names)
        (fun s => Action.keeps_adds_ensureDir s.tree logDir s (FileTree.Adds.refl _ _))
        fun _ _ h hadds => ⟨h.1.adds hadds id id id, h.2.adds hadds id id⟩
    have hask : ∀ q, Keeps (fun s : Site τ => Consistent l s.tree submitted ∧ Ready l s.tree names)
        (Action.ask q) := by
      intro q s hs
      rwa [tree_ask]
    have hwrite : ∀ batch : BatchHandle,
        Leads (fun s : Site τ => Consistent l s.tree submitted ∧ Ready l s.tree names)
          (BatchFile.write l batch) (fun _ s => Consistent l s.tree (some (batch, names)))
          (fun s => Consistent l s.tree submitted) := by
      intro batch
      refine Action.leads_replaceText (P := fun t => Consistent l t submitted ∧ Ready l t names)
        (Q := fun t => Consistent l t (some (batch, names)))
        (R := fun t => Consistent l t submitted) ?_ ?_
      · rintro t t' ⟨-, hready⟩ hwritten
        have hready' : Ready l t' names := hready.adds hwritten.adds
          place_batchId_ne_manifest.symm place_batchId_ne_submitScript.symm
        exact ⟨fun _ => ⟨names, hready'⟩,
          fun _ => ⟨batch, names, rfl, hready', false, hwritten.sight_place⟩⟩
      · rintro t t' ⟨hconsistent, -⟩ hadds
        exact hconsistent.adds hadds id id id
    refine (Leads.of_keeps hdir fun _ h => h.1).bind fun _ => ?_
    refine (Leads.of_keeps (hask _) fun _ h => h.1).bind fun answer => ?_
    refine Leads.bind (Q := fun _ s => Consistent l s.tree submitted ∧ Ready l s.tree names)
      (Leads.of_keeps (fun _ h => h) fun _ h => h.1) fun batch => ?_
    refine (hwrite batch).bind fun _ => ?_
    -- what is said afterwards cannot fail
    exact ⟨fun hs hx => by cases hx; exact hs, fun _ hx => by cases hx⟩

/-- The names in the manifest, as a submission finds them. -/
def namesInPlace (l : Layout) (s : Site τ) : List String :=
  match (outcome (Manifest.load l) s).1 with
  | .ok (names, _) => names
  | .error _ => []

/-- What is known of the batch that was submitted last, after one more attempt. -/
def submittedAfter (l : Layout) (s : Site τ) (answer : Except Error Submission)
    (submitted : Option (BatchHandle × List String)) : Option (BatchHandle × List String) :=
  match answer with
  | .ok submission => some (submission.batch, namesInPlace l s)
  | .error _ => submitted

theorem consistent_submitSuite {scheduler : Scheduler τ} {pattern logDir : String} {s : Site τ}
    {submitted : Option (BatchHandle × List String)} (h : Consistent l s.tree submitted) :
    Consistent l (outcome (submitSuite l scheduler pattern logDir) s).2.tree
      (submittedAfter l s (outcome (submitSuite l scheduler pattern logDir) s).1 submitted) := by
  rw [outcome_submitSuite]
  by_cases hfile : s.tree.isFile l.submitScriptPath = true
  · rw [if_pos hfile]
    obtain ⟨names, hready⟩ := h.script (FileTree.isFile_iff.1 hfile).2
    have hload := outcome_load_of_read hready.read
    have hnames : namesInPlace l s = names := by rw [namesInPlace, hload]
    have hrest : Leads (fun s : Site τ => Consistent l s.tree submitted ∧ Ready l s.tree names)
        (submitRuns l scheduler pattern (s.tree.absolute logDir) names)
        (fun submission s => Consistent l s.tree (some (submission.batch, names)))
        (fun s => Consistent l s.tree submitted) := leads_submitRuns submitted
    rw [hload]
    simp only
    rcases hx : outcome (submitRuns l scheduler pattern (s.tree.absolute logDir) names) s
      with ⟨e | submission, s'⟩
    · exact hrest.error ⟨h, hready⟩ hx
    · rw [submittedAfter, hnames]
      exact hrest.ok ⟨h, hready⟩ hx
  · rw [if_neg hfile]
    exact h

/-! ### Lifetimes -/

/-- A site, and what is known of the batch that was submitted last: its handle, and the names that
were in the manifest then. -/
structure Lifetime (τ : Type) where
  site : Site τ
  submitted : Option (BatchHandle × List String) := none

/-- Something happens away from the experiment's directory. -/
structure Elsewhere (l : Layout) (s s' : Site τ) : Prop where
  workingDir : s'.tree.workingDir = s.tree.workingDir
  sameDirectory : SameDirectory l s s'
  holds : s'.tree.holds l.experimentDir = s.tree.holds l.experimentDir

/-- One operation on an experiment, whatever it is given and however it ends. -/
inductive Step (l : Layout) : Lifetime τ → Lifetime τ → Prop
  | generate (x : Lifetime τ) (programs : Programs) (o : CompileOptions) :
      Step l x ⟨(outcome (generateSuite programs l o) x.site).2, x.submitted⟩
  | submit (x : Lifetime τ) (scheduler : Scheduler τ) (pattern logDir : String) :
      Step l x ⟨(outcome (submitSuite l scheduler pattern logDir) x.site).2,
        submittedAfter l x.site (outcome (submitSuite l scheduler pattern logDir) x.site).1
          x.submitted⟩
  | load (x : Lifetime τ) : Step l x ⟨(outcome (Manifest.load l) x.site).2, x.submitted⟩
  | clean (x : Lifetime τ) : Step l x ⟨(outcome (Generate.clear l) x.site).2, x.submitted⟩
  | elsewhere (x : Lifetime τ) (site : Site τ) (h : Elsewhere l x.site site) :
      Step l x ⟨site, x.submitted⟩

/-- The states that an experiment can come to from one where it has no script and no batch. -/
inductive Reachable (l : Layout) : Lifetime τ → Prop
  | start (site : Site τ) (h : Fresh l site.tree) : Reachable l ⟨site, none⟩
  | step {x y : Lifetime τ} (hx : Reachable l x) (h : Step l x y) : Reachable l y

theorem Consistent.elsewhere {s s' : Site τ} {submitted : Option (BatchHandle × List String)}
    (h : Consistent l s.tree submitted) (he : Elsewhere l s s') :
    Consistent l s'.tree submitted := by
  have hsight : ∀ name, Path.IsName name →
      s'.tree.sight (s'.tree.place (Path.join l.experimentDir name)) =
        s.tree.sight (s.tree.place (Path.join l.experimentDir name)) := by
    intro name hname
    rw [FileTree.place_congr he.workingDir, s.tree.place_join_name _ hname]
    exact he.sameDirectory.sight [name]
  have hmanifest : s'.tree.sight (s'.tree.place l.manifestPath) =
      s.tree.sight (s.tree.place l.manifestPath) := hsight _ Layout.isName_manifestFile
  have hscript : s'.tree.sight (s'.tree.place l.submitScriptPath) =
      s.tree.sight (s.tree.place l.submitScriptPath) := hsight _ Layout.isName_submitScriptFile
  have hbatch : s'.tree.sight (s'.tree.place l.batchIdPath) =
      s.tree.sight (s.tree.place l.batchIdPath) := hsight _ Layout.isName_batchIdFile
  have hready : ∀ names, Ready l s.tree names → Ready l s'.tree names := by
    rintro names ⟨hM, hS, hholds⟩
    rw [HasManifest, ← hmanifest] at hM
    rw [HasScript, ← hscript] at hS
    exact ⟨hM, hS, he.holds.trans hholds⟩
  constructor
  · intro hfile
    obtain ⟨names, hnames⟩ := h.script (hscript ▸ hfile)
    exact ⟨names, hready names hnames⟩
  · intro hfile
    obtain ⟨batch, names, hsubmitted, hnames, hkept⟩ := h.batch (hbatch ▸ hfile)
    exact ⟨batch, names, hsubmitted, hready names hnames, hbatch ▸ hkept⟩

/-- Every operation keeps the files of an experiment consistent. -/
theorem consistent_step (hdir : l.experimentDir ≠ "") {x y : Lifetime τ} (h : Step l x y)
    (hx : Consistent l x.site.tree x.submitted) : Consistent l y.site.tree y.submitted := by
  cases h with
  | generate programs o => exact consistent_generateSuite hdir hx
  | submit scheduler pattern logDir => exact consistent_submitSuite hx
  | load => exact consistent_load hx
  | clean =>
    have hcleared : Leads (fun s : Site τ => Consistent l s.tree x.submitted) (Generate.clear l)
        (fun _ s => Consistent l s.tree x.submitted)
        (fun s => Consistent l s.tree x.submitted) :=
      ⟨fun hs hc => ((leads_clear x.submitted).ok hs hc).consistent _,
        fun hs hc => (leads_clear x.submitted).error hs hc⟩
    exact hcleared.state hx
  | elsewhere site he => exact hx.elsewhere he

theorem consistent_of_reachable (hdir : l.experimentDir ≠ "") {x : Lifetime τ}
    (h : Reachable l x) : Consistent l x.site.tree x.submitted := by
  induction h with
  | start site hfresh => exact hfresh.consistent none
  | step _ hstep ih => exact consistent_step hdir hstep ih

/-- In every state that an experiment can come to, a batch identifier stands only beside the
manifest that was in place when that batch was submitted, name for name, and beside a script that
the generator has written for an array of as many tasks. -/
theorem suite_of_batch (l : Layout) (hdir : l.experimentDir ≠ "") {x : Lifetime τ}
    (h : Reachable l x) (hbatch : x.site.tree.isFile l.batchIdPath = true) :
    ∃ batch names script, x.submitted = some (batch, names) ∧
      BatchFile.read x.site.tree l = .ok batch ∧
      Manifest.read x.site.tree l = .ok names ∧
      x.site.tree.readText l.submitScriptPath = .ok script ∧
      Script.HasArray l.experiment names.length script := by
  have hconsistent := consistent_of_reachable hdir h
  obtain ⟨hreach, hfile⟩ := FileTree.isFile_iff.1 hbatch
  obtain ⟨batch, names, hsubmitted, hready, executable, hsight⟩ := hconsistent.batch hfile
  obtain ⟨script, hscript, harray⟩ := hready.readScript
  exact ⟨batch, names, script, hsubmitted, BatchFile.read_of_sight hreach hsight, hready.read,
    hscript, harray⟩

/-- A scheduler that takes every script. -/
def takesEverything : Scheduler Unit where
  submit _ _ _ := pure (.ok "Submitted batch job 42\n")
  accounting _ _ := pure (.ok "")
  queue _ _ := pure (.ok "")

/-- The experiment `e` before anything was made for it. -/
def unmade : Site Unit where
  tree := {
    entries :=
      [("config", .dir [("e", .dir [("plan", .dir [("sweep.yaml",
        .file "branches: [{name: x}, {name: y}]\n".toUTF8 false)])])])] }
  outside := ()

/-- The experiment with its suite. -/
def made : Site Unit := (outcome (generateSuite noPrograms usualLayout {}) unmade).2

/-- The experiment after its suite has been submitted. -/
def submittedOnce : Lifetime Unit where
  site := (outcome (submitSuite usualLayout takesEverything "Submitted batch job (\\d+)" "logs/e")
    made).2
  submitted := submittedAfter usualLayout made (outcome (submitSuite usualLayout takesEverything
    "Submitted batch job (\\d+)" "logs/e") made).1 none

/-- A suite of two runs that has been generated and submitted. -/
theorem suite_of_first_batch :
    Reachable usualLayout submittedOnce ∧
      submittedOnce.site.tree.isFile usualLayout.batchIdPath = true ∧
      ∃ batch names, submittedOnce.submitted = some (batch, names) ∧
        Manifest.read submittedOnce.site.tree usualLayout = .ok names ∧ names = ["x", "y"] := by
  have hrun : (unmade.tree.nodeAt? (unmade.tree.place usualLayout.experimentDir)).isNone = true ∧
      usualLayout.experimentDir ≠ "" ∧
      submittedOnce.site.tree.isFile usualLayout.batchIdPath = true ∧
      (Manifest.read submittedOnce.site.tree usualLayout).toOption = some ["x", "y"] := by
    decide +kernel
  obtain ⟨hnothing, hdir, hbatch, hnames⟩ := hrun
  have hmade : Reachable usualLayout ⟨made, none⟩ :=
    .step (.start unmade (fresh_of_nothing (Option.isNone_iff_eq_none.1 hnothing)))
      (.generate _ noPrograms {})
  have hreach : Reachable usualLayout submittedOnce :=
    .step hmade (.submit ⟨made, none⟩ takesEverything "Submitted batch job (\\d+)" "logs/e")
  obtain ⟨batch, names, script, hsubmitted, -, hread, -, -⟩ :=
    suite_of_batch usualLayout hdir hreach hbatch
  refine ⟨hreach, hbatch, batch, names, hsubmitted, hread, ?_⟩
  rw [hread] at hnames
  exact Option.some.inj hnames

end ParamSweep
