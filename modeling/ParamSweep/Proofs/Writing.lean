import ParamSweep.Proofs.TreeChange
import ParamSweep.Suite.Generate

/-!
What writing a suite does to the files of a site.

Every operation of the half of generation that touches files is of one of three kinds. Clearing the
experiment's directory is `clear_cases`. Writing a single file that the library names itself is
`written_replaceText`. Writing the directories of the runs goes to places that names from a plan
decide; but a rendered file never has an underscore in its name, and so `keeps_adds_writeRuns` tells
it apart from the manifest, the batch identifier and the job script, which all have one. None of
them can fail but by a fault of the file system.
-/

namespace ParamSweep

/-- Whether an error is a fault of the file system. -/
def Error.IsFileFault : Error → Prop
  | .file _ _ => True
  | _ => False

namespace Text

theorem mem_replaceChar {old c : Char} {new cs : List Char} (h : c ∈ replaceChar old new cs) :
    c ∈ new ∨ c ≠ old := by
  obtain ⟨d, -, hc⟩ := List.mem_flatMap.1 h
  split at hc
  · exact Or.inl hc
  next hd => exact Or.inr (List.mem_singleton.1 hc ▸ hd)

end Text

/-- A rendered file has no underscore in its place. -/
theorem underscore_not_mem_outputPath (file : String) : '_' ∉ (outputPath file).toList := by
  have hname : '_' ∉ (outputFilename file).toList := by
    intro h
    rw [outputFilename, String.toList_ofList] at h
    rcases Text.mem_replaceChar h with hpoint | hne
    · simp at hpoint
    · exact hne rfl
  rw [outputPath]
  split
  · simpa using hname
  · exact hname

namespace Action

variable {τ : Type} {A : List String → Prop}

/-! ### Single files -/

theorem keeps_adds_ensureDir (t : FileTree) (path : String) :
    Keeps (fun s : Site τ => t.Adds A s.tree) (ensureDir path) := by
  intro s hs
  rw [ensureDir, outcome_changeAsFar]
  exact hs.trans ((s.tree.adds_makeDirs path).mono fun _ => False.elim)

theorem failsOnly_changeAsFar (path : String) (f : FileTree → FileTree × Option FileFault) :
    FailsOnly Error.IsFileFault (changeAsFar path f : Action τ Unit) := by
  intro s e h
  rw [outcome_changeAsFar] at h
  rcases hfault : (f s.tree).2 with _ | fault
  · simp [hfault] at h
  · obtain rfl : Error.file path fault = e := by simpa [hfault] using h
    exact trivial

theorem failsOnly_ensureDir (path : String) :
    FailsOnly Error.IsFileFault (ensureDir path : Action τ Unit) :=
  failsOnly_changeAsFar _ _

theorem failsOnly_change (path : String) (f : FileTree → Except FileFault FileTree) :
    FailsOnly Error.IsFileFault (change path f : Action τ Unit) := by
  intro s e h
  rw [outcome_change] at h
  rcases hf : f s.tree with fault | t
  · obtain rfl : Error.file path fault = e := by simpa [hf] using h
    exact trivial
  · simp [hf] at h

theorem failsOnly_replaceText (path text : String) :
    FailsOnly Error.IsFileFault (replaceText path text : Action τ Unit) :=
  (failsOnly_ensureDir _).bind fun _ => failsOnly_change _ _

theorem failsOnly_say (line : String) :
    FailsOnly Error.IsFileFault (say line : Action τ Unit) := by
  intro s e h
  simp at h

/-- A change that succeeds is one of the tree. -/
theorem outcome_change_ok {path : String} {f : FileTree → Except FileFault FileTree}
    {s s' : Site τ} {u : Unit} (h : outcome (change path f) s = (.ok u, s')) :
    f s.tree = .ok s'.tree := by
  rw [outcome_change] at h
  rcases hf : f s.tree with fault | t
  · simp [hf] at h
  · have hs' : { s with tree := t } = s' := by simpa [hf] using h
    rw [← hs']

/-- Writing a text is making the directory that it lies in and replacing the file. -/
theorem replaceText_ok {path text : String} {s s' : Site τ} {u : Unit}
    (h : outcome (replaceText path text) s = (.ok u, s')) :
    ∃ s₁, outcome (ensureDir (Path.parent path)) s = (.ok ⟨⟩, s₁) ∧
      s₁.tree.replaceFile path text.toUTF8 = .ok s'.tree := by
  obtain ⟨_, s₁, hdir, hfile⟩ := outcome_bind_ok h
  exact ⟨s₁, hdir, outcome_change_ok hfile⟩

/-- A text that has been written is there. -/
theorem written_replaceText {path text : String} {s s' : Site τ} {u : Unit}
    (h : outcome (replaceText path text) s = (.ok u, s')) :
    FileTree.Written path text.toUTF8 false s.tree s'.tree := by
  obtain ⟨s₁, hdir, hfile⟩ := replaceText_ok h
  have hadds : s.tree.Adds (fun _ => False) s₁.tree :=
    (keeps_adds_ensureDir s.tree (Path.parent path)).after (FileTree.Adds.refl _ _) hdir
  exact (FileTree.written_replaceFile hfile).1.of_adds hadds

/-- A text that could not be written has changed no file. -/
theorem adds_of_replaceText_error {path text : String} {s s' : Site τ} {e : Error}
    (h : outcome (replaceText path text) s = (.error e, s')) :
    s.tree.Adds (fun _ => False) s'.tree := by
  have hmade : ∀ {r s₁}, outcome (ensureDir (Path.parent path)) s = (r, s₁) →
      s.tree.Adds (fun _ => False) s₁.tree := fun hdir =>
    (keeps_adds_ensureDir s.tree (Path.parent path)).after (FileTree.Adds.refl _ _) hdir
  rcases outcome_bind_error h with hdir | ⟨_, s₁, hdir, hfile⟩
  · exact hmade hdir
  · rw [outcome_change] at hfile
    rcases hreplace : s₁.tree.replaceFile path text.toUTF8 with fault | t
    · rw [hreplace] at hfile
      cases hfile
      exact hmade hdir
    · rw [hreplace] at hfile
      cases hfile

theorem leads_replaceText {path text : String} {P Q R : FileTree → Prop}
    (hok : ∀ t t', P t → FileTree.Written path text.toUTF8 false t t' → Q t')
    (herror : ∀ t t', P t → FileTree.Adds (fun _ => False) t t' → R t') :
    Leads (fun s : Site τ => P s.tree) (replaceText path text) (fun _ s => Q s.tree)
      (fun s => R s.tree) :=
  ⟨fun hs hx => hok _ _ hs (written_replaceText hx),
    fun hs hx => herror _ _ hs (adds_of_replaceText_error hx)⟩

/-- What outlasts new directories and files at the places `A` outlasts an operation that adds no
more than these. -/
theorem keeps_of_adds {α : Type} {x : Action τ α} {P : FileTree → Prop}
    (hx : ∀ s : Site τ, s.tree.Adds A (outcome x s).2.tree)
    (hP : ∀ t t', P t → FileTree.Adds A t t' → P t') : Keeps (fun s : Site τ => P s.tree) x :=
  fun s hs => hP _ _ hs (hx s)

/-- However writing a text ends, no place but that of its path can have been written. -/
theorem keeps_adds_replaceText {t : FileTree} {path text : String}
    (hA : ∀ t₁ t₂ : FileTree, t₁.workingDir = t.workingDir →
      t₁.replaceFile path text.toUTF8 = .ok t₂ → A (t₁.place path)) :
    Keeps (fun s : Site τ => t.Adds A s.tree) (replaceText path text) := by
  refine (keeps_adds_ensureDir t (Path.parent path)).bind fun _ s hs => ?_
  rw [outcome_change]
  rcases hfile : s.tree.replaceFile path text.toUTF8 with fault | t'
  · exact hs
  · have hplace : A (s.tree.place path) := hA s.tree t' hs.workingDir hfile
    refine hs.trans ((FileTree.written_replaceFile hfile).1.adds.mono ?_)
    rintro _ rfl
    exact hplace

theorem adds_replaceText (path text : String) (s : Site τ) :
    s.tree.Adds (· = s.tree.place path) (outcome (replaceText path text) s).2.tree :=
  keeps_adds_replaceText (fun _ _ hdir _ => FileTree.place_congr hdir path) s
    (FileTree.Adds.refl _ _)

end Action

namespace Layout

/-! ### Places of an experiment's own files -/

theorem isName_manifestFile : Path.IsName manifestFile := by decide

theorem isName_batchIdFile : Path.IsName ".batch_id" := by decide

theorem isName_submitScriptFile : Path.IsName "submit_suite.sh" := by decide

theorem isName_suiteRecordFile : Path.IsName "suite.json" := by decide

theorem place_manifestPath (t : FileTree) (l : Layout) :
    t.place l.manifestPath = t.place l.experimentDir ++ [manifestFile] :=
  t.place_join_name _ isName_manifestFile

theorem place_batchIdPath (t : FileTree) (l : Layout) :
    t.place l.batchIdPath = t.place l.experimentDir ++ [".batch_id"] :=
  t.place_join_name _ isName_batchIdFile

theorem place_submitScriptPath (t : FileTree) (l : Layout) :
    t.place l.submitScriptPath = t.place l.experimentDir ++ ["submit_suite.sh"] :=
  t.place_join_name _ isName_submitScriptFile

theorem place_suiteRecordPath (t : FileTree) (l : Layout) :
    t.place l.suiteRecordPath = t.place l.experimentDir ++ ["suite.json"] :=
  t.place_join_name _ isName_suiteRecordFile

end Layout

namespace Generate

variable {τ : Type}

/-! ### Files of runs -/

/-- A place where a rendered file can be: the last name has no underscore. -/
def Unscored (place : List String) : Prop := ∃ last, place.getLast? = some last ∧ '_' ∉ last.toList

theorem not_unscored_append {front : List String} {last : String} (h : '_' ∈ last.toList) :
    ¬ Unscored (front ++ [last]) := by
  rintro ⟨last', hlast, hnot⟩
  rw [List.getLast?_concat, Option.some.injEq] at hlast
  exact hnot (hlast ▸ h)

/-- The rendered files of a run have places without an underscore. -/
def FilesUnscored (files : List (String × String)) : Prop := ∀ f ∈ files, '_' ∉ f.1.toList

/-- The text that a document is rendered to. Without a format it has none. -/
def IsTextOf (r : Renderer) (doc : String × Document) (text : String) : Prop :=
  ∃ format, doc.2.format = some format ∧
    r.render format doc.2.data (Path.fileName (outputPath doc.1)) = .ok text

/-- The rendered files are the texts of the documents that have a format, each at the place that
goes with the name of its document. -/
theorem renderFiles_ok {r : Renderer} {run : String} :
    ∀ {docs : List (String × Document)} {files : List (String × String)},
      renderFiles r run docs = .ok files →
        (∀ f ∈ files, ∃ doc ∈ docs, f.1 = outputPath doc.1 ∧ IsTextOf r doc f.2) ∧
          ∀ doc ∈ docs, doc.2.format ≠ none →
            ∃ text, IsTextOf r doc text ∧ (outputPath doc.1, text) ∈ files
  | [], _, h => by
    cases h
    exact ⟨fun _ hf => absurd hf List.not_mem_nil, fun _ hdoc => absurd hdoc List.not_mem_nil⟩
  | (file, doc) :: rest, files, h => by
    rw [renderFiles] at h
    split at h
    next hformat =>
      obtain ⟨hplaces, htexts⟩ := renderFiles_ok h
      refine ⟨fun f hf => ?_, fun doc' hdoc hsome => ?_⟩
      · obtain ⟨doc', hdoc, hplace⟩ := hplaces f hf
        exact ⟨doc', List.mem_cons_of_mem _ hdoc, hplace⟩
      · rcases List.mem_cons.1 hdoc with rfl | hdoc
        · exact absurd hformat hsome
        · exact htexts doc' hdoc hsome
    next format hformat =>
      obtain ⟨text, htext, h⟩ := except_bind_ok h
      obtain ⟨others, hothers, h⟩ := except_bind_ok h
      cases h
      obtain ⟨hplaces, htexts⟩ := renderFiles_ok hothers
      have hfirst : IsTextOf r (file, doc) text := ⟨format, hformat, mapError_ok htext⟩
      refine ⟨fun f hf => ?_, fun doc' hdoc hsome => ?_⟩
      · rcases List.mem_cons.1 hf with rfl | hf
        · exact ⟨_, List.mem_cons_self, rfl, hfirst⟩
        · obtain ⟨doc', hdoc, hplace⟩ := hplaces f hf
          exact ⟨doc', List.mem_cons_of_mem _ hdoc, hplace⟩
      · rcases List.mem_cons.1 hdoc with rfl | hdoc
        · exact ⟨text, hfirst, List.mem_cons_self⟩
        · obtain ⟨text', htext', hmem⟩ := htexts doc' hdoc hsome
          exact ⟨text', htext', List.mem_cons_of_mem _ hmem⟩

/-- A run with its rendered files. -/
def IsRenderingOf (r : Renderer) (compiled : Run) (run : RenderedRun) : Prop :=
  run.name = compiled.name ∧ renderFiles r compiled.name compiled.configs = .ok run.files

/-- The rendered runs are the runs, by name and in order, each with its rendered files. -/
theorem renderRuns_ok {r : Renderer} :
    ∀ {runs : List Run} {rendered : List RenderedRun}, renderRuns r runs = .ok rendered →
      rendered.map RenderedRun.name = runs.map Run.name ∧
        (∀ run ∈ rendered, ∃ compiled ∈ runs, IsRenderingOf r compiled run) ∧
          ∀ compiled ∈ runs, ∃ run ∈ rendered, IsRenderingOf r compiled run
  | [], _, h => by
    cases h
    exact ⟨rfl, fun _ hrun => absurd hrun List.not_mem_nil, fun _ hrun => absurd hrun
      List.not_mem_nil⟩
  | compiled :: rest, rendered, h => by
    obtain ⟨files, hfiles, h⟩ := except_bind_ok h
    obtain ⟨others, hothers, h⟩ := except_bind_ok h
    cases h
    obtain ⟨hnames, hback, hforth⟩ := renderRuns_ok hothers
    have hfirst : IsRenderingOf r compiled ⟨compiled.name, files⟩ := ⟨rfl, hfiles⟩
    refine ⟨by rw [List.map_cons, List.map_cons, hnames],
      List.forall_mem_cons.2 ⟨⟨compiled, List.mem_cons_self, hfirst⟩, fun run hrun => ?_⟩,
      List.forall_mem_cons.2 ⟨⟨_, List.mem_cons_self, hfirst⟩, fun other hother => ?_⟩⟩
    · obtain ⟨other, hother, hrendering⟩ := hback run hrun
      exact ⟨other, List.mem_cons_of_mem _ hother, hrendering⟩
    · obtain ⟨run, hrun, hrendering⟩ := hforth other hother
      exact ⟨run, List.mem_cons_of_mem _ hrun, hrendering⟩

theorem filesUnscored_renderRuns {r : Renderer} {runs : List Run} {rendered : List RenderedRun}
    (h : renderRuns r runs = .ok rendered) : ∀ run ∈ rendered, FilesUnscored run.files := by
  intro run hrun f hf
  obtain ⟨compiled, -, -, hfiles⟩ := (renderRuns_ok h).2.1 run hrun
  obtain ⟨doc, -, hplace, -⟩ := (renderFiles_ok hfiles).1 f hf
  exact hplace ▸ underscore_not_mem_outputPath doc.1

theorem unscored_of_replaceFile {t t' : FileTree} {dir name : String} {content : ByteArray}
    (hname : '_' ∉ name.toList) (h : t.replaceFile (Path.join dir name) content = .ok t') :
    Unscored (t.place (Path.join dir name)) := by
  have hwritten := (FileTree.written_replaceFile h).1
  rcases hlast : (t.place (Path.join dir name)).getLast? with _ | last
  · have hroot := hwritten.sight
    rw [List.getLast?_eq_none_iff.1 hlast] at hroot
    cases hroot
  · refine ⟨last, hlast, fun hmem => hname ?_⟩
    rw [FileTree.getLast?_of_replaceFile h] at hlast
    exact Path.mem_of_mem_parts (List.mem_of_getLast? hlast) hmem

theorem keeps_adds_writeFiles (t : FileTree) (dir : String) :
    ∀ {files : List (String × String)}, FilesUnscored files →
      Keeps (fun s : Site τ => t.Adds Unscored s.tree) (writeFiles dir files)
  | [], _ => Keeps.pure _
  | (place, _) :: _, h =>
    have hplace : '_' ∉ place.toList := h _ List.mem_cons_self
    (Action.keeps_adds_replaceText fun _ _ _ hfile => unscored_of_replaceFile hplace hfile).bind
      fun _ => keeps_adds_writeFiles t dir fun f hf => h f (List.mem_cons_of_mem _ hf)

theorem keeps_adds_writeRuns (t : FileTree) (l : Layout) :
    ∀ {runs : List RenderedRun}, (∀ run ∈ runs, FilesUnscored run.files) →
      Keeps (fun s : Site τ => t.Adds Unscored s.tree) (writeRuns l runs)
  | [], _ => Keeps.pure _
  | run :: _, h =>
    (Action.keeps_adds_ensureDir t _).bind fun _ =>
      (keeps_adds_writeFiles t _ (h run List.mem_cons_self)).bind fun _ =>
        keeps_adds_writeRuns t l fun run' hrun => h run' (List.mem_cons_of_mem _ hrun)

theorem failsOnly_writeFiles (dir : String) :
    ∀ files : List (String × String),
      FailsOnly Error.IsFileFault (writeFiles dir files : Action τ Unit)
  | [] => FailsOnly.pure _
  | _ :: rest => (Action.failsOnly_replaceText _ _).bind fun _ => failsOnly_writeFiles dir rest

theorem failsOnly_writeRuns (l : Layout) :
    ∀ runs : List RenderedRun, FailsOnly Error.IsFileFault (writeRuns l runs : Action τ Unit)
  | [] => FailsOnly.pure _
  | run :: rest =>
    (Action.failsOnly_ensureDir _).bind fun _ =>
      (failsOnly_writeFiles _ run.files).bind fun _ => failsOnly_writeRuns l rest

/-! ### The experiment's directory -/

theorem failsOnly_clear (l : Layout) :
    FailsOnly Error.IsFileFault (clear l : Action τ Unit) := by
  intro s e h
  rw [clear, outcome_bind, Action.outcome_tree] at h
  simp only at h
  split at h
  · exact Action.failsOnly_changeAsFar _ _ s e h
  · simp at h

/-- Clearing takes away all that is below the experiment's directory, or it changes nothing, and
then it has failed or there is no such directory. -/
theorem clear_cases (l : Layout) (s : Site τ) :
    (s.tree.sight (s.tree.place l.experimentDir) = .dir ∧
      FileTree.Cleared (s.tree.place l.experimentDir) s.tree (outcome (clear l) s).2.tree) ∨
    ((outcome (clear l) s).2.tree = s.tree ∧
      (s.tree.holds l.experimentDir = true → ∃ e, (outcome (clear l) s).1 = .error e) ∧
      ¬ (s.tree.holds l.experimentDir = true ∧
        s.tree.sight (s.tree.place l.experimentDir) = .dir)) := by
  rw [clear, outcome_bind, Action.outcome_tree]
  simp only
  by_cases hholds : s.tree.holds l.experimentDir = true
  · have hreach := (FileTree.holds_iff.1 hholds).1
    rw [if_pos hholds, Action.removeDir, Action.outcome_changeAsFar]
    rcases s.tree.removeDir_cases l.experimentDir with ⟨-, hdir, hcleared⟩ | ⟨hnot, heq, hfault⟩
    · exact Or.inl ⟨hdir, hcleared⟩
    · obtain ⟨fault, hfault⟩ := Option.ne_none_iff_exists'.1 hfault
      exact Or.inr ⟨heq, fun _ => ⟨.file l.experimentDir fault, by rw [hfault]⟩,
        fun ⟨_, hdir⟩ => hnot ⟨hreach, hdir⟩⟩
  · rw [if_neg hholds]
    exact Or.inr ⟨rfl, fun h => absurd h hholds, fun ⟨h, _⟩ => hholds h⟩

/-- Clearing that succeeds takes away all that is below the experiment's directory if that is held,
and changes nothing otherwise. -/
theorem clear_ok {l : Layout} {s s' : Site τ} {u : Unit} (h : outcome (clear l) s = (.ok u, s')) :
    (s.tree.holds l.experimentDir = true ∧
      FileTree.Cleared (s.tree.place l.experimentDir) s.tree s'.tree) ∨
    (s.tree.holds l.experimentDir = false ∧ s'.tree = s.tree) := by
  by_cases hholds : s.tree.holds l.experimentDir = true
  · refine .inl ⟨hholds, ?_⟩
    rcases clear_cases l s with ⟨-, hcleared⟩ | ⟨-, hfails, -⟩
    · rwa [h] at hcleared
    · obtain ⟨e, he⟩ := hfails hholds
      rw [h] at he
      cases he
  · rw [clear, outcome_bind, Action.outcome_tree] at h
    simp only [if_neg hholds] at h
    cases h
    exact .inr ⟨Bool.not_eq_true _ ▸ hholds, rfl⟩

end Generate

end ParamSweep
