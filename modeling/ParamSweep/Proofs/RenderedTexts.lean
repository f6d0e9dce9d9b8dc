import ParamSweep.Proofs.RunDirectories

/-!
The texts of a generated suite.

What a document is rendered to is meant to be found in its file. The place of that file goes with the
name of the document, but not one to one: `run_in.yaml` and `run.in.yaml` are both rendered to
`run.in`, and then the text that is written later is the one that is found. Besides, a run named `..`
has its files beside the record of the suite, and that is written last.

Files of different runs never meet, whatever the runs are named: `eq_of_wayToRun`. So these two are
all that can go wrong, and `readText_of_generateSuite` says that every text is found if and only if
neither of them puts another text in its place.
-/

namespace ParamSweep

variable {τ : Type} {l : Layout} {t t' : FileTree}

namespace Generate

/-! ### Places of rendered files -/

/-- The names of a place in a run's directory at which a rendered file can be. -/
inductive OutputAt : String → List String → Prop
  | plain {name : String} : '_' ∉ name.toList → name ∉ buildFiles → OutputAt name [name]
  | build {name : String} : name ∈ buildFiles → OutputAt ("src/" ++ name) ["src", name]

theorem outputAt_outputPath {file : String} (hslash : '/' ∉ file.toList)
    (hinside : Path.Inside (outputPath file)) :
    OutputAt (outputPath file) (Path.parts (outputPath file)) := by
  have hbuild : ∀ name ∈ buildFiles, Path.parts ("src/" ++ name) = ["src", name] := by
    decide +kernel
  have hscore := underscore_not_mem_outputPath file
  rw [outputPath] at hinside hscore ⊢
  split
  next hmem =>
    have hmem := List.contains_iff_mem.1 hmem
    rw [hbuild _ hmem]
    exact .build hmem
  next hmem =>
    rw [if_neg hmem] at hinside hscore
    have hne : outputFilename file ≠ "" := by
      intro hempty
      rw [hempty] at hinside
      exact hinside.2.2 (by simp [Path.parts_eq, Text.splitOn])
    rw [Path.parts_of_not_mem hne (slash_not_mem_outputFilename hslash)]
    exact .plain hscore fun hbuild => hmem (List.contains_iff_mem.2 hbuild)

namespace OutputAt

variable {place place' : String} {names names' : List String}

theorem eq (h : OutputAt place names) (h' : OutputAt place' names) : place = place' := by
  cases h <;> cases h' <;> rfl

/-- No rendered file is called as the directory of the runs is. -/
theorem ne_generatedConfigs (h : OutputAt place names) (rest : List String) :
    names ≠ generatedConfigsDirectory :: rest := by
  intro heq
  cases h with
  | plain hscore _ =>
    rw [(List.cons.inj heq).1] at hscore
    exact hscore (by decide)
  | build _ => exact absurd (List.cons.inj heq).1 (by decide)

/-- No rendered file lies in a directory where a rendered file can be, one level down. -/
theorem ne_below (h : OutputAt place names) (h' : OutputAt place' names') (name : String) :
    names ≠ name :: names' := by
  rintro rfl
  cases h with
  | plain _ _ => cases h'
  | build hbuild =>
    cases h' with
    | plain _ hnot => exact hnot hbuild

end OutputAt

/-- The way to the directory of a run from that of the experiment. -/
def wayToRun (name : String) : List String := Path.step [generatedConfigsDirectory] name

theorem wayToRun_cases (name : String) :
    (name = "." ∧ wayToRun name = [generatedConfigsDirectory]) ∨
      (name = ".." ∧ wayToRun name = []) ∨
      wayToRun name = [generatedConfigsDirectory, name] := by
  rw [wayToRun, Path.step]
  split
  next hdot => exact .inl ⟨hdot, rfl⟩
  · split
    next hdots => exact .inr (.inl ⟨hdots, rfl⟩)
    · exact .inr (.inr rfl)

/-- Rendered files of different runs have different places. -/
theorem eq_of_wayToRun {name name' place place' : String} {names names' : List String}
    (h : OutputAt place names) (h' : OutputAt place' names')
    (heq : wayToRun name ++ names = wayToRun name' ++ names') : name = name' ∧ place = place' := by
  rcases wayToRun_cases name with ⟨hname, hway⟩ | ⟨hname, hway⟩ | hway <;>
    rcases wayToRun_cases name' with ⟨hname', hway'⟩ | ⟨hname', hway'⟩ | hway' <;>
      simp only [hway, hway', List.nil_append, List.cons_append, List.cons.injEq, true_and] at heq
  case inl.inl => exact ⟨hname.trans hname'.symm, h.eq (heq ▸ h')⟩
  case inl.inr.inl => exact absurd heq.symm (h'.ne_generatedConfigs _)
  case inl.inr.inr => exact absurd heq (h.ne_below h' _)
  case inr.inl.inl => exact absurd heq (h.ne_generatedConfigs _)
  case inr.inl.inr.inl => exact ⟨hname.trans hname'.symm, h.eq (heq ▸ h')⟩
  case inr.inl.inr.inr => exact absurd heq (h.ne_generatedConfigs _)
  case inr.inr.inl => exact absurd heq.symm (h'.ne_below h _)
  case inr.inr.inr.inl => exact absurd heq.symm (h'.ne_generatedConfigs _)
  case inr.inr.inr.inr => exact ⟨heq.1, h.eq (heq.2 ▸ h')⟩

theorem place_file (t : FileTree) (l : Layout) {name place : String} (hne : name ≠ "")
    (hslash : '/' ∉ name.toList) (hinside : Path.Inside place) :
    t.place (Path.join (l.runDir name) place) =
      t.place l.experimentDir ++ (wayToRun name ++ Path.parts place) := by
  rw [t.place_join_inside _ hinside, Layout.place_runDir t l hne hslash,
    Layout.place_generatedConfigsDir, Path.step_append _ fun h => List.cons_ne_nil _ _ h.2,
    wayToRun, List.append_assoc]

/-- A rendered file that stands immediately in the experiment's directory is one of a run named
`..`. -/
theorem eq_of_wayToRun_single {name place single : String} {names : List String}
    (h : OutputAt place names) (heq : wayToRun name ++ names = [single]) :
    name = ".." ∧ place = single ∧ '_' ∉ single.toList := by
  rcases wayToRun_cases name with ⟨-, hway⟩ | ⟨hname, hway⟩ | hway <;> rw [hway] at heq
  · cases h <;> cases heq
  · cases h with
    | plain hscore _ =>
      cases heq
      exact ⟨hname, rfl, hscore⟩
    | build _ => cases heq
  · cases heq

/-! ### Texts of a prepared suite -/

/-- One of the documents of a run is rendered to this text, at this place in the run's directory. -/
def Outputs (r : Renderer) (run : Run) (place text : String) : Prop :=
  ∃ doc ∈ run.configs, place = outputPath doc.1 ∧ IsTextOf r doc text

theorem mem_files_iff {r : Renderer} {compiled : Run} {run : RenderedRun}
    (h : IsRenderingOf r compiled run) {place text : String} :
    (place, text) ∈ run.files ↔ Outputs r compiled place text := by
  obtain ⟨hplaces, htexts⟩ := renderFiles_ok h.2
  constructor
  · exact hplaces (place, text)
  · rintro ⟨doc, hdoc, rfl, format, hformat, htext⟩
    obtain ⟨text', ⟨format', hformat', htext'⟩, hmem⟩ := htexts doc hdoc (by simp [hformat])
    obtain rfl : format = format' := by simpa [hformat] using hformat'
    obtain rfl : text = text' := by simpa [htext] using htext'
    exact hmem

/-- No rendered text is written over with another one. -/
structure NoneOverwritten (p : PreparedSuite) (record : Value) : Prop where
  files : ∀ run ∈ p.suite.runs, ∀ place text text', Outputs p.renderer run place text →
    Outputs p.renderer run place text' → text = text'
  record : ∀ run ∈ p.suite.runs, run.name = ".." → ∀ text,
    Outputs p.renderer run "suite.json" text → text = record.pretty

/-- What is known of the runs of a suite once it has been placed. -/
structure Rendering (l : Layout) (p : PreparedSuite) (t' : FileTree) : Prop where
  rendered : renderRuns p.renderer p.suite.runs = .ok p.rendered
  nodup : p.suite.runNames.Nodup
  single : Single p.suite.runs
  stands : ∀ run ∈ p.rendered, Stands l t' run
  outputs : ∀ run ∈ p.rendered, ∀ f ∈ run.files,
    ∃ file : String, '/' ∉ file.toList ∧ f.1 = outputPath file

section

variable {p : PreparedSuite} {record : Value} {run : Run} {place text : String}

namespace Rendering

theorem names (h : Rendering l p t') : p.rendered.map RenderedRun.name = p.suite.runNames :=
  (renderRuns_ok h.rendered).1

theorem outputAt (h : Rendering l p t') {rendered : RenderedRun} (hrendered : rendered ∈ p.rendered)
    {f : String × String} (hf : f ∈ rendered.files) : OutputAt f.1 (Path.parts f.1) := by
  obtain ⟨file, hslash, hplace⟩ := h.outputs rendered hrendered f hf
  have hinside := ((h.stands rendered hrendered).files f hf).1
  rw [hplace] at hinside ⊢
  exact outputAt_outputPath hslash hinside

/-- A rendered file and the run that it comes from. -/
theorem place_file (h : Rendering l p t') (t : FileTree) {rendered : RenderedRun}
    (hrendered : rendered ∈ p.rendered) {f : String × String} (hf : f ∈ rendered.files) :
    t.place (Path.join (l.runDir rendered.name) f.1) =
      t.place l.experimentDir ++ (wayToRun rendered.name ++ Path.parts f.1) := by
  have hname : rendered.name ∈ p.suite.runNames :=
    h.names ▸ List.mem_map_of_mem hrendered
  obtain ⟨hne, hslash⟩ := h.single _ hname
  exact Generate.place_file t l hne hslash ((h.stands rendered hrendered).files f hf).1

theorem exists_rendered (h : Rendering l p t') (hrun : run ∈ p.suite.runs)
    (hout : Outputs p.renderer run place text) :
    ∃ rendered ∈ p.rendered, IsRenderingOf p.renderer run rendered ∧
      (place, text) ∈ rendered.files := by
  obtain ⟨rendered, hrendered, hrendering⟩ := (renderRuns_ok h.rendered).2.2 run hrun
  exact ⟨rendered, hrendered, hrendering, (mem_files_iff hrendering).2 hout⟩

/-- What a run has to be written is among the items of the suite. -/
theorem mem_items (h : Rendering l p t') (record : Value) (hrun : run ∈ p.suite.runs)
    (hout : Outputs p.renderer run place text) :
    Item.file (Path.join (l.runDir run.name) place) text.toUTF8 false ∈
      suiteItems l p record := by
  obtain ⟨rendered, hrendered, hrendering, hf⟩ := h.exists_rendered hrun hout
  rw [← hrendering.1]
  exact mem_suiteItems.2 (.inr (.inl ⟨rendered, hrendered, .inr ⟨_, hf, rfl⟩⟩))

/-- Nothing goes to the place of a rendered file but the texts that its run has for that place, and
the record if the run is named `..`. -/
theorem content_of_place (h : Rendering l p t') (hrun : run ∈ p.suite.runs)
    (hout : Outputs p.renderer run place text) {path : String} {content : ByteArray}
    {executable : Bool} (hitem : Item.file path content executable ∈ suiteItems l p record)
    (hplace : t.place path = t.place (Path.join (l.runDir run.name) place)) :
    (∃ text', Outputs p.renderer run place text' ∧ content = text'.toUTF8) ∨
      (run.name = ".." ∧ place = "suite.json" ∧ content = record.pretty.toUTF8) := by
  obtain ⟨rendered, hrendered, hrendering, hf⟩ := h.exists_rendered hrun hout
  have hat := h.outputAt hrendered hf
  rw [← hrendering.1, h.place_file t hrendered hf] at hplace
  -- a file of a single name beside the directory of the runs
  have hsingle : ∀ {name : String}, t.place path = t.place l.experimentDir ++ [name] →
      run.name = ".." ∧ place = name ∧ '_' ∉ name.toList := by
    intro name hname
    rw [hname] at hplace
    rw [← hrendering.1]
    exact eq_of_wayToRun_single hat (List.append_cancel_left hplace).symm
  rcases mem_suiteItems.1 hitem with hitem | ⟨other, hother, hitem | ⟨f, hf', hitem⟩⟩ | hitem |
    hitem | hitem | hitem <;> cases hitem
  · rw [h.place_file t hother hf'] at hplace
    obtain ⟨hname, hfile⟩ := eq_of_wayToRun (h.outputAt hother hf') hat
      (List.append_cancel_left hplace)
    have hnodup : (p.rendered.map RenderedRun.name).Nodup := h.names ▸ h.nodup
    obtain rfl := List.inj_on_of_nodup_map hnodup hother hrendered hname
    obtain ⟨place', text'⟩ := f
    cases hfile
    exact .inl ⟨text', (mem_files_iff hrendering).1 hf', rfl⟩
  · exact absurd (by decide) (hsingle (Layout.place_manifestPath t l)).2.2
  · exact absurd (by decide) (hsingle (Layout.place_submitScriptPath t l)).2.2
  · exact absurd (by decide) (hsingle (Layout.place_submitScriptPath t l)).2.2
  · obtain ⟨hname, hplace, -⟩ := hsingle (Layout.place_suiteRecordPath t l)
    exact .inr ⟨hname, hplace, rfl⟩

/-- A run named `..` has the record where it has a file of the record's name. -/
theorem readText_of_dots (h : Rendering l p t')
    (hlays : FileTree.Lays (suiteItems l p record) t t') (hrun : run ∈ p.suite.runs)
    (hname : run.name = "..") (hout : Outputs p.renderer run "suite.json" text) :
    t'.readText (Path.join (l.runDir run.name) "suite.json") = .ok record.pretty := by
  obtain ⟨rendered, hrendered, hrendering, hf⟩ := h.exists_rendered hrun hout
  have hplace : t.place (Path.join (l.runDir run.name) "suite.json") =
      t.place l.suiteRecordPath := by
    rw [← hrendering.1, h.place_file t hrendered hf, hrendering.1, hname,
      Layout.place_suiteRecordPath, Layout.isName_suiteRecordFile.parts]
    rfl
  have hsight : t'.sight (t'.place (Path.join (l.runDir run.name) "suite.json")) =
      .file record.pretty.toUTF8 false := by
    rw [hlays.adds.place, hplace]
    exact hlays.written (lastFile?_suiteRecordPath t l p record)
  exact FileTree.readText_of_sight (hlays.reaches _ (h.mem_items record hrun hout)) hsight

theorem readText_of_noneOverwritten (h : Rendering l p t')
    (hlays : FileTree.Lays (suiteItems l p record) t t') (hnone : NoneOverwritten p record)
    (hrun : run ∈ p.suite.runs) (hout : Outputs p.renderer run place text) :
    t'.readText (Path.join (l.runDir run.name) place) = .ok text := by
  have hitem := h.mem_items record hrun hout
  obtain ⟨look, hlook⟩ := t.exists_lastFile? hitem
  obtain ⟨path, content, executable, hmem, hplace, rfl⟩ := FileTree.mem_of_lastFile? hlook
  have hcontent : content = text.toUTF8 := by
    rcases h.content_of_place hrun hout hmem hplace with ⟨text', hout', rfl⟩ | ⟨hname, rfl, rfl⟩
    · rw [hnone.files run hrun place text text' hout hout']
    · rw [hnone.record run hrun hname text hout]
  have hsight : t'.sight (t'.place (Path.join (l.runDir run.name) place)) =
      .file text.toUTF8 executable := by
    rw [hlays.adds.place, hlays.written hlook, hcontent]
  exact FileTree.readText_of_sight (hlays.reaches _ hitem) hsight

/-- Every text is found at its place if and only if none is written over with another one. -/
theorem readText_iff (h : Rendering l p t') (hlays : FileTree.Lays (suiteItems l p record) t t') :
    (∀ run ∈ p.suite.runs, ∀ place text, Outputs p.renderer run place text →
        t'.readText (Path.join (l.runDir run.name) place) = .ok text) ↔
      NoneOverwritten p record := by
  constructor
  · intro hread
    refine ⟨fun run hrun place text text' hout hout' => ?_, fun run hrun hname text hout => ?_⟩
    · have hboth := (hread run hrun place text hout).symm.trans (hread run hrun place text' hout')
      exact Except.ok.inj hboth
    · have hrecord := h.readText_of_dots hlays hrun hname hout
      exact Except.ok.inj ((hread run hrun _ text hout).symm.trans hrecord)
  · exact fun hnone run hrun place text hout => h.readText_of_noneOverwritten hlays hnone hrun hout

end Rendering

/-- Files of different places are never written over, if no run is named `..`. -/
theorem noneOverwritten_of_nodup (hrendered : renderRuns p.renderer p.suite.runs = .ok p.rendered)
    (hplaces : ∀ run ∈ p.rendered, (run.files.map (·.1)).Nodup)
    (hdots : ".." ∉ p.suite.runNames) : NoneOverwritten p record := by
  refine ⟨fun run hrun place text text' hout hout' => ?_, fun run hrun hname => ?_⟩
  · obtain ⟨rendered, hmem, hrendering⟩ := (renderRuns_ok hrendered).2.2 run hrun
    have hf := (mem_files_iff hrendering).2 hout
    have hf' := (mem_files_iff hrendering).2 hout'
    have hsame := List.inj_on_of_nodup_map (hplaces rendered hmem) hf hf' rfl
    exact (Prod.mk.inj hsame).2
  · exact absurd (hname ▸ List.mem_map_of_mem hrun) hdots

end

end Generate

/-! ### Texts of a generated suite -/

/-- In a suite that has been generated every document with a format has been rendered to a text. The
text is found in the directory of its run, at the place that goes with the name of the document, for
all documents of all runs, if and only if none is written over: two documents of a run whose names
lead to one place have the same text, and a run named `..` has no file where the record of the suite
is, unless it is the record. -/
theorem readText_of_generateSuite (programs : Programs) (l : Layout) (o : CompileOptions)
    {s s' : Site τ} {g : GeneratedSuite} (hwell : s.tree.WellFormed)
    (h : outcome (generateSuite programs l o) s = (.ok g, s')) :
    ∃ p, prepareSuite programs s.tree l o = .ok p ∧
      (∀ run ∈ p.suite.runs, ∀ doc ∈ run.configs, doc.2.format ≠ none →
        ∃ text, Generate.IsTextOf p.renderer doc text) ∧
      ((∀ run ∈ p.suite.runs, ∀ doc ∈ run.configs, ∀ text,
          Generate.IsTextOf p.renderer doc text →
            s'.tree.readText (Path.join (l.runDir run.name) (outputPath doc.1)) = .ok text) ↔
        Generate.NoneOverwritten p (Generate.suiteRecord p.suite p.renderer.name s.now)) := by
  obtain ⟨p, hp, h⟩ := generateSuite_ok h
  obtain ⟨plan, hcompiled, hrender⟩ := prepareSuite_ok hp
  obtain ⟨r', hsuite⟩ := compileExperiment_ok hcompiled
  have hrendered := (renderSuite_ok hrender).2.2.1
  obtain ⟨s₁, -, hlays⟩ := Generate.lays_placeSuite h
  have hrendering : Generate.Rendering l p s'.tree :=
    { rendered := hrendered
      nodup := nodup_runNames hsuite
      single := single_runNames hsuite
      stands := Generate.stands_of_lays hlays (leadsDown_prepareSuite hwell hp)
      outputs := outputPath_of_prepareSuite hwell hp }
  refine ⟨p, hp, fun run hrun doc hdoc hformat => ?_, ?_⟩
  · obtain ⟨rendered, -, -, hfiles⟩ := (Generate.renderRuns_ok hrendered).2.2 run hrun
    obtain ⟨text, htext, -⟩ := (Generate.renderFiles_ok hfiles).2 doc hdoc hformat
    exact ⟨text, htext⟩
  · rw [← hrendering.readText_iff hlays]
    constructor
    · rintro hread run hrun place text ⟨doc, hdoc, rfl, htext⟩
      exact hread run hrun doc hdoc text htext
    · intro hread run hrun doc hdoc text htext
      exact hread run hrun _ text ⟨doc, hdoc, rfl, htext⟩

/-- The document of each of two branches is found in the directory of its run. -/
theorem readText_of_two_branches :
    ∃ s' : Site Unit, ∃ p : PreparedSuite, siteWithInput.tree.WellFormed ∧
      (outcome (generateSuite noPrograms usualLayout {}) siteWithInput).2 = s' ∧
      p.rendered.map (fun run => (run.name, run.files)) =
        [("y", [("run.in", "a: 1\n")]), ("x", [("run.in", "a: 1\n")])] ∧
      ∀ run ∈ p.suite.runs, ∀ doc ∈ run.configs, ∀ text,
        Generate.IsTextOf p.renderer doc text →
          s'.tree.readText (Path.join (usualLayout.runDir run.name) (outputPath doc.1)) =
            .ok text := by
  have hrun : siteWithInput.tree.WellFormed ∧
      (outcome (generateSuite noPrograms usualLayout {}) siteWithInput).1.isOk = true ∧
      (prepareSuite noPrograms siteWithInput.tree usualLayout {}).toOption.map
        (fun p => p.rendered.map fun run => (run.name, run.files)) =
          some [("y", [("run.in", "a: 1\n")]), ("x", [("run.in", "a: 1\n")])] := by
    decide +kernel
  obtain ⟨hwell, hok, hprepared⟩ := hrun
  obtain ⟨p, hp, -, hread⟩ :=
    readText_of_generateSuite noPrograms usualLayout {} hwell (outcome_of_isOk hok)
  rw [hp] at hprepared
  have hfiles : p.rendered.map (fun run => (run.name, run.files)) =
      [("y", [("run.in", "a: 1\n")]), ("x", [("run.in", "a: 1\n")])] := Option.some.inj hprepared
  obtain ⟨plan, -, hrender⟩ := prepareSuite_ok hp
  have hrendered := (renderSuite_ok hrender).2.2.1
  refine ⟨_, p, hwell, rfl, hfiles, hread.2 (Generate.noneOverwritten_of_nodup hrendered ?_ ?_)⟩
  · intro run hrun
    have hmem : (run.name, run.files) ∈ p.rendered.map fun run => (run.name, run.files) :=
      List.mem_map_of_mem hrun
    rw [hfiles] at hmem
    simp only [List.mem_cons, Prod.mk.injEq, List.not_mem_nil, or_false] at hmem
    rcases hmem with ⟨-, hmem⟩ | ⟨-, hmem⟩ <;> simp [hmem]
  · have hnames : p.suite.runNames = ["y", "x"] :=
      calc p.suite.runNames
          = p.rendered.map RenderedRun.name := (Generate.renderRuns_ok hrendered).1.symm
        _ = (p.rendered.map fun run => (run.name, run.files)).map (·.1) := by simp
        _ = ["y", "x"] := by rw [hfiles]; rfl
    rw [hnames]
    decide

/-- Of two documents that are rendered to one place the text of one is lost. -/
theorem readText_lost_of_underscore :
    ¬ ∀ (s s' : Site Unit) (g : GeneratedSuite) (p : PreparedSuite), s.tree.WellFormed →
      prepareSuite noPrograms s.tree usualLayout {} = .ok p →
      outcome (generateSuite noPrograms usualLayout {}) s = (.ok g, s') →
        ∀ run ∈ p.suite.runs, ∀ doc ∈ run.configs, ∀ text,
          Generate.IsTextOf p.renderer doc text →
            s'.tree.readText (Path.join (usualLayout.runDir run.name) (outputPath doc.1)) =
              .ok text := by
  let site : Site Unit := {
    tree := {
      entries :=
        [("config", .dir [("e", .dir
          [("in", .dir
            [("run.in.yaml", .file "format: yaml\ndata: {a: 2}\n".toUTF8 false),
             ("run_in.yaml", .file "format: yaml\ndata: {a: 1}\n".toUTF8 false)]),
           ("plan", .dir [("sweep.yaml", .file "\x7b\x7d\n".toUTF8 false)])])])] }
    outside := () }
  have hrun : site.tree.WellFormed ∧
      (outcome (generateSuite noPrograms usualLayout {}) site).1.isOk = true ∧
      (prepareSuite noPrograms site.tree usualLayout {}).toOption.map
        (fun p => p.rendered.map (·.files)) =
          some [[("run.in", "a: 2\n"), ("run.in", "a: 1\n")]] := by
    decide +kernel
  obtain ⟨hwell, hok, hfiles⟩ := hrun
  rcases hp : prepareSuite noPrograms site.tree usualLayout {} with e | p <;> rw [hp] at hfiles
  · cases hfiles
  have hfiles : p.rendered.map (·.files) = [[("run.in", "a: 2\n"), ("run.in", "a: 1\n")]] :=
    Option.some.inj hfiles
  obtain ⟨rendered, hmem, hrendered⟩ : ∃ rendered ∈ p.rendered,
      rendered.files = [("run.in", "a: 2\n"), ("run.in", "a: 1\n")] :=
    List.mem_map.1 (hfiles ▸ List.mem_singleton_self _)
  obtain ⟨plan, -, hrender⟩ := prepareSuite_ok hp
  obtain ⟨compiled, hcompiled, hrendering⟩ :=
    (Generate.renderRuns_ok (renderSuite_ok hrender).2.2.1).2.1 rendered hmem
  intro hclaim
  have hread : ∀ text, ("run.in", text) ∈ rendered.files →
      (outcome (generateSuite noPrograms usualLayout {}) site).2.tree.readText
        (Path.join (usualLayout.runDir compiled.name) "run.in") = .ok text := by
    intro text hmem
    obtain ⟨doc, hdoc, hplace, htext⟩ := (Generate.mem_files_iff hrendering).1 hmem
    have hfound := hclaim site _ _ p hwell hp (outcome_of_isOk hok) compiled hcompiled
      doc hdoc text htext
    rwa [← hplace] at hfound
  have hboth := (hread "a: 2\n" (by simp [hrendered])).symm.trans
    (hread "a: 1\n" (by simp [hrendered]))
  exact absurd (Except.ok.inj hboth) (by decide)

end ParamSweep
