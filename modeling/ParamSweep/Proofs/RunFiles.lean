import ParamSweep.Proofs.Compilation
import ParamSweep.Proofs.Generation
import ParamSweep.Proofs.Inheritance
import ParamSweep.Proofs.MakingDirectories

/-!
The files of a run, from the configuration to the run's directory.

Neither overlays nor parameters give a run a document of another name, so its documents are named as
files of the configuration are. No such name has a slash in it, and so the path of a rendered file
leads down from the run's directory, save that its last name can be `.` or `..` (`LeadsDown`). Where
it is one of these there can be no file, and a file that is there lies inside the directory:
`inside_of_isFile`.
-/

namespace ParamSweep

/-! ### The names of documents -/

namespace Compile

variable {plan : Plan} {data : Value} {configs configs' : Entries Document} {file : String}

theorem keys_of_insert_known {doc doc' : Document} {other : String}
    (hdoc : configs.find? other = some doc) (h : file ∈ (configs.insert other doc').keys) :
    file ∈ configs.keys := by
  rcases Entries.mem_keys_insert.1 h with rfl | h
  · exact Entries.mem_keys_iff.2 ⟨doc, hdoc⟩
  · exact h

theorem keys_of_applyOverlays {overlays : List (String × Value)}
    (h : applyOverlays configs overlays = .ok configs') (hfile : file ∈ configs'.keys) :
    file ∈ configs.keys :=
  applyOverlays_induction (P := fun t => file ∈ t.keys → file ∈ configs.keys) h id
    (fun _ _ _ _ _ ht hdoc _ hmem => ht (keys_of_insert_known hdoc hmem)) hfile

theorem keys_replaceEverywhere (configs : Entries Document) (parameter : String) (value : Value) :
    (replaceEverywhere configs parameter value).keys = configs.keys := by
  simp [replaceEverywhere, Entries.keys, Function.comp_def]

theorem keys_of_inject {parameters : Entries Value}
    (h : inject plan configs parameters = .ok configs') (hfile : file ∈ configs'.keys) :
    file ∈ configs.keys := by
  refine inject_induction (P := fun t => file ∈ t.keys → file ∈ configs.keys) h id ?_ ?_ hfile
  · exact fun _ _ _ _ _ _ _ ht hdoc _ hmem => ht (keys_of_insert_known hdoc hmem)
  · exact fun p _ t ht hmem => ht (keys_replaceEverywhere t p.1 p.2 ▸ hmem)

/-- The documents of a run are among those of the experiment. -/
theorem keys_of_compileRun {branch : Branch} {combo : Combination} {run : Run}
    (h : compileRun plan data configs branch combo = .ok run) (hfile : file ∈ run.configs.keys) :
    file ∈ configs.keys := by
  obtain ⟨modified, overlaid, hmodified, hoverlaid, hinjected⟩ := compileRun_ok h
  exact keys_of_applyOverlays hmodified (keys_of_applyOverlays hoverlaid
    (keys_of_inject hinjected hfile))

theorem single_of_isUsableName {name : String} (h : isUsableName name = true) :
    name ≠ "" ∧ '/' ∉ name.toList := by
  simp only [isUsableName, Bool.and_eq_true, Bool.not_eq_true', List.contains_eq_mem,
    decide_eq_false_iff_not] at h
  refine ⟨?_, h.1.2⟩
  rintro rfl
  exact absurd h.1.1 (by decide)

end Compile

/-- The documents of a suite are named as files of the configuration are. -/
theorem fileNames_of_compileSuite {source : ConfigSource} {experiment : String} {plan : Plan}
    {o : CompileOptions} {suite : CompiledSuite} {bases : Entries String} {r' : Resolver}
    (h : outcome (compileSuite source experiment plan o) { declared := bases } = (.ok suite, r')) :
    ∀ run ∈ suite.runs, ∀ file ∈ run.configs.keys,
      ∃ link own, source.fileNames link = .ok own ∧ file ∈ own := by
  obtain ⟨sweep, configs, r₁, runs, -, hresolved, -, -, hruns, hlimit⟩ := compileSuite_ok h
  have hfresh := Resolver.sound_declareBase? source bases experiment plan.baseExperiment
  obtain ⟨hconfigs, -⟩ := (Resolver.answers_resolveAll experiment).of_outcome hfresh hresolved
  obtain ⟨links, -, hconfigs⟩ := except_bind_ok hconfigs
  obtain ⟨names, hnames, hconfigs⟩ := except_bind_ok hconfigs
  intro run hrun file hfile
  obtain ⟨branch, -, combo, -, hcompiled⟩ := compileRun_of_mem hruns hlimit hrun
  have hkey := Compile.keys_of_compileRun hcompiled hfile
  rw [(Resolver.presentDocuments_ok hconfigs).1] at hkey
  obtain ⟨link, -, own, hown, hfile⟩ := ((Resolver.fileNamesOf_ok hnames).2 file).1 hkey
  exact ⟨link, own, hown, hfile⟩

theorem single_runNames {source : ConfigSource} {experiment : String} {plan : Plan}
    {o : CompileOptions} {suite : CompiledSuite} {r r' : Resolver}
    (h : outcome (compileSuite source experiment plan o) r = (.ok suite, r')) :
    ∀ name ∈ suite.runNames, name ≠ "" ∧ '/' ∉ name.toList := by
  obtain ⟨sweep, configs, r₁, runs, -, -, -, -, hruns, hlimit⟩ := compileSuite_ok h
  intro name hname
  obtain ⟨run, hrun, rfl⟩ := List.mem_map.1 hname
  obtain ⟨branch, -, combo, -, hcompiled⟩ := compileRun_of_mem hruns hlimit hrun
  exact Compile.single_of_isUsableName (Compile.compileRun_parts hcompiled).1

/-- A file of a configuration below a root has the name of a file in a well-formed tree. -/
theorem isName_of_fileNames {t : FileTree} (h : t.WellFormed) {root experiment file : String}
    {own : List String} (hown : (ConfigSource.ofTree t root).fileNames experiment = .ok own)
    (hfile : file ∈ own) : Path.IsName file := by
  change ConfigSource.fileNamesIn t root experiment = .ok own at hown
  rw [ConfigSource.fileNamesIn] at hown
  split at hown
  next entries hlist =>
    cases hown
    obtain ⟨⟨name, n⟩, hmem, rfl⟩ := List.mem_map.1 hfile
    obtain ⟨node, hnode, hentries⟩ := except_bind_ok hlist
    split at hentries
    · cases hentries
      exact h.isName (FileTree.node_eq_ok_iff.1 hnode).2 (List.mem_filter.1 hmem).1
    · cases hentries
  · cases hown
    cases hfile

/-! ### The places of rendered files -/

/-- What stands before the last separator stands in the text. -/
theorem Text.mem_of_splitLast {separator c : Char} {cs before behind : List Char}
    (h : splitLast separator cs = some (before, behind)) (hc : c ∈ before) : c ∈ cs := by
  obtain ⟨⟨behind', before'⟩, hsplit, heq⟩ := Option.map_eq_some_iff.1 h
  cases heq
  rw [splitOnce] at hsplit
  split at hsplit
  · cases hsplit
  next rest hdrop =>
    cases hsplit
    have hmem : c ∈ cs.reverse.dropWhile (· ≠ separator) := by
      rw [hdrop]
      exact List.mem_cons_of_mem _ (List.mem_reverse.1 hc)
    exact List.mem_reverse.1 ((List.dropWhile_suffix _).subset hmem)

namespace Generate

/-- A path that leads down from a directory, whatever its last name is. -/
def LeadsDown (path : String) : Prop :=
  Path.isAbsolute path = false ∧ Path.Plain (Path.parts path).dropLast

instance (path : String) : Decidable (LeadsDown path) := inferInstanceAs (Decidable (_ ∧ _))

theorem leadsDown_of_not_mem {name : String} (h : '/' ∉ name.toList) : LeadsDown name := by
  refine ⟨Path.isAbsolute_of_not_mem h, ?_⟩
  by_cases hne : name = ""
  · subst hne
    exact fun _ hmem => by simp [Path.parts_eq, Text.splitOn] at hmem
  · rw [Path.parts_of_not_mem hne h]
    exact fun _ hmem => by cases hmem

theorem slash_not_mem_outputFilename {file : String} (h : '/' ∉ file.toList) :
    '/' ∉ (outputFilename file).toList := by
  have hreplaced : ∀ stem : List Char, '/' ∉ stem → '/' ∉ Text.replaceChar '_' ['.'] stem := by
    intro stem hstem hmem
    obtain ⟨c, hc, hmem⟩ := List.mem_flatMap.1 hmem
    split at hmem
    · simp at hmem
    · exact hstem (List.mem_singleton.1 hmem ▸ hc)
  rw [outputFilename, String.toList_ofList]
  refine hreplaced _ ?_
  split
  next before _ hsplit => exact fun hmem => h (Text.mem_of_splitLast hsplit hmem)
  · exact h

theorem leadsDown_outputPath {file : String} (h : '/' ∉ file.toList) :
    LeadsDown (outputPath file) := by
  have hbuild : ∀ name ∈ buildFiles, LeadsDown ("src/" ++ name) := by decide +kernel
  rw [outputPath]
  split
  next hmem => exact hbuild _ (List.contains_iff_mem.1 hmem)
  · exact leadsDown_of_not_mem (slash_not_mem_outputFilename h)

/-- A file at a path that leads down from a directory is inside that directory. -/
theorem inside_of_isFile {t : FileTree} {dir place : String} (hplace : LeadsDown place)
    (hreach : t.Reaches (Path.join dir place))
    (hfile : (t.sight (t.place (Path.join dir place))).IsFile) : Path.Inside place := by
  obtain ⟨habsolute, hplain⟩ := hplace
  have hnotDir : t.sight (t.place (Path.join dir place)) ≠ .dir := by
    obtain ⟨content, executable, hsight⟩ := hfile
    simp [hsight]
  rcases List.eq_nil_or_concat (Path.parts place) with hnone | ⟨front, last, hparts⟩
  · -- without a name of its own the path would end in a slash and ask for a directory
    have hempty : place = "" := Classical.byContradiction fun hne => by
      rw [Path.isAbsolute_of_parts_eq_nil hnone hne] at habsolute
      cases habsolute
    subst hempty
    have hpath := (FileTree.pathFault?_eq_none_iff.1 hreach.isPath).2.1
    exact absurd (hreach.isDir (Path.join_empty_endsWith hpath)) hnotDir
  · rw [List.concat_eq_append] at hparts
    refine ⟨habsolute, fun name hname => ?_, by simp [hparts]⟩
    rw [hparts, List.dropLast_concat] at hplain
    rw [hparts, List.mem_append, List.mem_singleton] at hname
    rcases hname with hname | rfl
    · exact hplain name hname
    · have hall : Path.parts (Path.join dir place) = Path.parts dir ++ front ++ [name] := by
        rw [Path.parts_join dir habsolute, hparts, List.append_assoc]
      have habove := hreach.sight_walk hall (List.cons_ne_nil _ _)
      rw [FileTree.place, hall, Path.walk_append, Path.walk_cons, Path.walk_nil, Path.step] at hnotDir
      -- from a directory neither `.` nor `..` leads to anything but a directory
      constructor <;> rintro rfl
      · exact hnotDir habove
      · exact hnotDir (FileTree.sight_dropLast (by simp [habove]))

end Generate

/-! ### The files of a suite -/

theorem compileExperiment_parts {t : FileTree} {l : Layout} {o : CompileOptions} {plan : Plan}
    {suite : CompiledSuite} (h : compileExperiment t l o = .ok (plan, suite)) :
    Plan.load t l.planPath = .ok plan ∧
      (outcome (compileSuite (ConfigSource.ofTree t l.configRoot) l.experiment plan o) {}).1 =
        .ok suite := by
  rw [compileExperiment] at h
  split at h
  · cases h
  · obtain ⟨plan', hplan, h⟩ := except_bind_ok h
    obtain ⟨suite', hsuite, h⟩ := except_bind_ok h
    cases h
    exact ⟨hplan, hsuite⟩

theorem compileExperiment_ok {t : FileTree} {l : Layout} {o : CompileOptions} {plan : Plan}
    {suite : CompiledSuite} (h : compileExperiment t l o = .ok (plan, suite)) :
    ∃ r', outcome (compileSuite (ConfigSource.ofTree t l.configRoot) l.experiment plan o) {} =
      (.ok suite, r') :=
  ⟨_, Prod.ext (compileExperiment_parts h).2 rfl⟩

theorem runs_ne_nil_of_renderSuite {l : Layout} {plan : Plan} {s : CompiledSuite} {r : Renderer}
    {p : PreparedSuite} (h : renderSuite l plan s r = .ok p) : p.suite.runs ≠ [] := by
  rw [(renderSuite_ok h).1]
  rintro hnil
  rw [renderSuite, hnil] at h
  cases h

/-- In a well-formed tree every rendered file has the place that goes with a name. -/
theorem outputPath_of_prepareSuite {programs : Programs} {t : FileTree} {l : Layout}
    {o : CompileOptions} {p : PreparedSuite} (ht : t.WellFormed)
    (h : prepareSuite programs t l o = .ok p) :
    ∀ run ∈ p.rendered, ∀ f ∈ run.files, ∃ file : String, '/' ∉ file.toList ∧
      f.1 = outputPath file := by
  obtain ⟨plan, hcompiled, hrendered⟩ := prepareSuite_ok h
  obtain ⟨r', hsuite⟩ := compileExperiment_ok hcompiled
  intro run hrun f hf
  obtain ⟨compiled, hmem, -, hfiles⟩ :=
    (Generate.renderRuns_ok (renderSuite_ok hrendered).2.2.1).2.1 run hrun
  obtain ⟨doc, hdoc, hplace, -⟩ := (Generate.renderFiles_ok hfiles).1 f hf
  obtain ⟨link, own, hown, hfile⟩ :=
    fileNames_of_compileSuite hsuite compiled hmem doc.1 (List.mem_map_of_mem hdoc)
  exact ⟨doc.1, (isName_of_fileNames ht hown hfile).2.1, hplace⟩

/-- So all rendered files are to be written below the directory of their run. -/
theorem leadsDown_prepareSuite {programs : Programs} {t : FileTree} {l : Layout}
    {o : CompileOptions} {p : PreparedSuite} (ht : t.WellFormed)
    (h : prepareSuite programs t l o = .ok p) :
    ∀ run ∈ p.rendered, ∀ f ∈ run.files, Generate.LeadsDown f.1 := by
  intro run hrun f hf
  obtain ⟨file, hslash, hplace⟩ := outputPath_of_prepareSuite ht h run hrun f hf
  exact hplace ▸ Generate.leadsDown_outputPath hslash

end ParamSweep
