import Mathlib.Data.List.Nodup
import Mathlib.Data.Set.Function
import ParamSweep.Proofs.LostManifest
import ParamSweep.Proofs.PlacedSuite

/-!
The directories of the runs of a generated suite.

Each run is meant to have a directory of its own name in the directory of the rendered
configurations, and no other directory is meant to be there. The name of a run is refused if it is
blank or has a slash or a line feed in it, but `.` and `..` are let through. A run of such a name
has no directory of its own: its files are written among the directories of the runs, or beside the
manifest.

`runDirectories_of_generateSuite` says that this is all that can go wrong, but for directories which
are there whatever the runs are (`Stray`): there are none unless the path of the experiment's
directory goes up somewhere.
-/

namespace ParamSweep

variable {τ : Type} {l : Layout} {rendered : List RenderedRun} {t t' : FileTree}

namespace FileTree

/-- The places of the directories that lie immediately in the directory of a path. -/
def subdirectories (t : FileTree) (path : String) : Set (List String) :=
  {place | ∃ name, place = t.place path ++ [name] ∧ t.sight place = .dir}

end FileTree

/-- A directory of this name is among those of the runs whatever the runs are: it was there before
and has not been cleared, or the path of the experiment's directory leads through it. -/
def Stray (l : Layout) (t : FileTree) (name : String) : Prop :=
  (t.holds l.experimentDir = false ∧
    t.sight (t.place l.generatedConfigsDir ++ [name]) = .dir) ∨
    t.OnWay l.experimentDir (t.place l.generatedConfigsDir ++ [name])

/-- Every run has a directory of its own, and every directory is that of a run. -/
structure OwnDirectories (l : Layout) (t : FileTree) (names : List String) : Prop where
  plain : Path.Plain names
  stray : ∀ name, Stray l t name → name ∈ names

namespace Layout

theorem isName_generatedConfigsDirectory : Path.IsName generatedConfigsDirectory := by decide

theorem place_generatedConfigsDir (t : FileTree) (l : Layout) :
    t.place l.generatedConfigsDir = t.place l.experimentDir ++ [generatedConfigsDirectory] :=
  t.place_join_name _ isName_generatedConfigsDirectory

theorem place_runDir (t : FileTree) (l : Layout) {name : String} (hne : name ≠ "")
    (hslash : '/' ∉ name.toList) :
    t.place (l.runDir name) = Path.step (t.place l.generatedConfigsDir) name := by
  rw [runDir, t.place_join _ (Path.isAbsolute_of_not_mem hslash), Path.parts_of_not_mem hne hslash,
    Path.walk_cons, Path.walk_nil]

end Layout

namespace Path

theorem step_eq_append_iff {here : List String} {part name : String} :
    step here part = here ++ [name] ↔ part ≠ "." ∧ part ≠ ".." ∧ part = name := by
  rw [step]
  split
  next hdot => simp [hdot]
  next hdot =>
    split
    next hdots =>
      simp only [hdots, ne_eq, not_true_eq_false, false_and, and_false, iff_false]
      intro h
      have hlength := congrArg List.length h
      rw [List.length_dropLast, List.length_append, List.length_singleton] at hlength
      omega
    next hdots => simp [hdot, hdots]

/-- A single name that leads down and can be followed is not too long. -/
theorem isName_of_reaches {dir name : String} (hne : name ≠ "") (hslash : '/' ∉ name.toList)
    (hname : name ≠ "." ∧ name ≠ "..") (h : t.Reaches (join dir name)) : IsName name := by
  have habsolute := isAbsolute_of_not_mem hslash
  have hpass := h.passable
  rw [parts_join dir habsolute, parts_of_not_mem hne hslash, FileTree.passable_append] at hpass
  obtain ⟨-, -, hsize, -⟩ := hpass
  exact ⟨hne, hslash, hname.1, hname.2, (hsize.resolve_left hname.1).resolve_left hname.2⟩

end Path

namespace Generate

/-! ### Directories on the way -/

/-- On the way to something in the experiment's directory there is no directory of a run, unless it
is on the way to the experiment's directory. -/
theorem onWay_experimentDir_of_single {single name : String} (hsingle : Path.IsName single)
    (h : t.OnWay (Path.join l.experimentDir single) (t.place l.generatedConfigsDir ++ [name])) :
    t.OnWay l.experimentDir (t.place l.generatedConfigsDir ++ [name]) := by
  rcases h.of_join hsingle.inside with hway | ⟨front, hfront, hplace⟩
  · exact hway
  · rw [Layout.place_generatedConfigsDir, List.append_assoc] at hplace
    obtain rfl := List.append_cancel_left hplace
    rw [hsingle.parts] at hfront
    exact absurd hfront.length_le (by simp)

theorem eq_or_onWay_of_runDir {run name : String} (hrun : Path.IsName run)
    (h : t.OnWay (l.runDir run) (t.place l.generatedConfigsDir ++ [name])) :
    run = name ∨ t.OnWay l.experimentDir (t.place l.generatedConfigsDir ++ [name]) := by
  rcases h.of_join hrun.inside with hway | ⟨front, hfront, hplace⟩
  · exact .inr (onWay_experimentDir_of_single Layout.isName_generatedConfigsDirectory hway)
  · obtain rfl := List.append_cancel_left hplace
    rw [hrun.parts] at hfront
    have heq : [name] = [run] := hfront.eq_of_length rfl
    exact .inl (List.singleton_inj.1 heq).symm

/-- The directories on the way to a suite are those of the runs and those on the way to the
experiment's directory. -/
theorem mem_or_onWay_of_onWayOf (hnames : ∀ run ∈ rendered, Path.IsName run.name) {name : String}
    (h : OnWayOf l rendered t (t.place l.generatedConfigsDir ++ [name])) :
    (∃ run ∈ rendered, run.name = name) ∨
      t.OnWay l.experimentDir (t.place l.generatedConfigsDir ++ [name]) := by
  obtain ⟨path, hpath, hway⟩ := h
  cases hpath with
  | single hsingle => exact .inr (onWay_experimentDir_of_single hsingle hway)
  | @run run hrun =>
    exact (eq_or_onWay_of_runDir (hnames run hrun) hway).imp_left fun heq => ⟨run, hrun, heq⟩
  | @file run f hrun hf hinside =>
    rcases hway.of_join hinside with hway | ⟨front, -, hplace⟩
    · exact (eq_or_onWay_of_runDir (hnames run hrun) hway).imp_left fun heq => ⟨run, hrun, heq⟩
    · rw [Layout.runDir, t.place_join_name _ (hnames run hrun), List.append_assoc] at hplace
      have heq := List.append_cancel_left hplace
      rw [List.singleton_append, List.cons.injEq] at heq
      exact .inl ⟨run, hrun, heq.1.symm⟩

namespace Placed

theorem place (h : Placed l rendered t t') (path : String) : t'.place path = t.place path :=
  FileTree.place_congr h.workingDir path

/-- A stray directory is there. -/
theorem dir_of_stray (h : Placed l rendered t t') {name : String} (hstray : Stray l t name) :
    t'.sight (t.place l.generatedConfigsDir ++ [name]) = .dir := by
  rcases hstray with ⟨hnot, hdir⟩ | ⟨front, ⟨behind, hparts⟩, hplace⟩
  · exact h.kept hnot _ hdir
  · -- the manifest is reached, and with it every directory on the way
    have hmanifest : Path.parts l.manifestPath = front ++ (behind ++ [manifestFile]) := by
      rw [Layout.manifestPath, Path.parts_join _ Layout.isName_manifestFile.isAbsolute,
        Layout.isName_manifestFile.parts, ← hparts, List.append_assoc]
    have hstart : t'.start l.manifestPath = t.start l.experimentDir := by
      rw [Layout.manifestPath, t'.start_join _ Layout.isName_manifestFile.isAbsolute,
        FileTree.start, FileTree.start, h.workingDir]
    have hdir := h.manifest.1.sight_walk hmanifest (by simp)
    rwa [hstart, ← hplace] at hdir

/-- The directories that are there afterwards are those of the runs and the stray ones. -/
theorem dir_iff (h : Placed l rendered t t') (hnames : ∀ run ∈ rendered, Path.IsName run.name)
    {name : String} :
    t'.sight (t.place l.generatedConfigsDir ++ [name]) = .dir ↔
      (∃ run ∈ rendered, run.name = name) ∨ Stray l t name := by
  constructor
  · intro hdir
    rw [Layout.place_generatedConfigsDir, List.append_assoc] at hdir
    have hmade := h.made _ (by simp) hdir
    rw [← List.append_assoc, ← Layout.place_generatedConfigsDir] at hmade
    rcases hmade with hold | hway
    · exact .inr (.inl hold)
    · exact (mem_or_onWay_of_onWayOf hnames hway).imp_right .inr
  · rintro (⟨run, hrun, rfl⟩ | hstray)
    · have hdir := (h.stands run hrun).dir
      rwa [h.place, Layout.runDir, t.place_join_name _ (hnames run hrun)] at hdir
    · exact h.dir_of_stray hstray

/-- Where the path of the experiment's directory does not go up, no directory is stray. -/
theorem not_stray (h : Placed l rendered t t') (hdir : l.experimentDir ≠ "")
    (hup : ".." ∉ Path.parts l.experimentDir) (name : String) : ¬ Stray l t name := by
  rintro (⟨hnot, hold⟩ | hway)
  · have hsight : t.sight (t.place l.experimentDir) = .dir := by
      rw [Layout.place_generatedConfigsDir, List.append_assoc] at hold
      exact FileTree.sight_above (List.prefix_append _ _) hold
    have hholds := holds_of_dir h.workingDir h.manifest.1 hdir hup hsight
    rw [hholds] at hnot
    cases hnot
  · have hlength := (hway.prefix_place hup).length_le
    rw [Layout.place_generatedConfigsDir, List.length_append, List.length_append] at hlength
    simp only [List.length_singleton] at hlength
    omega

theorem ownDirectories_iff_plain (h : Placed l rendered t t') (hdir : l.experimentDir ≠ "")
    (hup : ".." ∉ Path.parts l.experimentDir) {names : List String} :
    OwnDirectories l t names ↔ Path.Plain names :=
  ⟨OwnDirectories.plain, fun hplain =>
    ⟨hplain, fun name hstray => absurd hstray (h.not_stray hdir hup name)⟩⟩

end Placed

/-! ### From runs to directories -/

variable {runs : List Run}

/-- The place of the directory of a run. -/
def placeOfRun (l : Layout) (t : FileTree) (run : Run) : List String :=
  t.place (l.runDir run.name)

/-- Names of runs as compilation lets them through. -/
def Single (runs : List Run) : Prop :=
  ∀ name ∈ runs.map Run.name, name ≠ "" ∧ '/' ∉ name.toList

namespace Placed

theorem exists_rendered (hrendered : rendered.map RenderedRun.name = runs.map Run.name)
    {name : String} : (∃ run ∈ rendered, run.name = name) ↔ name ∈ runs.map Run.name := by
  rw [← hrendered, List.mem_map]

/-- Names that lead down from the directory of the rendered configurations are names. -/
theorem isName (h : Placed l rendered t t')
    (hrendered : rendered.map RenderedRun.name = runs.map Run.name) (hsingle : Single runs)
    (hplain : Path.Plain (runs.map Run.name)) : ∀ run ∈ rendered, Path.IsName run.name := by
  intro run hrun
  have hmem : run.name ∈ runs.map Run.name := hrendered ▸ List.mem_map_of_mem hrun
  obtain ⟨hne, hslash⟩ := hsingle _ hmem
  exact Path.isName_of_reaches hne hslash (hplain _ hmem) (h.stands run hrun).reaches

/-- Runs whose directories lie in the directory of the rendered configurations lead down from it. -/
theorem plain_of_mapsTo (hsingle : Single runs)
    (hmaps : Set.MapsTo (placeOfRun l t') {run | run ∈ runs}
      (t'.subdirectories l.generatedConfigsDir)) : Path.Plain (runs.map Run.name) := by
  intro name hname
  obtain ⟨hne, hslash⟩ := hsingle name hname
  obtain ⟨run, hrun, rfl⟩ := List.mem_map.1 hname
  obtain ⟨name, hplace, -⟩ := hmaps hrun
  rw [placeOfRun, Layout.place_runDir t' l hne hslash, Path.step_eq_append_iff] at hplace
  exact ⟨hplace.1, hplace.2.1⟩

theorem mapsTo_placeOfRun (h : Placed l rendered t t')
    (hrendered : rendered.map RenderedRun.name = runs.map Run.name)
    (hnames : ∀ run ∈ rendered, Path.IsName run.name) :
    Set.MapsTo (placeOfRun l t') {run | run ∈ runs} (t'.subdirectories l.generatedConfigsDir) := by
  intro run hrun
  obtain ⟨standing, hstanding, hname⟩ :=
    (exists_rendered hrendered).2 (List.mem_map_of_mem (f := Run.name) hrun)
  have hisName := hnames standing hstanding
  rw [hname] at hisName
  refine ⟨run.name, t'.place_join_name _ hisName, ?_⟩
  rw [placeOfRun, ← hname]
  exact (h.stands standing hstanding).dir

theorem injOn_placeOfRun (hnodup : (runs.map Run.name).Nodup) (hsingle : Single runs)
    (hplain : Path.Plain (runs.map Run.name)) :
    Set.InjOn (placeOfRun l t') {run | run ∈ runs} := by
  have hplace : ∀ run ∈ runs,
      placeOfRun l t' run = t'.place l.generatedConfigsDir ++ [run.name] := by
    intro run hrun
    have hmem := List.mem_map_of_mem (f := Run.name) hrun
    obtain ⟨hne, hslash⟩ := hsingle _ hmem
    obtain ⟨hdot, hdots⟩ := hplain _ hmem
    rw [placeOfRun, Layout.place_runDir t' l hne hslash, Path.step_eq_append_iff]
    exact ⟨hdot, hdots, rfl⟩
  intro run hrun other hother heq
  rw [hplace run hrun, hplace other hother] at heq
  exact List.inj_on_of_nodup_map hnodup hrun hother
    (List.singleton_inj.1 (List.append_cancel_left heq))

theorem surjOn_placeOfRun (h : Placed l rendered t t')
    (hrendered : rendered.map RenderedRun.name = runs.map Run.name)
    (hnames : ∀ run ∈ rendered, Path.IsName run.name)
    (hstray : ∀ name, Stray l t name → name ∈ runs.map Run.name) :
    Set.SurjOn (placeOfRun l t') {run | run ∈ runs} (t'.subdirectories l.generatedConfigsDir) := by
  rintro place ⟨name, rfl, hdir⟩
  rw [h.place] at hdir
  have hmem : name ∈ runs.map Run.name :=
    ((h.dir_iff hnames).1 hdir).elim (exists_rendered hrendered).1 (hstray name)
  obtain ⟨standing, hstanding, rfl⟩ := (exists_rendered hrendered).2 hmem
  obtain ⟨run, hrun, hname⟩ := List.mem_map.1 hmem
  refine ⟨run, hrun, ?_⟩
  rw [placeOfRun, hname]
  exact t'.place_join_name _ (hnames standing hstanding)

theorem stray_of_surjOn (h : Placed l rendered t t') (hsingle : Single runs)
    (hsurj : Set.SurjOn (placeOfRun l t') {run | run ∈ runs}
      (t'.subdirectories l.generatedConfigsDir)) {name : String} (hstray : Stray l t name) :
    name ∈ runs.map Run.name := by
  have hdir := h.dir_of_stray hstray
  obtain ⟨run, hrun, hplace⟩ := hsurj ⟨name, rfl, (h.place _).symm ▸ hdir⟩
  have hmem := List.mem_map_of_mem (f := Run.name) hrun
  obtain ⟨hne, hslash⟩ := hsingle _ hmem
  rw [placeOfRun, Layout.place_runDir t' l hne hslash, Path.step_eq_append_iff] at hplace
  exact hplace.2.2 ▸ hmem

/-- Runs and directories correspond if and only if every run has a directory of its own and there is
no other. -/
theorem bijOn_placeOfRun_iff (h : Placed l rendered t t')
    (hrendered : rendered.map RenderedRun.name = runs.map Run.name)
    (hnodup : (runs.map Run.name).Nodup) (hsingle : Single runs) :
    Set.BijOn (placeOfRun l t') {run | run ∈ runs} (t'.subdirectories l.generatedConfigsDir) ↔
      OwnDirectories l t (runs.map Run.name) := by
  constructor
  · rintro ⟨hmaps, -, hsurj⟩
    exact ⟨plain_of_mapsTo hsingle hmaps, fun name hstray => h.stray_of_surjOn hsingle hsurj hstray⟩
  · rintro ⟨hplain, hstray⟩
    have hnames := h.isName hrendered hsingle hplain
    exact ⟨h.mapsTo_placeOfRun hrendered hnames, injOn_placeOfRun hnodup hsingle hplain,
      h.surjOn_placeOfRun hrendered hnames hstray⟩

end Placed

/-- The files of a run lie strictly inside the directory of its name. -/
def FilesInside (l : Layout) (t : FileTree) (run : RenderedRun) : Prop :=
  ∀ f ∈ run.files, ∃ rest, rest ≠ [] ∧
    t.place (Path.join (l.runDir run.name) f.1) =
      t.place l.generatedConfigsDir ++ run.name :: rest ∧
    (t.sight (t.place (Path.join (l.runDir run.name) f.1))).IsFile

theorem Stands.filesInside {run : RenderedRun} (h : Stands l t run)
    (hname : Path.IsName run.name) : FilesInside l t run := by
  intro f hf
  obtain ⟨hinside, hfile⟩ := h.files f hf
  refine ⟨Path.parts f.1, hinside.2.2, ?_, hfile⟩
  rw [t.place_join_inside _ hinside, Layout.runDir, t.place_join_name _ hname, List.append_assoc,
    List.singleton_append]

end Generate

/-! ### Losing the manifest -/

/-- The site without its manifest. -/
def Site.withoutManifest (s : Site τ) (l : Layout) : Site τ :=
  { s with tree := s.tree.setAt (s.tree.place l.manifestPath) none }

/-- Where the manifest is taken away, loading it gives the names back, ascending. -/
def Regenerates (l : Layout) (s : Site τ) (names : List String) : Prop :=
  ∃ found s', outcome (Manifest.load l) (s.withoutManifest l) =
      (.ok (found, .regenerated found.length), s') ∧
    found.Pairwise (· < ·) ∧ found.Perm names

theorem regenerates_of_placed {s : Site τ} {names : List String}
    (h : Generate.Placed l rendered t s.tree) (hsorted : t.Sorted)
    (hrendered : rendered.map RenderedRun.name = names) (hsome : names ≠ [])
    (hnodup : names.Nodup) (hfit : ∀ name ∈ names, Manifest.fitsLine name = true)
    (hnames : ∀ run ∈ rendered, Path.IsName run.name)
    (hstray : ∀ name, Stray l t name → name ∈ names) : Regenerates l s names := by
  have hfile := h.manifest.2
  have hdir : ∀ place, (s.withoutManifest l).tree.sight place = .dir ↔ s.tree.sight place = .dir :=
    fun _ => FileTree.sight_setAt_none_eq_dir_iff hfile
  have hwork : (s.withoutManifest l).tree.workingDir = s.tree.workingDir :=
    FileTree.setAt_workingDir _ _
  have hplace : ∀ path, (s.withoutManifest l).tree.place path = s.tree.place path :=
    fun path => FileTree.place_congr hwork path
  have hreach : ∀ {path}, s.tree.Reaches path → (s.withoutManifest l).tree.Reaches path :=
    fun hreach => hreach.mono hwork fun place => (hdir place).2
  have hmem : ∀ name, (s.withoutManifest l).tree.sight
      ((s.withoutManifest l).tree.place l.generatedConfigsDir ++ [name]) = .dir ↔
        name ∈ names := by
    intro name
    rw [hdir, hplace, h.place, h.dir_iff hnames, ← hrendered, List.mem_map]
    refine or_iff_left_of_imp fun hname => ?_
    exact List.mem_map.1 (hrendered ▸ hstray name hname)
  obtain ⟨name, hname⟩ := List.exists_mem_of_ne_nil names hsome
  obtain ⟨run, hrun, -⟩ := List.mem_map.1 (hrendered ▸ hname)
  have hconfigs : s.tree.Reaches l.generatedConfigsDir :=
    (FileTree.holds_iff.1 (FileTree.holds_of_reaches_join (hnames run hrun)
      (Generate.generatedConfigsDir_ne_empty l) (h.stands run hrun).reaches)).1
  have hlost : (s.withoutManifest l).tree.sight
      ((s.withoutManifest l).tree.place l.manifestPath) = .nothing := by
    rw [hplace]
    exact (FileTree.sight_setAt_none hfile _).trans (if_pos rfl)
  obtain ⟨found, s', hload, hpairwise, hfound⟩ := Manifest.load_of_lost (hreach h.manifest.1) hlost
    (hreach hconfigs) (FileTree.sight_above (List.prefix_append _ _) ((hmem name).2 hname))
    (FileTree.sorted_setAt (h.sorted hsorted) _ nofun) ⟨name, (hmem name).2 hname⟩
    (fun other hother => hfit other ((hmem other).1 hother))
  refine ⟨found, s', hload, hpairwise, ?_⟩
  refine (List.perm_ext_iff_of_nodup (hpairwise.imp ?_) hnodup).2 fun other =>
    (hfound other).trans (hmem other)
  rintro a _ hlt rfl
  exact String.lt_irrefl a hlt

/-! ### The directories of a generated suite -/

/-- In a suite that has been generated, runs and directories correspond if and only if every run has
a directory of its own and there is no other. Then all files of a run lie inside its directory, and
a manifest that is lost is made again from the names of the runs. Where the path of the experiment's
directory does not go up, all that it takes is that no run is named `.` or `..`. -/
theorem runDirectories_of_generateSuite (programs : Programs) (l : Layout) (o : CompileOptions)
    {s s' : Site τ} {g : GeneratedSuite} (hwell : s.tree.WellFormed)
    (h : outcome (generateSuite programs l o) s = (.ok g, s')) :
    ∃ p, prepareSuite programs s.tree l o = .ok p ∧
      (Set.BijOn (Generate.placeOfRun l s'.tree) {run | run ∈ p.suite.runs}
          (s'.tree.subdirectories l.generatedConfigsDir) ↔
        OwnDirectories l s.tree p.suite.runNames) ∧
      (OwnDirectories l s.tree p.suite.runNames →
        (∀ run ∈ p.rendered, Generate.FilesInside l s'.tree run) ∧
          Regenerates l s' p.suite.runNames) ∧
      (l.experimentDir ≠ "" → ".." ∉ Path.parts l.experimentDir →
        (OwnDirectories l s.tree p.suite.runNames ↔ Path.Plain p.suite.runNames)) := by
  obtain ⟨p, hp, h⟩ := generateSuite_ok h
  obtain ⟨plan, hcompiled, hrender⟩ := prepareSuite_ok hp
  obtain ⟨r', hsuite⟩ := compileExperiment_ok hcompiled
  have hrendered : p.rendered.map RenderedRun.name = p.suite.runNames :=
    (Generate.renderRuns_ok (renderSuite_ok hrender).2.2.1).1
  have hnodup : p.suite.runNames.Nodup := nodup_runNames hsuite
  have hsingle : Generate.Single p.suite.runs := single_runNames hsuite
  have hplaced := Generate.placed_of_placeSuite (leadsDown_prepareSuite hwell hp) h
  refine ⟨p, hp, hplaced.bijOn_placeOfRun_iff hrendered hnodup hsingle, ?_,
    fun hdir hup => hplaced.ownDirectories_iff_plain hdir hup⟩
  rintro ⟨hplain, hstray⟩
  have hnames := hplaced.isName hrendered hsingle hplain
  have hsome : p.suite.runNames ≠ [] := by
    rw [CompiledSuite.runNames, Ne, List.map_eq_nil_iff]
    exact runs_ne_nil_of_renderSuite hrender
  exact ⟨fun run hrun => (hplaced.stands run hrun).filesInside (hnames run hrun),
    regenerates_of_placed hplaced hwell.sorted hrendered hsome hnodup (placeSuite_ok h).1 hnames
      hstray⟩

/-- An experiment with a document to render and two branches, not in the order of their names. -/
def siteWithInput : Site Unit where
  tree := {
    entries :=
      [("config", .dir [("e", .dir
        [("in", .dir [("run_in.yaml", .file "format: yaml\ndata: {a: 1}\n".toUTF8 false)]),
          ("plan", .dir [("sweep.yaml",
            .file "branches: [{name: y}, {name: x}]\n".toUTF8 false)])])]),
       ("runs", .dir [("e", .dir [("generated_configs", .dir [("old", .dir [])])])])] }
  outside := ()

/-- Two runs have a directory each, with their files inside, and are found again by name. -/
theorem runDirectories_of_two_branches :
    ∃ s' : Site Unit, ∃ p : PreparedSuite, siteWithInput.tree.WellFormed ∧
      (outcome (generateSuite noPrograms usualLayout {}) siteWithInput).2 = s' ∧
      p.rendered.map (fun run => (run.name, run.files.map (·.1))) =
        [("y", ["run.in"]), ("x", ["run.in"])] ∧
      Set.BijOn (Generate.placeOfRun usualLayout s'.tree) {run | run ∈ p.suite.runs}
        (s'.tree.subdirectories usualLayout.generatedConfigsDir) ∧
      (∀ run ∈ p.rendered, Generate.FilesInside usualLayout s'.tree run) ∧
      Regenerates usualLayout s' ["y", "x"] := by
  have hrun : siteWithInput.tree.WellFormed ∧
      (outcome (generateSuite noPrograms usualLayout {}) siteWithInput).1.isOk = true ∧
      (prepareSuite noPrograms siteWithInput.tree usualLayout {}).toOption.map
        (fun p => (p.suite.runNames, p.rendered.map fun run => (run.name, run.files.map (·.1)))) =
          some (["y", "x"], [("y", ["run.in"]), ("x", ["run.in"])]) ∧
      usualLayout.experimentDir ≠ "" ∧ ".." ∉ Path.parts usualLayout.experimentDir := by
    decide +kernel
  obtain ⟨hwell, hok, hprepared, hdir, hup⟩ := hrun
  obtain ⟨p, hp, hbij, hinside, hown⟩ := runDirectories_of_generateSuite noPrograms usualLayout {}
    hwell (outcome_of_isOk hok)
  rw [hp] at hprepared
  obtain ⟨hnames, hfiles⟩ := Prod.mk.inj (Option.some.inj hprepared)
  rw [hnames] at hbij hinside hown
  have howned := (hown hdir hup).2 (by decide)
  exact ⟨_, p, hwell, rfl, hfiles, hbij.2 howned, hinside howned⟩

/-- A run named `..` has no directory among those of the runs, and once its manifest is lost it is
not found again. -/
theorem not_bijOn_of_dots :
    (¬ ∀ (s s' : Site Unit) (g : GeneratedSuite) (p : PreparedSuite), s.tree.WellFormed →
      prepareSuite noPrograms s.tree usualLayout {} = .ok p →
      outcome (generateSuite noPrograms usualLayout {}) s = (.ok g, s') →
        Set.BijOn (Generate.placeOfRun usualLayout s'.tree) {run | run ∈ p.suite.runs}
          (s'.tree.subdirectories usualLayout.generatedConfigsDir)) ∧
    ¬ ∀ (s s' : Site Unit) (g : GeneratedSuite) (p : PreparedSuite), s.tree.WellFormed →
      prepareSuite noPrograms s.tree usualLayout {} = .ok p →
      outcome (generateSuite noPrograms usualLayout {}) s = (.ok g, s') →
        Regenerates usualLayout s' p.suite.runNames := by
  let site := siteWithPlan "run_name_template: \"..\"\n"
  let after := (outcome (generateSuite noPrograms usualLayout {}) site).2
  have hrun : site.tree.WellFormed ∧
      (outcome (generateSuite noPrograms usualLayout {}) site).1.isOk = true ∧
      (prepareSuite noPrograms site.tree usualLayout {}).toOption.map (·.suite.runNames) =
        some [".."] ∧
      (outcome (Manifest.load usualLayout) (after.withoutManifest usualLayout)).1.isOk = false := by
    decide +kernel
  obtain ⟨hwell, hok, hnames, hload⟩ := hrun
  obtain ⟨g, hgenerated⟩ :
      ∃ g, outcome (generateSuite noPrograms usualLayout {}) site = (.ok g, after) :=
    ⟨_, outcome_of_isOk hok⟩
  rcases hp : prepareSuite noPrograms site.tree usualLayout {} with e | p <;> rw [hp] at hnames
  · cases hnames
  have hname : p.suite.runNames = [".."] := Option.some.inj hnames
  constructor
  · intro hclaim
    have hmaps := (hclaim site after g p hwell hp hgenerated).mapsTo
    have hsingle : Generate.Single p.suite.runs := by
      change ∀ name ∈ p.suite.runNames, _
      rw [hname]
      decide
    have hplain : Path.Plain p.suite.runNames := Generate.Placed.plain_of_mapsTo hsingle hmaps
    rw [hname] at hplain
    exact (hplain ".." List.mem_cons_self).2 rfl
  · intro hclaim
    obtain ⟨found, s', hfound, -⟩ := hclaim site after g p hwell hp hgenerated
    rw [hfound] at hload
    cases hload

end ParamSweep
