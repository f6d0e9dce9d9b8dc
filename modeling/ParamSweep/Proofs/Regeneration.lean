import ParamSweep.Proofs.RunDirectories
import ParamSweep.Proofs.SameConfiguration

/-!
Generating a suite where there was something before.

The experiment's directory is meant to be taken away before the suite is written, so that nothing of
what was there is left. It is taken away if it is held; and it is not held while its path cannot be
followed, be it that the path goes up out of a directory that is not there yet. That directory is
made on the way to the first file, the path can be followed from then on, and it leads to whatever
was there all the time.

So a place in the directory looks as the suite says, or as it looked before if the directory was not
held. From one configuration two generations lead to directories that look alike if and only if what
remains is alike (`sameSuite_of_generateSuite`), and where the path does not go up nothing remains.
-/

namespace ParamSweep

variable {τ : Type} {l : Layout} {p : PreparedSuite} {record record' : Value} {t t' : FileTree}
  {place : List String}

namespace Generate

/-! ### Places of a suite -/

/-- A place that the path of something in the suite leads through or to. -/
def PartOf (l : Layout) (p : PreparedSuite) (t : FileTree) (place : List String) : Prop :=
  ∃ record, t.OnWayTo (suiteItems l p record) place

/-- Where the suite is put does not depend on what the record says. -/
theorem partOf_iff (record : Value) :
    PartOf l p t place ↔ t.OnWayTo (suiteItems l p record) place := by
  have hpaths : ∀ record', (suiteItems l p record').map Item.path =
      (suiteItems l p record).map Item.path := by
    intro record'
    simp [suiteItems, Item.path]
  have hway : ∀ items, t.OnWayTo items place ↔ ∃ path ∈ items.map Item.path, t.OnWay path place := by
    intro items
    simp [FileTree.OnWayTo]
  constructor
  · rintro ⟨record', hpart⟩
    rwa [hway, hpaths, ← hway] at hpart
  · exact fun hpart => ⟨record, hpart⟩

theorem PartOf.congr (h : PartOf l p t place) (hwork : t'.workingDir = t.workingDir) :
    PartOf l p t' place := by
  obtain ⟨record, hway⟩ := h
  exact ⟨record, hway.congr hwork⟩

theorem partOf_experimentDir : PartOf l p t (t.place l.experimentDir) := by
  have hitem : Item.file l.manifestPath (Manifest.body p.suite.runNames).toUTF8 false ∈
      suiteItems l p .null := mem_suiteItems.2 (.inr (.inr (.inl rfl)))
  refine ⟨.null, _, hitem, Path.parts l.experimentDir, ?_, ?_⟩
  · exact ⟨[manifestFile], by
      rw [Item.path, Layout.manifestPath, Path.parts_join _ Layout.isName_manifestFile.isAbsolute,
        Layout.isName_manifestFile.parts]⟩
  · rw [Item.path, Layout.manifestPath, t.start_join _ Layout.isName_manifestFile.isAbsolute]
    rfl

theorem ne_nil_of_not_partOf {rest : List String}
    (h : ¬ PartOf l p t (t.place l.experimentDir ++ rest)) : rest ≠ [] := by
  rintro rfl
  rw [List.append_nil] at h
  exact h partOf_experimentDir

/-- But for the place of the record, the last file does not depend on it either. -/
theorem lastFile?_suiteItems (hplace : place ≠ t.place l.suiteRecordPath) :
    t.lastFile? (suiteItems l p record') place = t.lastFile? (suiteItems l p record) place := by
  simp [suiteItems, FileTree.lastFile?, Item.fileAt?, Ne.symm hplace]

/-! ### What remains -/

/-- How a place in the experiment's directory looks once that has been cleared. -/
def remains (l : Layout) (t : FileTree) (place : List String) : Sight :=
  if t.holds l.experimentDir then .nothing else t.sight place

theorem sight_clear {s s' : Site τ} {u : Unit} (h : outcome (clear l) s = (.ok u, s'))
    {rest : List String} (hrest : rest ≠ []) :
    s'.tree.sight (s.tree.place l.experimentDir ++ rest) =
      remains l s.tree (s.tree.place l.experimentDir ++ rest) := by
  rw [remains]
  rcases clear_ok h with ⟨hholds, hcleared⟩ | ⟨hnot, heq⟩
  · rw [if_pos hholds]
    exact hcleared.below rest hrest
  · rw [hnot, heq]
    rfl

/-- What there is in the experiment's directory once a suite has been placed. -/
structure Regenerated (l : Layout) (p : PreparedSuite) (record : Value) (t t' : FileTree) :
    Prop where
  workingDir : t'.workingDir = t.workingDir
  reaches : t'.Reaches l.manifestPath
  recorded : t'.readText l.suiteRecordPath = .ok record.pretty
  part : ∀ {place}, PartOf l p t place → t'.sight place =
    (t.lastFile? (suiteItems l p record) place).getD .dir
  other : ∀ {rest}, ¬ PartOf l p t (t.place l.experimentDir ++ rest) →
    t'.sight (t.place l.experimentDir ++ rest) = remains l t (t.place l.experimentDir ++ rest)

theorem regenerated_of_placeSuite {s s' : Site τ} {g : GeneratedSuite}
    (h : outcome (placeSuite l p record) s = (.ok g, s')) :
    Regenerated l p record s.tree s'.tree := by
  obtain ⟨s₁, hclear, hlays⟩ := lays_placeSuite h
  have hwork := workingDir_clear hclear
  have hlast : ∀ place, s₁.tree.lastFile? (suiteItems l p record) place =
      s.tree.lastFile? (suiteItems l p record) place :=
    fun place => congrFun (FileTree.lastFile?_congr hwork _) place
  refine ⟨hlays.adds.workingDir.trans hwork, ?_, (placeSuite_ok h).2.2.2.2, ?_, ?_⟩
  · exact hlays.reaches (.file l.manifestPath (Manifest.body p.suite.runNames).toUTF8 false)
      (mem_suiteItems.2 (.inr (.inr (.inl rfl))))
  · intro place hpart
    have hway := (partOf_iff record).1 (hpart.congr hwork)
    rw [← hlast]
    rcases hlook : s₁.tree.lastFile? (suiteItems l p record) place with _ | look
    · exact hlays.made hlook hway
    · exact hlays.written hlook
  · intro rest hnot
    have hrest := ne_nil_of_not_partOf hnot
    have hway : ¬ s₁.tree.OnWayTo (suiteItems l p record) (s.tree.place l.experimentDir ++ rest) :=
      fun hway => hnot ⟨record, hway.congr hwork.symm⟩
    have hnone : s₁.tree.lastFile? (suiteItems l p record)
        (s.tree.place l.experimentDir ++ rest) = none := by
      rw [Option.eq_none_iff_forall_ne_some]
      exact fun look hlook => hway (FileTree.onWayTo_of_lastFile? hlook)
    rw [hlays.kept hnone hway, sight_clear hclear hrest]

/-! ### Two suites -/

/-- Two trees look alike in the experiment's directory, but for the record of the suite. -/
def SameSuite (l : Layout) (t t' : FileTree) : Prop :=
  ∀ rest, rest ≠ ["suite.json"] →
    t'.sight (t'.place l.experimentDir ++ rest) = t.sight (t.place l.experimentDir ++ rest)

/-- What remains in the experiment's directory beside the suite is alike in two trees. -/
def SameRemains (l : Layout) (p : PreparedSuite) (t t' : FileTree) : Prop :=
  ∀ rest, ¬ PartOf l p t (t.place l.experimentDir ++ rest) →
    remains l t' (t'.place l.experimentDir ++ rest) = remains l t (t.place l.experimentDir ++ rest)

/-- Nothing is in the experiment's directory but the suite. -/
def OnlySuite (l : Layout) (p : PreparedSuite) (t : FileTree) : Prop :=
  ∀ rest, t.sight (t.place l.experimentDir ++ rest) ≠ .nothing →
    PartOf l p t (t.place l.experimentDir ++ rest)

theorem partOf_suiteRecordPath : PartOf l p t (t.place l.experimentDir ++ ["suite.json"]) := by
  rw [← Layout.place_suiteRecordPath]
  exact ⟨.null, FileTree.onWayTo_of_lastFile? (lastFile?_suiteRecordPath t l p .null)⟩

namespace Regenerated

variable {u u' : FileTree}

/-- Two suites made from one configuration look alike if and only if what remains does. -/
theorem sameSuite_iff (h : Regenerated l p record t t') (h' : Regenerated l p record' u u')
    (hwork : u.workingDir = t.workingDir) : SameSuite l t' u' ↔ SameRemains l p t u := by
  have hplace : ∀ path, u.place path = t.place path := FileTree.place_congr hwork
  have hafter : ∀ path, t'.place path = t.place path := FileTree.place_congr h.workingDir
  have hafter' : ∀ path, u'.place path = t.place path :=
    fun path => (FileTree.place_congr h'.workingDir path).trans (hplace path)
  have hother' : ∀ {rest}, ¬ PartOf l p t (t.place l.experimentDir ++ rest) →
      u'.sight (t.place l.experimentDir ++ rest) =
        remains l u (t.place l.experimentDir ++ rest) := by
    intro rest hnot
    rw [← hplace]
    refine h'.other fun hpart => hnot ?_
    rw [← hplace]
    exact hpart.congr hwork.symm
  constructor
  · intro hsame rest hnot
    have hrest : rest ≠ ["suite.json"] := by
      rintro rfl
      exact hnot partOf_suiteRecordPath
    have hsight := hsame rest hrest
    rw [hafter, hafter', hother' hnot, h.other hnot] at hsight
    rw [hplace, hsight]
  · intro hsame rest hrest
    rw [hafter, hafter']
    by_cases hpart : PartOf l p t (t.place l.experimentDir ++ rest)
    · have hne : t.place l.experimentDir ++ rest ≠ t.place l.suiteRecordPath := by
        rw [Layout.place_suiteRecordPath]
        exact fun heq => hrest (List.append_cancel_left heq)
      rw [h.part hpart, h'.part (hpart.congr hwork), FileTree.lastFile?_congr hwork,
        lastFile?_suiteItems hne]
    · have hremains := hsame rest hpart
      rw [hplace] at hremains
      rw [hother' hpart, hremains, h.other hpart]

/-- Where the path of the experiment's directory does not go up, nothing of what was there before
remains. -/
theorem remains_eq_nothing (h : Regenerated l p record t t') (hdir : l.experimentDir ≠ "")
    (hup : ".." ∉ Path.parts l.experimentDir) {rest : List String} (hrest : rest ≠ []) :
    remains l t (t.place l.experimentDir ++ rest) = .nothing := by
  rw [remains]
  split
  · rfl
  next hnot =>
    refine Classical.byContradiction fun hthere => hnot ?_
    exact holds_of_dir h.workingDir h.reaches hdir hup (FileTree.sight_of_append hrest hthere)

theorem onlySuite (h : Regenerated l p record t t') (hdir : l.experimentDir ≠ "")
    (hup : ".." ∉ Path.parts l.experimentDir) : OnlySuite l p t' := by
  intro rest hthere
  refine Classical.byContradiction fun hnot => hthere ?_
  have hplace : t'.place l.experimentDir = t.place l.experimentDir :=
    FileTree.place_congr h.workingDir _
  have hnot' : ¬ PartOf l p t (t.place l.experimentDir ++ rest) :=
    fun hpart => hnot (hplace ▸ hpart.congr h.workingDir)
  rw [hplace, h.other hnot', h.remains_eq_nothing hdir hup (ne_nil_of_not_partOf hnot')]

end Regenerated

end Generate

/-! ### Generating again -/

/-- Two generations from one configuration, with the same options, prepare the same suite, and each
records it with its own time.

Whatever was in the experiment's directory before, the directories look alike afterwards if and only
if what has not been cleared away looked alike. Where the path of the directory does not go up they
always do, and there is nothing in them but the suite. The second generation may start from what the
first one has left: then generating twice comes to the same as generating once. -/
theorem sameSuite_of_generateSuite (programs : Programs) (l : Layout) (o : CompileOptions)
    {s₁ s₁' s₂ s₂' : Site τ} {g₁ g₂ : GeneratedSuite}
    (hsame : SameConfiguration programs l s₁.tree s₂.tree)
    (h₁ : outcome (generateSuite programs l o) s₁ = (.ok g₁, s₁'))
    (h₂ : outcome (generateSuite programs l o) s₂ = (.ok g₂, s₂')) :
    ∃ p, prepareSuite programs s₁.tree l o = .ok p ∧ prepareSuite programs s₂.tree l o = .ok p ∧
      s₁'.tree.readText l.suiteRecordPath =
        .ok (Generate.suiteRecord p.suite p.renderer.name s₁.now).pretty ∧
      s₂'.tree.readText l.suiteRecordPath =
        .ok (Generate.suiteRecord p.suite p.renderer.name s₂.now).pretty ∧
      (Generate.SameSuite l s₁'.tree s₂'.tree ↔ Generate.SameRemains l p s₁.tree s₂.tree) ∧
      (l.experimentDir ≠ "" → ".." ∉ Path.parts l.experimentDir →
        Generate.SameSuite l s₁'.tree s₂'.tree ∧ Generate.OnlySuite l p s₁'.tree ∧
          Generate.OnlySuite l p s₂'.tree) := by
  obtain ⟨p, hp₁, h₁⟩ := generateSuite_ok h₁
  obtain ⟨p', hp₂, h₂⟩ := generateSuite_ok h₂
  obtain rfl := prepareSuite_unique hsame hp₁ hp₂
  have hfirst := Generate.regenerated_of_placeSuite h₁
  have hsecond := Generate.regenerated_of_placeSuite h₂
  have hiff := hfirst.sameSuite_iff hsecond hsame.workingDir
  refine ⟨p, hp₁, hp₂, hfirst.recorded, hsecond.recorded, hiff, fun hdir hup => ?_⟩
  refine ⟨hiff.2 fun rest hnot => ?_, hfirst.onlySuite hdir hup, hsecond.onlySuite hdir hup⟩
  have hrest := Generate.ne_nil_of_not_partOf hnot
  rw [hfirst.remains_eq_nothing hdir hup hrest, hsecond.remains_eq_nothing hdir hup hrest]

open Resolver in
/-- An experiment without a base builds on nothing but itself. -/
theorem eq_of_buildsOn {source : ConfigSource} {declared : Entries String}
    {experiment link : String} (hbase : nextBase source declared experiment = .ok none)
    (h : BuildsOn source declared experiment link) : link = experiment := by
  rcases h.cases_head with heq | ⟨base, hnext, -⟩
  · exact heq.symm
  · rw [hbase] at hnext
    cases hnext

/-- The configuration of `siteWithInput`, with leftovers of another suite and at another time. -/
def siteWithLeftovers : Site Unit where
  tree := {
    entries :=
      [("config", .dir [("e", .dir
        [("in", .dir [("run_in.yaml", .file "format: yaml\ndata: {a: 1}\n".toUTF8 false)]),
          ("plan", .dir [("sweep.yaml",
            .file "branches: [{name: y}, {name: x}]\n".toUTF8 false)])])]),
       ("runs", .dir [("e", .dir
        [(".batch_id", .file "41".toUTF8 false), ("analysis", .dir []),
          ("outputs", .dir [("old", .dir [])])])])] }
  now := { text := "2026-03-01T00:00:00+00:00", stamp := "202603010000" }
  outside := ()

theorem sameConfiguration_siteWithLeftovers :
    SameConfiguration noPrograms usualLayout siteWithInput.tree siteWithLeftovers.tree := by
  have hrun : siteWithInput.tree.WellFormed ∧
      siteWithInput.tree.holds "config" = true ∧ siteWithLeftovers.tree.holds "config" = true ∧
      siteWithInput.tree.place "config" = ["config"] ∧ Path.Downward usualLayout.experiment ∧
      (Plan.load siteWithInput.tree usualLayout.planPath).toOption.map
        (fun plan => (plan.renderCommand, plan.baseExperiment)) = some (none, none) ∧
      (Resolver.nextBase (ConfigSource.ofTree siteWithInput.tree "config") [] "e").toOption =
        some none := by
    decide +kernel
  obtain ⟨hwell, hholds, hholds', hplace, hdown, hplan, hbase⟩ := hrun
  have hnode : siteWithLeftovers.tree.nodeAt? (siteWithInput.tree.place "config") =
      siteWithInput.tree.nodeAt? (siteWithInput.tree.place "config") := by
    rw [hplace]
    rfl
  refine sameConfiguration_of_configRoot hwell rfl (FileTree.holds_iff.1 hholds).1
    (FileTree.holds_iff.1 hholds').1 hnode hdown fun plan hload => ?_
  rw [hload] at hplan
  obtain ⟨hrender, hnone⟩ := Prod.mk.inj (Option.some.inj hplan)
  refine ⟨hrender, fun link hlink => ?_⟩
  rw [hnone] at hlink
  rw [eq_of_buildsOn (eq_ok_of_toOption hbase) hlink]
  exact hdown

/-- Leftovers of two kinds make no difference, and none of them is there afterwards. -/
theorem sameSuite_of_leftovers :
    ∃ s₁ s₂ : Site Unit, ∃ p : PreparedSuite,
      SameConfiguration noPrograms usualLayout siteWithInput.tree siteWithLeftovers.tree ∧
      (outcome (generateSuite noPrograms usualLayout {}) siteWithInput).2 = s₁ ∧
      (outcome (generateSuite noPrograms usualLayout {}) siteWithLeftovers).2 = s₂ ∧
      p.suite.runNames = ["y", "x"] ∧ Generate.SameSuite usualLayout s₁.tree s₂.tree ∧
      Generate.OnlySuite usualLayout p s₁.tree ∧ Generate.OnlySuite usualLayout p s₂.tree := by
  have hrun : (outcome (generateSuite noPrograms usualLayout {}) siteWithInput).1.isOk = true ∧
      (outcome (generateSuite noPrograms usualLayout {}) siteWithLeftovers).1.isOk = true ∧
      (prepareSuite noPrograms siteWithInput.tree usualLayout {}).toOption.map
        (·.suite.runNames) = some ["y", "x"] ∧
      usualLayout.experimentDir ≠ "" ∧ ".." ∉ Path.parts usualLayout.experimentDir := by
    decide +kernel
  obtain ⟨hok, hok', hnames, hdir, hup⟩ := hrun
  obtain ⟨p, hp, -, -, -, -, hsame⟩ := sameSuite_of_generateSuite noPrograms usualLayout {}
    sameConfiguration_siteWithLeftovers (outcome_of_isOk hok) (outcome_of_isOk hok')
  rw [hp] at hnames
  exact ⟨_, _, p, sameConfiguration_siteWithLeftovers, rfl, rfl, Option.some.inj hnames,
    hsame hdir hup⟩

/-- The experiment `e`, by a path through another one that has not been generated. -/
def detourLayout : Layout := ⟨"x/../e", "config", "runs", "logs"⟩

/-- A plan for that path, with a batch that was submitted before or without one. -/
def siteBehindDetour (batch : Entries Node) : Site Unit where
  tree := {
    entries :=
      [("config", .dir
        [("e", .dir [("plan", .dir [("sweep.yaml", .file "\x7b\x7d\n".toUTF8 false)])]),
          ("x", .dir [])]),
       ("runs", .dir [("e", .dir batch)])] }
  outside := ()

/-- Two sources in which an experiment has neither a base nor files do not differ for it. -/
theorem alike_of_bare {source source' : ConfigSource} {declared : Entries String}
    {experiment : String} (hnext : Resolver.nextBase source declared experiment = .ok none)
    (hbase : source'.base? experiment = source.base? experiment)
    (hnames : source.fileNames experiment = .ok []) (hnames' : source'.fileNames experiment = .ok [])
    (hload : source'.load experiment criticalParameterFile =
      source.load experiment criticalParameterFile) :
    Resolver.Alike source source' declared experiment := by
  refine ⟨fun link hlink => ?_, fun link hlink => ?_, fun link file hlink hfile => ?_⟩ <;>
    obtain rfl := eq_of_buildsOn hnext hlink
  · exact hbase
  · rw [hnames, hnames']
  · rcases hfile with rfl | ⟨other, own, hother, hown, hmem⟩
    · exact hload
    · rw [eq_of_buildsOn hnext hother, hnames] at hown
      cases hown
      cases hmem

/-- A site behind the detour, with the batch of an earlier suite. -/
def oldBehindDetour : Site Unit := siteBehindDetour [(".batch_id", .file "41".toUTF8 false)]

/-- A site behind the detour without one. -/
def freshBehindDetour : Site Unit := siteBehindDetour []

theorem sameConfiguration_behindDetour :
    SameConfiguration noPrograms detourLayout oldBehindDetour.tree freshBehindDetour.tree := by
  have hplans : (oldBehindDetour.tree.readText detourLayout.planPath).toOption =
        some "\x7b\x7d\n" ∧
      (freshBehindDetour.tree.readText detourLayout.planPath).toOption = some "\x7b\x7d\n" ∧
      (Plan.load oldBehindDetour.tree detourLayout.planPath).toOption.map
        (fun plan => (plan.renderCommand, plan.baseExperiment)) = some (none, none) := by
    decide +kernel
  have hsources : ∀ t ∈ [oldBehindDetour.tree, freshBehindDetour.tree],
      (ConfigSource.baseIn t "config" "x/../e").toOption = some none ∧
      (ConfigSource.fileNamesIn t "config" "x/../e").toOption = some [] ∧
      (ConfigSource.loadIn t "config" "x/../e" criticalParameterFile).toOption.any
        Option.isNone = true := by
    decide +kernel
  obtain ⟨hread, hread', hplan⟩ := hplans
  obtain ⟨hbase, hnames, hload⟩ := hsources oldBehindDetour.tree (by simp)
  obtain ⟨hbase', hnames', hload'⟩ := hsources freshBehindDetour.tree (by simp)
  obtain ⟨found, hload, hnone⟩ := ok_of_any hload
  obtain ⟨found', hload', hnone'⟩ := ok_of_any hload'
  refine ⟨rfl, ?_, fun plan hplan' => ?_, fun plan program arguments hplan' hrender => ?_⟩
  · rw [eq_ok_of_toOption hread, eq_ok_of_toOption hread']
  · rw [hplan'] at hplan
    obtain ⟨-, hdeclared⟩ := Prod.mk.inj (Option.some.inj hplan)
    rw [hdeclared]
    refine alike_of_bare (eq_ok_of_toOption hbase)
      ((eq_ok_of_toOption hbase').trans (eq_ok_of_toOption hbase).symm)
      (eq_ok_of_toOption hnames) (eq_ok_of_toOption hnames') ?_
    rw [Option.isNone_iff_eq_none] at hnone hnone'
    exact (hload'.trans (by rw [hnone', hnone])).trans hload.symm
  · rw [hplan'] at hplan
    rw [(Prod.mk.inj (Option.some.inj hplan)).1] at hrender
    cases hrender

/-- Behind the detour the batch of an earlier suite survives. -/
theorem not_sameSuite_of_detour :
    ¬ ∀ (s₁ s₁' s₂ s₂' : Site Unit) (g₁ g₂ : GeneratedSuite),
      SameConfiguration noPrograms detourLayout s₁.tree s₂.tree →
      outcome (generateSuite noPrograms detourLayout {}) s₁ = (.ok g₁, s₁') →
      outcome (generateSuite noPrograms detourLayout {}) s₂ = (.ok g₂, s₂') →
        Generate.SameSuite detourLayout s₁'.tree s₂'.tree := by
  let after := fun s : Site Unit => (outcome (generateSuite noPrograms detourLayout {}) s).2.tree
  have hrun : (outcome (generateSuite noPrograms detourLayout {}) oldBehindDetour).1.isOk = true ∧
      (outcome (generateSuite noPrograms detourLayout {}) freshBehindDetour).1.isOk = true ∧
      (after oldBehindDetour).place detourLayout.experimentDir = ["runs", "e"] ∧
      (after freshBehindDetour).place detourLayout.experimentDir = ["runs", "e"] ∧
      ((after oldBehindDetour).nodeAt? (["runs", "e"] ++ [".batch_id"])).isSome = true ∧
      ((after freshBehindDetour).nodeAt? (["runs", "e"] ++ [".batch_id"])).isNone = true := by
    decide +kernel
  obtain ⟨hok, hok', hplace, hplace', hthere, hgone⟩ := hrun
  intro hclaim
  have hsame : (after freshBehindDetour).sight
        ((after freshBehindDetour).place detourLayout.experimentDir ++ [".batch_id"]) =
      (after oldBehindDetour).sight
        ((after oldBehindDetour).place detourLayout.experimentDir ++ [".batch_id"]) :=
    hclaim oldBehindDetour _ freshBehindDetour _ _ _ sameConfiguration_behindDetour
      (outcome_of_isOk hok) (outcome_of_isOk hok') _ (by decide)
  rw [hplace, hplace', FileTree.sight_eq_nothing_iff.2 (Option.isNone_iff_eq_none.1 hgone)] at hsame
  rw [FileTree.sight_eq_nothing_iff.1 hsame.symm] at hthere
  cases hthere

end ParamSweep
