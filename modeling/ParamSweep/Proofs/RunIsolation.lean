import Mathlib.Algebra.GroupWithZero.Nat
import ParamSweep.Proofs.ChangesBelow

/-!
The report on the health of a suite, run by run.

A successful analysis judges every run of the manifest by the tree as it is then. Every entry has
one of the four verdicts or none (`sum_count`), and it depends on the directory of its run alone:
what is changed below the directory of another run is not seen, unless that directory lies on the
way (`assess_of_changedBelow`).
-/

namespace ParamSweep

namespace SuiteHealth

variable {t t' : FileTree} {c : Criteria} {outputs : String} {names : List String}

theorem length_assessFrom (t : FileTree) (c : Criteria) (outputs : String) (first : Nat)
    (names : List String) : (assessFrom t c outputs first names).length = names.length := by
  rw [assessFrom_eq, List.length_map, List.length_zipIdx]

theorem getElem?_assessFrom (t : FileTree) (c : Criteria) (outputs : String) {i : Nat}
    {run : String} (h : names[i]? = some run) :
    (assessFrom t c outputs 1 names)[i]? = some (assess t c outputs (i + 1) run) := by
  rw [assessFrom_eq, List.getElem?_map, List.getElem?_zipIdx, h, Option.map_some, Option.map_some,
    Nat.add_comm]

theorem map_run_assessFrom (t : FileTree) (c : Criteria) (outputs : String) (first : Nat)
    (names : List String) : (assessFrom t c outputs first names).map RunHealth.run = names := by
  induction names generalizing first with
  | nil => rfl
  | cons run rest ih => rw [assessFrom, List.map_cons, ih]; rfl

/-- Every run has exactly one of the verdicts, or cannot be read. -/
theorem sum_count (s : SuiteHealth) :
    (HealthStatus.all.map fun status => s.count status).sum + s.unreadable = s.runs.length := by
  obtain ⟨experiment, runs⟩ := s
  induction runs with
  | nil => rfl
  | cons r rest ih =>
    simp only [count, unreadable, HealthStatus.all, List.map_cons, List.map_nil, List.sum_cons,
      List.sum_nil, List.countP_cons, List.length_cons] at ih ⊢
    rcases r.health? with _ | health
    · simp
      omega
    · rcases hstatus : health.status <;> simp [hstatus] <;> omega

theorem count_eq_length_filter (s : SuiteHealth) (status : HealthStatus) :
    s.count status =
      (s.runs.filter fun r => r.health?.map Health.status == some status).length := by
  rw [count, List.countP_eq_length_filter]
  refine congrArg List.length (List.filter_congr fun r _ => ?_)
  cases r.health? <;> rfl

theorem unreadable_eq_length_filter (s : SuiteHealth) :
    s.unreadable = (s.runs.filter fun r => r.loadError?.isSome).length := by
  rw [unreadable, List.countP_eq_length_filter]
  refine congrArg List.length (List.filter_congr fun r _ => ?_)
  rw [RunHealth.health?, RunHealth.loadError?]
  cases r.health <;> rfl

theorem perm_ranking (s : SuiteHealth) : s.ranking.Perm (s.runs.map RunHealth.run) :=
  (List.mergeSort_perm s.runs RunHealth.ranksBefore).map RunHealth.run

/-- A run is judged alike whatever happens below a place that the way to its directory keeps clear
of. -/
theorem assess_of_changedBelow {place : List String} {run : String}
    (h : FileTree.ChangedBelow place t t') (hwell : t.WellFormed) (hwell' : t'.WellFormed)
    (hclear : t.KeepsClear (Path.join outputs run) place) (task : Nat) :
    assess t' c outputs task run = assess t c outputs task run := by
  rw [assess, assess, Snapshot.load_of_changedBelow h hwell hwell' hclear]

end SuiteHealth

variable {τ : Type} {l : Layout} {outputs : String} {c : Criteria} {s s₁ : Site τ}

theorem Manifest.read_ok {t : FileTree} {names : List String}
    (h : Manifest.read t l = .ok names) :
    ∃ text, t.readText l.manifestPath = .ok text ∧ names = Manifest.parse text := by
  rw [Manifest.read, if_pos (holds_of_read h)] at h
  obtain ⟨text, htext, rfl⟩ := except_map_ok h
  exact ⟨text, mapError_ok htext, rfl⟩

theorem Manifest.read_of_changedBelow {place : List String} {t t' : FileTree}
    (h : FileTree.ChangedBelow place t t') (hclear : t.KeepsClear l.manifestPath place) :
    Manifest.read t' l = Manifest.read t l := by
  rw [Manifest.read, Manifest.read, FileTree.holds_of_changedBelow h hclear,
    FileTree.readText_of_changedBelow h hclear]

/-- Where the manifest is there and the report can be written, the analysis succeeds. -/
theorem outcome_analyzeSuite {names : List String} (hread : Manifest.read s.tree l = .ok names)
    (hwrite : ∀ text, ∃ written,
      outcome (Action.replaceText l.validationPath text) s = (.ok ⟨⟩, written)) :
    ∃ s₁, outcome (analyzeSuite l outputs c) s =
      (.ok ⟨l.experiment, SuiteHealth.assessFrom s.tree c outputs 1 names⟩, s₁) := by
  rw [analyzeSuite, outcome_bind, outcome_load_of_read hread]
  simp only
  rw [outcome_bind, Action.outcome_tree]
  simp only
  rw [outcome_bind, Action.outcome_now]
  simp only
  obtain ⟨written, hwritten⟩ := hwrite
    ((⟨l.experiment, SuiteHealth.assessFrom s.tree c outputs 1 names⟩ : SuiteHealth).toValue
      s.now).pretty
  rw [outcome_bind, hwritten]
  exact ⟨_, rfl⟩

open FileTree in
/-- A report that has been made has one entry for each name in the manifest, in order, each of them
a judgement of the run's own directory. Every entry is counted once, and every name is ranked once.
If anything is changed below the output directory of a run and nothing else, the analysis succeeds
again, and every run whose own directory is not reached through that place has the same entry. The
manifest and the report must not lie there either. -/
theorem report_of_analyzeSuite {report : SuiteHealth}
    (h : outcome (analyzeSuite l outputs c) s = (.ok report, s₁)) :
    ∃ names origin loaded,
      outcome (Manifest.load l) s = (.ok (names, origin), loaded) ∧
      (∃ text, loaded.tree.readText l.manifestPath = .ok text ∧ names = Manifest.parse text) ∧
      report.runs.length = names.length ∧
      (∀ (i : Nat) run, names[i]? = some run →
        report.runs[i]? = some (SuiteHealth.assess loaded.tree c outputs (i + 1) run)) ∧
      (HealthStatus.all.map fun status => report.count status).sum + report.unreadable =
        names.length ∧
      (∀ status, report.count status =
        (report.runs.filter fun r => r.health?.map Health.status == some status).length) ∧
      report.unreadable = (report.runs.filter fun r => r.loadError?.isSome).length ∧
      report.ranking.Perm names ∧
      ∀ other ∈ names, ∀ s' : Site τ,
        ChangedBelow (loaded.tree.place (Path.join outputs other)) loaded.tree s'.tree →
        loaded.tree.WellFormed → s'.tree.WellFormed →
        loaded.tree.KeepsClear l.manifestPath (loaded.tree.place (Path.join outputs other)) →
        loaded.tree.KeepsClear l.validationPath (loaded.tree.place (Path.join outputs other)) →
        ∃ report' s₁', outcome (analyzeSuite l outputs c) s' = (.ok report', s₁') ∧
          report'.runs.length = report.runs.length ∧
          ∀ (i : Nat) run, names[i]? = some run →
            loaded.tree.KeepsClear (Path.join outputs run)
              (loaded.tree.place (Path.join outputs other)) →
            report'.runs[i]? = report.runs[i]? := by
  obtain ⟨names, origin, loaded, written, hload, rfl, hwrite⟩ := analyzeSuite_ok h
  have hread := Manifest.load_ok hload
  refine ⟨names, origin, loaded, hload, Manifest.read_ok hread,
    SuiteHealth.length_assessFrom _ _ _ _ _,
    fun i run hrun => SuiteHealth.getElem?_assessFrom _ _ _ hrun, ?_,
    SuiteHealth.count_eq_length_filter _, SuiteHealth.unreadable_eq_length_filter _, ?_, ?_⟩
  · rw [SuiteHealth.sum_count, SuiteHealth.length_assessFrom]
  · have hranked := SuiteHealth.perm_ranking
      ⟨l.experiment, SuiteHealth.assessFrom loaded.tree c outputs 1 names⟩
    rwa [SuiteHealth.map_run_assessFrom] at hranked
  · intro other _ s' hchanged hwell hwell' hmanifest hvalidation
    have hread' : Manifest.read s'.tree l = .ok names := by
      rw [Manifest.read_of_changedBelow hchanged hmanifest, hread]
    obtain ⟨s₁', hagain⟩ := outcome_analyzeSuite hread'
      (Action.replaceText_of_changedBelow hchanged hvalidation hwrite)
    refine ⟨_, s₁', hagain, ?_, fun i run hrun hclear => ?_⟩
    · rw [SuiteHealth.length_assessFrom, SuiteHealth.length_assessFrom]
    · rw [SuiteHealth.getElem?_assessFrom _ _ _ hrun, SuiteHealth.getElem?_assessFrom _ _ _ hrun,
        SuiteHealth.assess_of_changedBelow hchanged hwell hwell' hclear]

theorem Layout.place_outputOf (t : FileTree) (l : Layout) {run : String} (h : Path.IsName run) :
    t.place (Path.join l.outputsDir run) = t.place l.experimentDir ++ ["outputs", run] := by
  rw [t.place_join_name _ h, Layout.outputsDir, t.place_join_name _ (by decide), List.append_assoc]
  rfl

/-- In the usual layout nothing lies in the way of a run that has a name of its own. -/
theorem keepsClear_of_outputsDir (t : FileTree) (l : Layout) {other : String}
    (hup : ".." ∉ Path.parts l.experimentDir) (hother : Path.IsName other) :
    t.KeepsClear l.manifestPath (t.place (Path.join l.outputsDir other)) ∧
      t.KeepsClear l.validationPath (t.place (Path.join l.outputsDir other)) ∧
      ∀ run, Path.IsName run → run ≠ other →
        t.KeepsClear (Path.join l.outputsDir run) (t.place (Path.join l.outputsDir other)) := by
  have hjoin : ∀ {dir name : String}, Path.IsName name → ".." ∉ Path.parts dir →
      ".." ∉ Path.parts (Path.join dir name) := by
    intro dir name hname hdir
    rw [Path.parts_join dir hname.isAbsolute, hname.parts, List.mem_append, not_or]
    exact ⟨hdir, fun hmem => hname.2.2.2.1 (List.mem_singleton.1 hmem).symm⟩
  have hanalysis : Path.IsName "analysis" := by decide
  have hvalidation : Path.IsName "validation.json" := by decide
  have houtputs : Path.IsName "outputs" := by decide
  rw [Layout.place_outputOf t l hother]
  refine ⟨FileTree.keepsClear_of_not_prefix (hjoin Layout.isName_manifestFile hup) ?_,
    FileTree.keepsClear_of_not_prefix (hjoin hvalidation (hjoin hanalysis hup)) ?_,
    fun run hrun hne => FileTree.keepsClear_of_not_prefix (hjoin hrun (hjoin houtputs hup)) ?_⟩
  · rw [Layout.place_manifestPath, List.prefix_append_right_inj]
    simp [manifestFile]
  · rw [Layout.validationPath, t.place_join_name _ hvalidation, Layout.analysisDir,
      t.place_join_name _ hanalysis, List.append_assoc, List.prefix_append_right_inj]
    simp
  · rw [Layout.place_outputOf t l hrun, List.prefix_append_right_inj]
    simp [Ne.symm hne]

/-- A site with a manifest and a tree of outputs. -/
def siteWithRuns (manifest : String) (outputs : Entries Node) : Site Unit where
  tree := {
    entries :=
      [("runs", .dir [("e", .dir
        [("outputs", .dir outputs), ("run_manifest.txt", .file manifest.toUTF8 false)])])] }
  outside := ()

/-- The same site with a file that is no snapshot in the directory of a run. -/
def Site.spoilt (s : Site Unit) (run : List String) : Site Unit :=
  { s with
    tree := s.tree.setAt (["runs", "e", "outputs"] ++ run ++ ["x.json"])
      (some (.file "oops".toUTF8 false)) }

theorem changedBelow_spoilt (s : Site Unit) {place run : List String}
    (h : place <+: ["runs", "e", "outputs"] ++ run) :
    FileTree.ChangedBelow place s.tree (s.spoilt run).tree := by
  refine FileTree.changedBelow_setAt (h.trans (List.prefix_append _ _)) (fun heq => ?_) _
  have hlength := h.length_le
  rw [← heq, List.length_append] at hlength
  simp only [List.length_singleton] at hlength
  omega

/-- A suite of two runs without output. -/
def quietSite : Site Unit := siteWithRuns "a\nb\n" [("a", .dir []), ("b", .dir [])]

/-- A file of the run `b` that cannot be read leaves the entry of the run `a` as it is. -/
theorem same_entry_of_spoilt_run :
    ∃ report s₁ report' s₁',
      outcome (analyzeSuite usualLayout usualLayout.outputsDir {}) quietSite = (.ok report, s₁) ∧
      outcome (analyzeSuite usualLayout usualLayout.outputsDir {}) (quietSite.spoilt ["b"]) =
        (.ok report', s₁') ∧
      report'.runs[0]? = report.runs[0]? := by
  have hcheck : ((outcome (analyzeSuite usualLayout usualLayout.outputsDir {})
        quietSite).1.toOption.any fun _ => true) ∧
      (Manifest.read quietSite.tree usualLayout).toOption = some ["a", "b"] ∧
      quietSite.tree.WellFormed ∧ (quietSite.spoilt ["b"]).tree.WellFormed ∧
      quietSite.tree.place (Path.join usualLayout.outputsDir "b") =
        ["runs", "e", "outputs", "b"] ∧
      ".." ∉ Path.parts usualLayout.experimentDir := by
    decide +kernel
  obtain ⟨hok, hread, hwell, hwell', hplace, hup⟩ := hcheck
  obtain ⟨report, hreport, -⟩ := ok_of_any hok
  have h : outcome (analyzeSuite usualLayout usualLayout.outputsDir {}) quietSite =
    (.ok report, _) := outcome_of_answer hreport
  obtain ⟨names, origin, loaded, hload, -, -, -, -, -, -, -, hisolated⟩ := report_of_analyzeSuite h
  obtain ⟨rfl, rfl, rfl⟩ : names = ["a", "b"] ∧ origin = .existing ∧ loaded = quietSite := by
    rw [outcome_load_of_read (eq_ok_of_toOption hread)] at hload
    cases hload
    exact ⟨rfl, rfl, rfl⟩
  obtain ⟨hmanifest, hvalidation, hruns⟩ :=
    keepsClear_of_outputsDir quietSite.tree usualLayout hup (by decide : Path.IsName "b")
  obtain ⟨report', s₁', hagain, -, hsame⟩ := hisolated "b" (by decide) (quietSite.spoilt ["b"])
    (changedBelow_spoilt quietSite (hplace ▸ List.prefix_rfl)) hwell hwell' hmanifest hvalidation
  exact ⟨report, _, report', s₁', h, hagain,
    hsame 0 "a" rfl (hruns "a" (by decide) (by decide))⟩

/-- A suite of two runs without output, the directory of the second below that of the first. -/
def nestedSite : Site Unit := siteWithRuns "a\na/b\n" [("a", .dir [("b", .dir [])])]

/-- What lies below the directory of the run `a` belongs to the run `a/b` as well: a file there
that cannot be read takes the entry of `a/b` with it. -/
theorem entry_changed_of_nested_run :
    ∃ report s₁ report' s₁',
      outcome (analyzeSuite usualLayout usualLayout.outputsDir {}) nestedSite = (.ok report, s₁) ∧
      outcome (analyzeSuite usualLayout usualLayout.outputsDir {}) (nestedSite.spoilt ["a", "b"]) =
        (.ok report', s₁') ∧
      report.runs.map RunHealth.run = ["a", "a/b"] ∧
      FileTree.ChangedBelow (nestedSite.tree.place (Path.join usualLayout.outputsDir "a"))
        nestedSite.tree (nestedSite.spoilt ["a", "b"]).tree ∧
      (report.runs[1]?.map fun r => r.loadError?.isSome) = some false ∧
      (report'.runs[1]?.map fun r => r.loadError?.isSome) = some true := by
  have hcheck : ((outcome (analyzeSuite usualLayout usualLayout.outputsDir {})
        nestedSite).1.toOption.any fun report =>
          report.runs.map RunHealth.run = ["a", "a/b"] ∧
          (report.runs[1]?.map fun r => r.loadError?.isSome) = some false) ∧
      ((outcome (analyzeSuite usualLayout usualLayout.outputsDir {})
        (nestedSite.spoilt ["a", "b"])).1.toOption.any fun report =>
          (report.runs[1]?.map fun r => r.loadError?.isSome) = some true) ∧
      nestedSite.tree.place (Path.join usualLayout.outputsDir "a") =
        ["runs", "e", "outputs", "a"] := by
    decide +kernel
  obtain ⟨hok, hok', hplace⟩ := hcheck
  obtain ⟨report, hreport, hentries⟩ := ok_of_any hok
  obtain ⟨report', hreport', hspoilt⟩ := ok_of_any hok'
  obtain ⟨hruns, hread⟩ := of_decide_eq_true hentries
  rw [hplace]
  exact ⟨report, _, report', _, outcome_of_answer hreport, outcome_of_answer hreport', hruns,
    changedBelow_spoilt nestedSite ⟨["b"], rfl⟩, hread, of_decide_eq_true hspoilt⟩

end ParamSweep
