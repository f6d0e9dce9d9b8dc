import Mathlib
import ParamSweep.Proofs.OutputDiversity
import ParamSweep.Proofs.ProperData
import ParamSweep.Proofs.RereadRecords

/-!
When the runs of a suite are said to share their configuration.

Generation records a digest of the documents of every run, and the check of the parameter files
compares the digests that it finds in the record. The text that is digested is unambiguous
(`Value.compact_inj`), so as long as no two of the digested texts have one digest, runs with one
digest have the same documents. But the record has to be read first, and parameters that nest too
deeply are written and not read back: then the check reports that instead
(`shared_iff_of_generateSuite`).
-/

namespace ParamSweep

/-! ### What is digested of a run -/

theorem Document.proper_toValue {doc : Document} (h : doc.data.Proper) : doc.toValue.Proper := by
  refine Value.proper_record (List.forall_mem_cons.2 ⟨?_, by simpa using h⟩)
  cases doc.format with
  | none => exact .null
  | some format => exact .str format

theorem Document.toValue_injective : Function.Injective Document.toValue := by
  rintro ⟨format, data⟩ ⟨format', data'⟩ h
  have hformat := congrArg (·.get? "format") h
  have hdata := congrArg (·.get? "data") h
  simp [toValue, Value.record, Entries.ofList, Value.get?, Entries.find?_insert] at hformat hdata
  obtain rfl : format = format' := by
    cases format <;> cases format' <;> simp [Value.ofOption] at hformat ⊢
    exact hformat
  rw [hdata]

theorem proper_configsValue {configs : Entries Document} (hascending : configs.Ascending)
    (hproper : Compile.ProperDocuments configs) : (configsValue configs).Proper := by
  refine .mapping ?_ fun p hp => ?_
  · rw [Entries.Ascending, Entries.keys, List.map_map]
    exact hascending
  · obtain ⟨q, hq, rfl⟩ := List.mem_map.1 hp
    exact Document.proper_toValue (hproper q hq)

theorem configsValue_injective : Function.Injective configsValue := by
  intro configs configs' h
  refine List.map_injective_iff.2 ?_ (Value.mapping.inj h)
  rintro ⟨file, doc⟩ ⟨file', doc'⟩ hp
  obtain ⟨rfl, hdoc⟩ := Prod.mk.inj hp
  rw [Document.toValue_injective hdoc]

/-- The bytes that the documents of a run are digested from. -/
def Run.configBytes (run : Run) : List UInt8 :=
  Digest.bytesOf (configsValue run.configs).compact

/-- Two runs have the same files, in the same formats and with the same data. -/
structure Run.SameConfigs (a b : Run) : Prop where
  files : ∀ file, a.configs.contains file = b.configs.contains file
  documents : ∀ file doc doc', a.configs.find? file = some doc → b.configs.find? file = some doc' →
    doc.format = doc'.format ∧ doc.data.SameData doc'.data

namespace CompiledSuite.Proper

variable {s : CompiledSuite} {a b : Run}

theorem sameConfigs_iff (h : s.Proper) (ha : a ∈ s.runs) (hb : b ∈ s.runs) :
    a.SameConfigs b ↔ a.configs = b.configs := by
  have hdata : ∀ {run}, run ∈ s.runs → ∀ {file doc}, run.configs.find? file = some doc →
      doc.data.Proper := fun hrun _ _ hdoc => h.configs _ hrun _ (Entries.mem_of_find? hdoc)
  constructor
  · intro hsame
    refine (h.ascending a ha).ext_of_common (h.ascending b hb) hsame.files
      fun file doc doc' hdoc hdoc' => ?_
    obtain ⟨hformat, hsameData⟩ := hsame.documents file doc doc' hdoc hdoc'
    have heq := (Value.sameData_iff (hdata ha hdoc) (hdata hb hdoc')).1 hsameData
    cases doc
    cases doc'
    exact congrArg₂ Document.mk hformat heq
  · intro heq
    refine ⟨fun file => by rw [heq], fun file doc doc' hdoc hdoc' => ?_⟩
    rw [heq, hdoc', Option.some_inj] at hdoc
    subst hdoc
    exact ⟨rfl, (hdata hb hdoc').sameData_self⟩

/-- The bytes determine the documents. -/
theorem configBytes_eq_iff (h : s.Proper) (ha : a ∈ s.runs) (hb : b ∈ s.runs) :
    a.configBytes = b.configBytes ↔ a.SameConfigs b := by
  rw [h.sameConfigs_iff ha hb]
  refine ⟨fun heq => configsValue_injective ?_, fun heq => by rw [Run.configBytes, heq]; rfl⟩
  exact Value.compact_inj (proper_configsValue (h.ascending a ha) (h.configs a ha))
    (proper_configsValue (h.ascending b hb) (h.configs b hb)) (Integrity.bytesOf_injective heq)

end CompiledSuite.Proper

/-! ### The record -/

theorem SuiteRecord.load_of_readText {t : FileTree} {path text : String}
    (h : t.readText path = .ok text) :
    load t path = (ofText? text).elim (.error ("suite record " ++ path)) .ok := by
  obtain ⟨bytes, hbytes, hread⟩ := except_bind_ok h
  cases hutf : Text.utf8? bytes with
  | none => simp [hutf] at hread
  | some text' =>
    simp only [hutf, Except.ok.injEq] at hread
    simp only [load, hbytes, hutf, hread, Option.bind_some]
    cases ofText? text <;> rfl

/-- A record that stands as it was written is loaded, unless the parameters of a run cannot be
read. -/
theorem SuiteRecord.load_cases {t : FileTree} {path renderer : String} {s : CompiledSuite}
    {now : Moment} (hs : s.Proper)
    (htext : t.readText path = .ok (Generate.suiteRecord s renderer now).pretty) :
    ((∀ run ∈ s.runs, run.rereads = true) ∧
        ∃ r, load t path = .ok r ∧ List.Forall₂ RecordedRun.Records s.runs r.runs) ∨
      (∃ run ∈ s.runs, run.rereads = false) ∧ load t path = .error ("suite record " ++ path) := by
  have hload := load_of_readText htext
  have hread := leaves_read? [] renderer now hs.rebuild hs.parameters
  rw [List.append_nil] at hread
  rw [ofText?, Value.pretty, String.toList_ofList] at hload
  rcases hread with ⟨hreads, r, hr, hread⟩ | ⟨hreads, hread⟩
  · rw [hread] at hload
    exact .inl ⟨List.all_eq_true.1 hreads, r, hload, hr⟩
  · rw [hread] at hload
    exact .inr ⟨by simpa using hreads, hload⟩

/-! ### A list in many lists -/

/-- The value of a YAML text that is given by its characters. -/
def Yaml.readChars (path : String) (cs : List Char) : Except Error Value :=
  let tokens :=
    if cs.all isPrintable then Lexer.run (cs.length + 2) { cursor := Cursor.ofText cs } else none
  ((tokens.bind Node.ofTokens?).bind fun n => n.elim (some .null) Tree.ofNode?).elim
    (.error (.invalidYaml path)) fun t =>
      if t.isNull then .ok (.mapping [])
      else t.toValue?.elim (.error (.invalidJson .unreadable)) .ok

theorem Yaml.read_ofList (path : String) (cs : List Char) :
    read path (String.ofList cs) = readChars path cs := by
  rw [read, tree?, tokens, String.toList_ofList, readChars]
  cases (if cs.all isPrintable then Lexer.run (cs.length + 2) { cursor := Cursor.ofText cs }
    else none) with
  | none => rfl
  | some ts =>
    simp only [Option.bind_eq_bind, Option.bind_some]
    rcases Node.ofTokens? ts with _ | _ | n
    · rfl
    · rfl
    · simp only [Option.bind_some, Option.elim_some]
      cases Tree.ofNode? n with
      | none => rfl
      | some t =>
        simp only [Option.elim_some]
        cases t.toValue? <;> rfl

theorem node_siteWithPlan (plan : String) :
    (siteWithPlan plan).tree.node usualLayout.planPath = .ok (.file plan.toUTF8 false) := by
  have hpath : FileTree.pathFault? usualLayout.planPath = none ∧
      Path.isAbsolute usualLayout.planPath = false ∧
      usualLayout.planPath.endsWith "/" = false ∧
      Path.parts usualLayout.planPath = ["config", "e", "plan", "sweep.yaml"] ∧
      ∀ part ∈ ["config", "e", "plan", "sweep.yaml"], part.utf8ByteSize ≤ FileTree.maxName := by
    decide +kernel
  obtain ⟨hfault, habsolute, hslash, hparts, hsize⟩ := hpath
  simp only [List.forall_mem_cons, ← not_lt] at hsize
  obtain ⟨h₁, h₂, h₃, h₄, -⟩ := hsize
  simp [FileTree.node, FileTree.resolve, FileTree.start, FileTree.follow, FileTree.nodeAt?,
    Node.nodeAt?, Entries.find?, siteWithPlan, hfault, hparts, hslash, habsolute, h₁, h₂, h₃, h₄]

/-- The text of a plan of two branches with a parameter that is a zero in so many lists. -/
def listsText (depth : ℕ) : List Char :=
  "branches: [{name: x}, {name: y}]\nderived_parameters:\n  p:\n    ".toList ++
    (List.replicate depth ['-', ' ']).flatten ++ ['0', '\n']

/-- The experiment `e` with that plan. -/
def listsSite (depth : ℕ) : Site Unit := siteWithPlan (String.ofList (listsText depth))

/-- Whether a plan compiles to two runs without files and a suite is generated of them, and whether
their parameters can be read back. -/
def generatesBare (site : Site Unit) (reads : Bool) (plan : Plan) : Bool :=
  plan.renderCommand.isNone &&
    (outcome (compileSuite (ConfigSource.ofTree site.tree "config") "e" plan {}) {}).1.toOption.any
      fun suite => suite.runs.length == 2 &&
        (suite.runs.all fun run => run.configs.isEmpty && run.rereads == reads) &&
        (outcome (writeSuite usualLayout plan suite .structured) site).1.isOk

theorem compileExperiment_of_parts {t : FileTree} {l : Layout} {o : CompileOptions} {plan : Plan}
    {suite : CompiledSuite} (hfile : t.isFile l.planPath = true)
    (hplan : Plan.load t l.planPath = .ok plan)
    (hsuite : (outcome (compileSuite (ConfigSource.ofTree t l.configRoot) l.experiment plan o)
      {}).1 = .ok suite) : compileExperiment t l o = .ok (plan, suite) := by
  rw [compileExperiment, hfile, hplan]
  exact congrArg (·.bind fun suite => .ok (plan, suite)) hsuite

theorem generated_lists {depth : ℕ} {reads : Bool}
    (h : (Yaml.readChars usualLayout.planPath (listsText depth) >>=
      Plan.ofValue (some usualLayout.planPath)).toOption.any
        (generatesBare (listsSite depth) reads) = true) :
    ∃ plan suite g s',
      compileExperiment (listsSite depth).tree usualLayout {} = .ok (plan, suite) ∧
      outcome (generateSuite noPrograms usualLayout {}) (listsSite depth) = (.ok g, s') ∧
      suite.runs.length = 2 ∧ ∀ run ∈ suite.runs, run.configs = [] ∧ run.rereads = reads := by
  obtain ⟨plan, hplan, hbare⟩ := ok_of_any h
  rw [generatesBare, Bool.and_eq_true, Option.isNone_iff_eq_none] at hbare
  obtain ⟨hrenderer, hbare⟩ := hbare
  obtain ⟨suite, hsuite, hbare⟩ := ok_of_any hbare
  simp only [Bool.and_eq_true, beq_iff_eq, List.all_eq_true, List.isEmpty_iff] at hbare
  obtain ⟨⟨hlength, hruns⟩, hok⟩ := hbare
  have hnode : (listsSite depth).tree.node usualLayout.planPath =
      .ok (.file (String.ofList (listsText depth)).toUTF8 false) := node_siteWithPlan _
  have htext : (listsSite depth).tree.readText usualLayout.planPath =
      .ok (String.ofList (listsText depth)) := by
    rw [FileTree.readText, FileTree.readBytes, hnode, except_ok_bind, except_ok_bind,
      Text.utf8?_toUTF8]
  have hcompiled : compileExperiment (listsSite depth).tree usualLayout {} =
      .ok (plan, suite) := by
    refine compileExperiment_of_parts ?_ ?_ hsuite
    · rw [FileTree.isFile, hnode]
      rfl
    · rw [Plan.load, htext, mapError_of_ok, except_ok_bind, Plan.ofFileText, Yaml.read_ofList,
        hplan]
  have hgenerated : outcome (generateSuite noPrograms usualLayout {}) (listsSite depth) =
      outcome (writeSuite usualLayout plan suite .structured) (listsSite depth) := by
    rw [generateSuite, outcome_bind, Action.outcome_tree]
    simp only
    rw [outcome_bind, Action.outcome_ofExcept, hcompiled]
    simp only
    rw [outcome_bind, Action.outcome_ofCause, hrenderer]
    rfl
  exact ⟨plan, suite, _, _, hcompiled, hgenerated.trans (outcome_of_isOk hok), hlength, hruns⟩

/-- Runs without files have the same documents, and all that is digested of them is one text. -/
theorem sameConfigs_of_bare {s : CompiledSuite} (h : ∀ run ∈ s.runs, run.configs = []) :
    (∀ a ∈ s.runs, ∀ b ∈ s.runs, a.SameConfigs b) ∧
      Set.InjOn Digest.sha256 {bytes | ∃ run ∈ s.runs, run.configBytes = bytes} := by
  refine ⟨fun a ha b hb => ⟨fun file => ?_, fun file doc doc' hdoc _ => ?_⟩, ?_⟩
  · rw [h a ha, h b hb]
  · rw [h a ha] at hdoc
    cases hdoc
  · rintro _ ⟨a, ha, rfl⟩ _ ⟨b, hb, rfl⟩ -
    rw [Run.configBytes, Run.configBytes, h a ha, h b hb]

/-! ### The check -/

namespace Integrity

variable {τ : Type} {t : FileTree} {l : Layout} {sampled : List SampledRun} {n : ℕ}

/-- The issue that the runs share one configuration. -/
def sharedLine (n : ℕ) : String :=
  "all " ++ toString n ++ " runs share one config digest; parameters were not applied per run"

theorem sharedLine_inj {m : ℕ} : sharedLine n = sharedLine m ↔ n = m := by
  have htext : ∀ n, (sharedLine n).toList = "all ".toList ++ ((toString n).toList ++
      ' ' :: "runs share one config digest; parameters were not applied per run".toList) := by
    intro n
    simp [sharedLine]
  refine ⟨fun h => ?_, fun h => h ▸ rfl⟩
  rw [← String.toList_inj, htext, htext] at h
  exact (counted_inj h).1

theorem head_sharedLine (n : ℕ) : (sharedLine n).toList.head? = some 'a' := by
  simp [sharedLine]

/-- What the check has to say of a record. -/
def recordIssues : Except String SuiteRecord → List String
  | .ok r =>
    if 1 < r.runs.length && (distinct (r.runs.filterMap RecordedRun.configDigest)).length == 1 then
      [sharedLine r.runs.length]
    else []
  | .error text => [text]

/-- All other issues are on missing files. -/
theorem mem_issues_iff {record : Except String SuiteRecord} {line : String}
    (hline : line.toList.head? ≠ some 'm') :
    line ∈ (checkParameterFiles t l sampled record).issues ↔ line ∈ recordIssues record := by
  have hissues : ∃ bare : List SampledRun, (checkParameterFiles t l sampled record).issues =
      (bare.map fun r => "missing generated config files for run " ++ r.name) ++
        recordIssues record := by
    cases record <;> exact ⟨_, rfl⟩
  obtain ⟨bare, hissues⟩ := hissues
  rw [hissues, List.mem_append, or_iff_right]
  intro hmissing
  obtain ⟨r, -, rfl⟩ := List.mem_map.1 hmissing
  simp at hline

theorem sharedLine_mem_recordIssues_iff {r : SuiteRecord} :
    sharedLine n ∈ recordIssues (.ok r) ↔ n = r.runs.length ∧ 1 < r.runs.length ∧
      (distinct (r.runs.filterMap RecordedRun.configDigest)).length = 1 := by
  rw [recordIssues]
  split_ifs with h
  · rw [Bool.and_eq_true, decide_eq_true_eq, beq_iff_eq] at h
    rw [List.mem_singleton, sharedLine_inj, and_iff_left h]
  · rw [Bool.and_eq_true, decide_eq_true_eq, beq_iff_eq] at h
    exact iff_of_false List.not_mem_nil fun hshared => h hshared.2

theorem digests_of_records {runs : List Run} {rs : List RecordedRun}
    (h : List.Forall₂ RecordedRun.Records runs rs) :
    rs.filterMap RecordedRun.configDigest =
      runs.map fun run => Digest.sha256 run.configBytes := by
  induction h with
  | nil => rfl
  | cons hfirst _ ih => rw [List.filterMap_cons, hfirst.2, List.map_cons, ih]; rfl

/-- What is reported on a suite whose record stands as it was written: that the runs share their
documents, that the record cannot be read, or nothing. -/
theorem issues_of_recorded {path renderer : String} {s : CompiledSuite} {now : Moment}
    (hs : s.Proper) (hmany : 2 ≤ s.runs.length)
    (hdigest : Set.InjOn Digest.sha256 {bytes | ∃ run ∈ s.runs, run.configBytes = bytes})
    (htext : t.readText path = .ok (Generate.suiteRecord s renderer now).pretty) :
    (∀ n, sharedLine n ∈ (checkParameterFiles t l sampled (SuiteRecord.load t path)).issues ↔
      n = s.runs.length ∧ (∀ run ∈ s.runs, run.rereads = true) ∧
        ∀ a ∈ s.runs, ∀ b ∈ s.runs, a.SameConfigs b) ∧
    ("suite record " ++ path ∈
        (checkParameterFiles t l sampled (SuiteRecord.load t path)).issues ↔
      ∃ run ∈ s.runs, run.rereads = false) := by
  have hshared : ∀ n, (sharedLine n).toList.head? ≠ some 'm' := fun n => by simp [head_sharedLine]
  have hunread : ("suite record " ++ path).toList.head? = some 's' := by simp
  have hapart : ∀ n, sharedLine n ≠ "suite record " ++ path := by
    intro n heq
    have hhead := head_sharedLine n
    rw [heq, hunread] at hhead
    cases hhead
  have hsame : (∀ a ∈ s.runs, ∀ b ∈ s.runs, Digest.sha256 a.configBytes =
      Digest.sha256 b.configBytes) ↔ ∀ a ∈ s.runs, ∀ b ∈ s.runs, a.SameConfigs b := by
    refine forall₂_congr fun a ha => forall₂_congr fun b hb => ?_
    rw [hdigest.eq_iff ⟨a, ha, rfl⟩ ⟨b, hb, rfl⟩, hs.configBytes_eq_iff ha hb]
  simp only [mem_issues_iff (hshared _)]
  rw [mem_issues_iff (by simp)]
  rcases SuiteRecord.load_cases hs htext with
    ⟨hreads, r, hload, hr⟩ | ⟨⟨run, hrun, hreads⟩, hload⟩
  case inl =>
    have hone : (distinct (r.runs.filterMap RecordedRun.configDigest)).length = 1 ↔
        ∀ a ∈ s.runs, ∀ b ∈ s.runs, a.SameConfigs b := by
      have hne : s.runs ≠ [] := by
        rintro hnil
        rw [hnil] at hmany
        cases hmany
      rw [digests_of_records hr, length_distinct_eq_one_iff, ← hsame]
      simp only [ne_eq, List.map_eq_nil_iff, hne, not_false_eq_true, true_and,
        List.forall_mem_map]
    rw [hload]
    refine ⟨fun n => ?_, iff_of_false (fun h => ?_) fun ⟨run, hrun, hnot⟩ => ?_⟩
    · rw [sharedLine_mem_recordIssues_iff, hone, ← hr.length_eq]
      exact and_congr_right fun _ =>
        ⟨fun h => ⟨hreads, h.2⟩, fun h => ⟨hmany, h.2⟩⟩
    · rw [recordIssues] at h
      split_ifs at h
      · exact hapart _ (List.mem_singleton.1 h).symm
      · cases h
    · rw [hreads run hrun] at hnot
      cases hnot
  case inr =>
    rw [hload]
    refine ⟨fun n => iff_of_false (fun h => ?_) fun h => ?_,
      iff_of_true (List.mem_singleton.2 rfl) ⟨run, hrun, hreads⟩⟩
    · exact hapart n (List.mem_singleton.1 h)
    · rw [h.2.1 run hrun] at hreads
      cases hreads

/-- What generation records is the compiled suite. -/
theorem recorded_of_generateSuite {programs : Programs} {o : CompileOptions} {s s' : Site τ}
    {g : GeneratedSuite} (h : outcome (generateSuite programs l o) s = (.ok g, s')) :
    ∃ plan suite renderer, compileExperiment s.tree l o = .ok (plan, suite) ∧
      s'.tree.readText l.suiteRecordPath =
        .ok (Generate.suiteRecord suite renderer s.now).pretty := by
  obtain ⟨p, hp, hplaced⟩ := generateSuite_ok h
  obtain ⟨plan, hcompiled, -⟩ := prepareSuite_ok hp
  exact ⟨plan, p.suite, p.renderer.name, hcompiled, (placeSuite_ok hplaced).2.2.2.2⟩

/-- Of a generated suite of two or more runs, whose record stands as it was written, it is reported
that the runs share one configuration exactly if the parameters of all runs can be read back from
the record and the documents of all runs are the same. If the parameters of some run cannot be read
back, it is reported that the record cannot be read. The text that is digested tells all values
apart. -/
theorem shared_iff_of_generateSuite {programs : Programs} {o : CompileOptions} {s s' : Site τ}
    {g : GeneratedSuite} {plan : Plan} {suite : CompiledSuite}
    (hcompiled : compileExperiment s.tree l o = .ok (plan, suite))
    (hgenerated : outcome (generateSuite programs l o) s = (.ok g, s'))
    (hmany : 2 ≤ suite.runs.length)
    (hdigest : Set.InjOn Digest.sha256 {bytes | ∃ run ∈ suite.runs, run.configBytes = bytes})
    (hrecord : t.readBytes l.suiteRecordPath = s'.tree.readBytes l.suiteRecordPath)
    (sampled : List SampledRun) :
    (∀ n, sharedLine n ∈ (checkParameterFiles t l sampled
          (SuiteRecord.load t l.suiteRecordPath)).issues ↔
      n = suite.runs.length ∧ (∀ run ∈ suite.runs, run.rereads = true) ∧
        ∀ a ∈ suite.runs, ∀ b ∈ suite.runs, a.SameConfigs b) ∧
    ("suite record " ++ l.suiteRecordPath ∈ (checkParameterFiles t l sampled
          (SuiteRecord.load t l.suiteRecordPath)).issues ↔
      ∃ run ∈ suite.runs, run.rereads = false) ∧
    ∀ v w : Value, v.Proper → w.Proper → (v.compact = w.compact ↔ v.SameData w) := by
  obtain ⟨_, _, renderer, hcompiled', htext⟩ := recorded_of_generateSuite hgenerated
  cases hcompiled.symm.trans hcompiled'
  rw [FileTree.readText, ← hrecord, ← FileTree.readText] at htext
  obtain ⟨hshared, hunread⟩ :=
    issues_of_recorded (proper_of_compileExperiment hcompiled) hmany hdigest htext
  exact ⟨hshared, hunread, fun _ _ hv hw => Value.compact_eq_iff hv hw⟩

/-- Two runs without files share their configuration. -/
theorem shared_of_shallow :
    ∃ s' : Site Unit,
      s' = (outcome (generateSuite noPrograms usualLayout {}) (listsSite 1)).2 ∧
      sharedLine 2 ∈ (checkParameterFiles s'.tree usualLayout []
        (SuiteRecord.load s'.tree usualLayout.suiteRecordPath)).issues := by
  have hread : (Yaml.readChars usualLayout.planPath (listsText 1) >>=
      Plan.ofValue (some usualLayout.planPath)).toOption.any
        (generatesBare (listsSite 1) true) = true := by
    decide +kernel
  obtain ⟨plan, suite, g, s', hcompiled, hgenerated, hlength, hbare⟩ := generated_lists hread
  obtain ⟨hsame, hdigest⟩ := sameConfigs_of_bare fun run hrun => (hbare run hrun).1
  have hshared := (shared_iff_of_generateSuite hcompiled hgenerated hlength.ge hdigest rfl []).1 2
  exact ⟨s', by rw [hgenerated],
    hshared.2 ⟨hlength.symm, fun run hrun => (hbare run hrun).2, hsame⟩⟩

/-- Two runs without files and a parameter that is nested too deeply have the same documents, but
their record cannot be read, and it is not reported that they share them. -/
theorem not_shared_of_deep :
    ¬ ∀ (programs : Programs) (l : Layout) (o : CompileOptions) (s s' : Site Unit)
        (g : GeneratedSuite) (plan : Plan) (suite : CompiledSuite) (sampled : List SampledRun),
      compileExperiment s.tree l o = .ok (plan, suite) →
      outcome (generateSuite programs l o) s = (.ok g, s') → 2 ≤ suite.runs.length →
      Set.InjOn Digest.sha256 {bytes | ∃ run ∈ suite.runs, run.configBytes = bytes} →
        (sharedLine suite.runs.length ∈ (checkParameterFiles s'.tree l sampled
            (SuiteRecord.load s'.tree l.suiteRecordPath)).issues ↔
          ∀ a ∈ suite.runs, ∀ b ∈ suite.runs, a.SameConfigs b) := by
  have hread : (Yaml.readChars usualLayout.planPath (listsText 125) >>=
      Plan.ofValue (some usualLayout.planPath)).toOption.any
        (generatesBare (listsSite 125) false) = true := by
    decide +kernel
  obtain ⟨plan, suite, g, s', hcompiled, hgenerated, hlength, hbare⟩ := generated_lists hread
  obtain ⟨hsame, hdigest⟩ := sameConfigs_of_bare fun run hrun => (hbare run hrun).1
  intro hclaim
  have hreported := (hclaim noPrograms usualLayout {} _ s' g plan suite [] hcompiled hgenerated
    hlength.ge hdigest).2 hsame
  obtain ⟨_, _, renderer, hcompiled', htext⟩ := recorded_of_generateSuite hgenerated
  cases hcompiled.symm.trans hcompiled'
  obtain ⟨-, hreads, -⟩ := ((issues_of_recorded (proper_of_compileExperiment hcompiled) hlength.ge
    hdigest htext).1 _).1 hreported
  obtain ⟨run, hrun⟩ := List.exists_mem_of_length_pos (hlength ▸ Nat.zero_lt_two)
  cases (hbare run hrun).2.symm.trans (hreads run hrun)

end Integrity

end ParamSweep
