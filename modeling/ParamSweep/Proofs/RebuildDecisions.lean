import ParamSweep.Proofs.Injection
import ParamSweep.Proofs.Resolution
import ParamSweep.Proofs.Tables

/-!
What it means for the runs that their program is not built anew.

The decision compares the compiled parameters of the suite with those of the root experiment before
anything is injected, takes a missing parameter for a null one, and looks at sweeps, targets and
overlays by their names. What it does not look at are constants and derived parameters, and sections
that are named like a compiled parameter. `Undisturbed` says what has to hold beyond the decision,
parameter by parameter.
-/

namespace ParamSweep

/-- The same value, or one that compares equal. -/
def Value.Same (a b : Value) : Prop := a = b ∨ a.agrees b = true

theorem Value.Same.isMapping {a b : Value} (h : a.Same b) : a.isMapping = b.isMapping := by
  rcases h with rfl | h
  · rfl
  · cases a <;> cases b <;> first | rfl | simp [Value.agrees] at h

theorem Value.eq_null_of_agrees {a : Value} (h : a.agrees .null = true) : a = .null := by
  cases a <;> first | rfl | simp [Value.agrees] at h

namespace Compile

variable {plan : Plan} {parameters : Entries Value} {configs configs' : Entries Document}
variable {file key : String}

/-! ### One entry -/

/-- What must hold of an entry for a run to have it as the root has it, where the root and the suite
have it as given.

An entry that is missing in both must not become a section. A scalar must not be set to anything
else. An entry that the suite lacks can come up to a null of the root only as a section that is then
replaced as a whole, and a mapping only by whatever it turns into. -/
def Undisturbed (plan : Plan) (parameters : Entries Value) (file key : String) :
    (root own : Option Value) → Prop
  | none, none => ¬ Fills parameters file key plan.parameterTargets
  | none, some _ => False
  | some root, none =>
    Fills parameters file key plan.parameterTargets ∧
      ∃ v, parameters.last? key = some v ∧ root.Same v
  | some root, some own =>
    if own.isMapping then
      Option.Rel Value.Same (some root) (entryAfter plan parameters file key (some own))
    else ∀ v, parameters.last? key = some v → root.Same v

theorem replaceKey_of_not_isMapping (parameter : String) (value : Value) {entry : Value}
    (h : entry.isMapping = false) : replaceKey parameter value entry = entry := by
  cases entry <;> first | rfl | cases h

/-- Of the parameters set one after the other, the last one of the entry's own name counts. -/
theorem same_foldl_iff {root : Value} (hroot : root.isMapping = false) (free : Entries Value)
    (entry : Value) :
    root.Same (free.foldl (replacedIn key) entry) ↔
      root.Same ((free.last? key).getD entry) := by
  induction free generalizing entry with
  | nil => rfl
  | cons p rest ih =>
    obtain ⟨k, v⟩ := p
    rw [List.foldl_cons, ih, Entries.last?]
    rcases Entries.last? key rest with _ | last
    · rw [Option.getD_none, replacedIn]
      by_cases hk : k = key
      · rw [if_pos hk, if_pos hk.symm]
        rfl
      · rw [if_neg hk, if_neg (Ne.symm hk)]
        show _ ↔ root.Same entry
        rcases hentry : entry.isMapping with _ | _
        · rw [replaceKey_of_not_isMapping _ _ hentry]
        · have hdiffer : ∀ {v : Value}, v.isMapping = true → ¬ root.Same v := by
            intro v hv hsame
            rw [hsame.isMapping, hv] at hroot
            cases hroot
          exact iff_of_false (hdiffer ((isMapping_replaceKey _ _ _).trans hentry)) (hdiffer hentry)
    · rfl

/-- What a root and a suite can have of a parameter where the decision has found no difference. -/
def Compared (root own : Option Value) : Prop :=
  root = own ∨ root = none ∨ (root.getD .null).agrees (own.getD .null) = true

theorem Compared.same {root own : Value} (h : Compared (some root) (some own)) : root.Same own := by
  rcases h with h | h | h
  · exact Or.inl (Option.some.inj h)
  · cases h
  · exact Or.inr h

theorem last?_freeParameters (hfree : plan.parameterTargets.find? key = none) :
    Entries.last? key (freeParameters plan parameters) = parameters.last? key :=
  Entries.last?_filter (fun _ => by simp [Entries.contains, hfree]) parameters

theorem not_same_mapping {root : Value} (hroot : root.isMapping = false) (t : Entries Value) :
    ¬ root.Same (.mapping t) := by
  intro h
  rw [h.isMapping] at hroot
  cases hroot

theorem entryAfter_of_not_fills (h : ¬ Fills parameters file key plan.parameterTargets)
    (entry : Option Value) :
    entryAfter plan parameters file key entry =
      entry.map fun entry => (freeParameters plan parameters).foldl (replacedIn key) entry := by
  rw [entryAfter, sectionAfter_of_not_fills h]

theorem entryAfter_of_fills (h : Fills parameters file key plan.parameterTargets)
    (entry : Option Value) :
    ∃ t, entryAfter plan parameters file key entry =
      some ((freeParameters plan parameters).foldl (replacedIn key) (.mapping t)) := by
  obtain ⟨t, ht⟩ := sectionAfter_of_fills h entry
  exact ⟨t, by rw [entryAfter, ht, Option.map_some]⟩

/-- An entry that is there stays there. -/
theorem not_rel_none_entryAfter (own : Value) :
    ¬ Option.Rel Value.Same none (entryAfter plan parameters file key (some own)) := by
  by_cases hfills : Fills parameters file key plan.parameterTargets
  · obtain ⟨t, ht⟩ := entryAfter_of_fills hfills (some own)
    rw [ht]
    exact Option.not_rel_none_some
  · rw [entryAfter_of_not_fills hfills]
    exact Option.not_rel_none_some

/-- A missing entry comes up to the root's one, which is missing or null. -/
theorem rel_iff_of_missing {root : Option Value}
    (hfree : plan.parameterTargets.find? key = none) (hcompared : Compared root none) :
    Option.Rel Value.Same root (entryAfter plan parameters file key none) ↔
      Undisturbed plan parameters file key root none := by
  by_cases hfills : Fills parameters file key plan.parameterTargets
  · obtain ⟨t, ht⟩ := entryAfter_of_fills hfills none
    rw [ht]
    rcases root with _ | root
    · exact iff_of_false Option.not_rel_none_some fun h => h hfills
    · have hnull : root = .null := by
        rcases hcompared with h | h | h
        · cases h
        · cases h
        · exact Value.eq_null_of_agrees h
      subst hnull
      rw [Option.rel_some_some, same_foldl_iff rfl, last?_freeParameters hfree, Undisturbed]
      rcases Entries.last? key parameters with _ | v
      · exact iff_of_false (not_same_mapping rfl t) fun ⟨_, _, h, _⟩ => by cases h
      · exact ⟨fun h => ⟨hfills, v, rfl, h⟩, fun ⟨_, _, h, hsame⟩ => by cases h; exact hsame⟩
  · rw [entryAfter_of_not_fills hfills, Option.map_none]
    rcases root with _ | root
    · exact iff_of_true Option.rel_none_none hfills
    · exact iff_of_false Option.not_rel_some_none fun h => hfills h.1

/-- A scalar stays the root's one unless it is set to something else. -/
theorem rel_iff_of_scalar {root own : Value} (hfree : plan.parameterTargets.find? key = none)
    (hfills : ¬ Fills parameters file key plan.parameterTargets) (hsame : root.Same own)
    (hscalar : own.isMapping = false) :
    Option.Rel Value.Same (some root) (entryAfter plan parameters file key (some own)) ↔
      ∀ v, parameters.last? key = some v → root.Same v := by
  rw [entryAfter_of_not_fills hfills, Option.map_some, Option.rel_some_some,
    same_foldl_iff (hsame.isMapping.trans hscalar), last?_freeParameters hfree]
  rcases Entries.last? key parameters with _ | v
  · exact iff_of_true hsame fun _ h => by cases h
  · exact ⟨fun h _ hv => by cases hv; exact h, fun h => h v rfl⟩

/-- A run has an entry as the root has it exactly if the entry is undisturbed. -/
theorem rel_iff_undisturbed {root : Option Value}
    (h : inject plan configs parameters = .ok configs')
    (hfree : plan.parameterTargets.find? key = none)
    (hcompared : Compared root (entryOf configs file key)) :
    Option.Rel Value.Same root (entryOf configs' file key) ↔
      Undisturbed plan parameters file key root (entryOf configs file key) := by
  obtain ⟨targeted, htargets, -⟩ := except_bind_ok h
  rw [entryOf_inject h]
  rcases hown : entryOf configs file key with _ | own <;> rw [hown] at hcompared
  · exact rel_iff_of_missing hfree hcompared
  · rcases root with _ | root
    · exact iff_of_false (not_rel_none_entryAfter own) id
    · rw [Undisturbed]
      rcases hmapping : own.isMapping with _ | _
      · have hfills : ¬ Fills parameters file key plan.parameterTargets := by
          intro hfills
          rw [isMapping_of_fills htargets hfills hown] at hmapping
          cases hmapping
        exact rel_iff_of_scalar hfree hfills hcompared.same hmapping
      · rfl

end Compile

/-! ### The decision -/

namespace RebuildInputs

/-- Nothing that the decision looks at calls for building. -/
structure Quiet (i : RebuildInputs) : Prop where
  parameters : ∀ base, i.baseParameters = some base → ∀ p ∈ criticalParameters,
    (parameter p (some base)).agrees (parameter p i.suiteParameters) = true
  sweeps : ∀ v ∈ i.sweepVariables, v ∉ criticalParameters
  targets : ∀ p ∈ criticalParameters, i.plan.parameterTargets.find? p = none
  modifications : ∀ f ∈ criticalFiles, i.plan.modifications.find? f = none
  branches : ∀ b ∈ i.plan.branches, ∀ f ∈ criticalFiles, b.settings.find? f = none

theorem branchTrigger_eq_none_iff {b : Branch} :
    branchTrigger b = none ↔ ∀ f ∈ criticalFiles, b.settings.find? f = none := by
  rw [branchTrigger, Option.map_eq_none_iff, List.find?_eq_none]
  simp only [Entries.contains, Option.not_isSome_iff_eq_none]

theorem changedParameter_eq_none {i : RebuildInputs} {base : Value}
    (hbase : i.baseParameters = some base) (h : i.changedParameter = none) :
    ∀ p ∈ criticalParameters,
      (parameter p (some base)).agrees (parameter p i.suiteParameters) = true := by
  rw [changedParameter, hbase, Option.bind_some, List.findSome?_eq_none_iff] at h
  intro p hp
  have hp' := h p hp
  simp only at hp'
  split at hp'
  · assumption
  · cases hp'

theorem quiet_of_criticalTrigger {i : RebuildInputs} (h : i.criticalTrigger = none) :
    i.Quiet := by
  simp only [criticalTrigger, Option.orElse_eq_or, Option.or_eq_none_iff, Option.map_eq_none_iff,
    List.find?_eq_none, List.findSome?_eq_none_iff, List.contains_iff_mem] at h
  obtain ⟨hchanged, hsweeps, htargets, hmodifications, hbranches⟩ := h
  refine ⟨?_, hsweeps, ?_, ?_, ?_⟩
  · intro base hbase
    exact changedParameter_eq_none hbase hchanged
  · intro p hp
    exact Entries.find?_eq_none_iff.2 fun hmem => htargets p hmem hp
  · intro f hf
    simpa [Entries.contains] using hmodifications f hf
  · intro b hb
    exact branchTrigger_eq_none_iff.1 (hbranches b hb)

/-- A suite is left unbuilt only if detection, where it is on, has found nothing. -/
theorem quiet_of_decide {i : RebuildInputs} {force : Bool}
    (h : (i.decide true force).rebuild = false) : i.Quiet := by
  refine quiet_of_criticalTrigger ?_
  rw [decide] at h
  split at h
  · cases h
  · simp only [if_true] at h
    split at h
    · cases h
    · assumption

end RebuildInputs

namespace Compile

open Resolver

variable {source : ConfigSource} {declared : Entries String} {experiment : String} {plan : Plan}
variable {configs : Entries Document} {o : CompileOptions}

/-- The document that the root of an experiment's chain has of a file. An experiment that is its own
root has it already. -/
def rootDocument (source : ConfigSource) (declared : Entries String) (experiment : String)
    (own : Entries Document) (file : String) : Except Error (Option Document) := do
  let root ← lastOf source declared experiment
  if root = experiment then return own.find? file else documentOf source declared root file

/-- What the decision looks at, resolved without a memory. -/
theorem rebuildDecision_ok {r r' : Resolver} {swept : List String} {d : RebuildDecision}
    (hr : Sound source (fun _ => declared) r)
    (h : outcome (rebuildDecision source experiment plan configs swept o) r = (.ok d, r')) :
    ∃ root base, rootDocument source declared experiment configs criticalParameterFile = .ok root ∧
      (root = configs.find? criticalParameterFile ∧ base = none ∨ root = base) ∧
      d = (⟨plan, base.map Document.data,
        (configs.find? criticalParameterFile).map Document.data, swept⟩ : RebuildInputs).decide
          o.detectRebuild o.forceRebuild := by
  obtain ⟨root, r₁, hroot, h⟩ := outcome_bind_ok h
  obtain ⟨hlast, hr₁⟩ := (answers_rootOf experiment).of_outcome hr hroot
  rw [rootDocument, hlast]
  simp only at h
  by_cases hsame : root = experiment
  · rw [if_pos hsame] at h
    cases h
    exact ⟨_, none, if_pos hsame, Or.inl ⟨rfl, rfl⟩, rfl⟩
  · rw [if_neg hsame] at h
    obtain ⟨base, r₂, hbase, h⟩ := outcome_bind_ok h
    cases h
    obtain ⟨hbase, -⟩ := (answers_tryResolve root criticalParameterFile).of_outcome hr₁ hbase
    exact ⟨base, base, (if_neg hsame).trans hbase, Or.inr rfl, rfl⟩

/-- Where the decision is not to build, each parameter of the root has been compared with the
suite's. -/
theorem compared_of_quiet {own root base : Option Document} {swept : List String}
    (hroot : root = own ∨ root = base)
    (hquiet : (⟨plan, base.map Document.data, own.map Document.data, swept⟩ :
      RebuildInputs).Quiet) {p : String} (hp : p ∈ criticalParameters) :
    Compared (root.bind fun doc => doc.data.get? p) (own.bind fun doc => doc.data.get? p) := by
  rcases hroot with rfl | rfl
  · exact Or.inl rfl
  · rcases root with _ | doc
    · exact Or.inr (Or.inl rfl)
    · have hagree := hquiet.parameters doc.data rfl p hp
      refine Or.inr (Or.inr ?_)
      rcases own with _ | own
      · exact hagree
      · exact hagree

theorem mem_branches_or_default {b : Branch} (h : b ∈ plan.effectiveBranches) :
    b ∈ plan.branches ∨ b.settings = [] := by
  rw [Plan.effectiveBranches] at h
  split at h
  · rw [List.mem_singleton.1 h]
    exact Or.inr rfl
  · exact Or.inl h

/-- No overlay touches the compiled parameters of a suite that is left unbuilt. -/
theorem entryOf_overlaid {i : RebuildInputs} (hquiet : i.Quiet) (hplan : i.plan = plan)
    {modified overlaid : Entries Document} {branch : Branch} {key : String}
    (hbranch : branch ∈ plan.effectiveBranches)
    (hmodified : applyOverlays configs plan.modifications = .ok modified)
    (hoverlaid : applyOverlays modified branch.settings = .ok overlaid) :
    entryOf overlaid criticalParameterFile key = entryOf configs criticalParameterFile key := by
  subst hplan
  have hfile : criticalParameterFile ∈ criticalFiles := List.mem_cons_self
  have hsettings : branch.settings.find? criticalParameterFile = none := by
    rcases mem_branches_or_default hbranch with hmem | hnil
    · exact hquiet.branches branch hmem _ hfile
    · rw [hnil]
      rfl
  rw [entryOf, find?_applyOverlays hoverlaid hsettings,
    find?_applyOverlays hmodified (hquiet.modifications _ hfile), entryOf]

end Compile

open Compile Resolver in
/-- Where a suite is compiled without building, a run has a compiled parameter as the root of the
chain has it, or like it lacks it, exactly if the entry of the suite is undisturbed. -/
theorem sameAsRoot_iff_undisturbed {source : ConfigSource} {experiment : String} {plan : Plan}
    {o : CompileOptions} {bases : Entries String} {suite : CompiledSuite} {r' : Resolver}
    (h : outcome (compileSuite source experiment plan o) { declared := bases } = (.ok suite, r'))
    (hdetect : o.detectRebuild = true) (hkept : suite.rebuild.rebuild = false) :
    ∃ declared own root,
      declared = (declareBase? experiment plan.baseExperiment { declared := bases }).declared ∧
      documentsOf source declared experiment = .ok own ∧
      rootDocument source declared experiment own criticalParameterFile = .ok root ∧
      ∀ run ∈ suite.runs, ∀ p ∈ criticalParameters,
        (Option.Rel Value.Same (root.bind fun doc => doc.data.get? p)
            (entryOf run.configs criticalParameterFile p) ↔
          Undisturbed plan (plan.constants.union run.parameters) criticalParameterFile p
            (root.bind fun doc => doc.data.get? p) (entryOf own criticalParameterFile p)) := by
  obtain ⟨sweep, own, r₁, runs, -, hresolved, -, hdecision, hruns, hlimit⟩ := compileSuite_ok h
  have hfresh := sound_declareBase? source bases experiment plan.baseExperiment
  obtain ⟨hown, hr₁⟩ := (answers_resolveAll experiment).of_outcome hfresh hresolved
  obtain ⟨root, base, hroot, hbase, hrebuild⟩ := rebuildDecision_ok hr₁ hdecision
  rw [hrebuild, hdetect] at hkept
  have hquiet := RebuildInputs.quiet_of_decide hkept
  refine ⟨_, own, root, rfl, hown, hroot, ?_⟩
  intro run hrun p hp
  obtain ⟨branch, hbranch, combo, -, hcompiled⟩ := compileRun_of_mem hruns hlimit hrun
  obtain ⟨modified, overlaid, hmodified, hoverlaid, hinject⟩ := compileRun_ok hcompiled
  have hentry : entryOf overlaid criticalParameterFile p = entryOf own criticalParameterFile p :=
    entryOf_overlaid hquiet rfl hbranch hmodified hoverlaid
  have hcompared : Compared (root.bind fun doc => doc.data.get? p)
      (entryOf overlaid criticalParameterFile p) := by
    rw [hentry]
    exact compared_of_quiet (hbase.imp_left And.left) hquiet hp
  rw [← hentry]
  exact rel_iff_undisturbed hinject (hquiet.targets p hp) hcompared

/-! ### A grid of another size -/

/-- An experiment `st` without files of its own, over a base with a grid of 64 points. -/
def gridSource : ConfigSource :=
  ConfigSource.ofTree
    { entries :=
        [("config", .dir
          [("base", .dir [("in", .dir [("cparam_local.yaml", .file "nxgrid: 64\n".toUTF8 false)])]),
           ("st", .dir [])])] }
    "config"

/-- A plan for it that switches building off and has a constant of the grid's name. -/
def gridPlan (points : Int) : Plan :=
  { baseExperiment := some "base", constants := [("nxgrid", .int points)],
    disableAutoRebuild := true }

/-- The compilation of that plan. -/
def gridCompilation (points : Int) : Except Error CompiledSuite × Resolver :=
  outcome (compileSuite gridSource "st" (gridPlan points) {}) { declared := [] }

/-- Its suite. -/
def gridSuite (points : Int) : CompiledSuite := (gridCompilation points).1.toOption.getD default

/-- The bases in force for it. -/
def gridBases : Entries String := [("st", "base")]

/-- The documents of `st`. -/
def gridDocuments : Entries Document :=
  (Resolver.documentsOf gridSource gridBases "st").toOption.getD default

/-- The compiled parameters of `base`. -/
def gridRoot : Option Document :=
  (Compile.rootDocument gridSource gridBases "st" gridDocuments criticalParameterFile).toOption.getD
    default

/-- The value, if it is an integer. -/
def Value.asInt? : Value → Option Int
  | .num (.int n) => some n
  | _ => none

theorem eq_int_of_asInt? {v : Option Value} {n : Int} (h : v.bind Value.asInt? = some n) :
    v = some (.int n) := by
  obtain ⟨w, rfl, hw⟩ := Option.bind_eq_some_iff.1 h
  rw [Value.asInt?.eq_def] at hw
  split at hw
  · cases hw
    rfl
  · cases hw

/-- Everything resolves, and the grid has 64 points in the base and in the suite. -/
theorem grid_resolves :
    Resolver.documentsOf gridSource gridBases "st" = .ok gridDocuments ∧
      Compile.rootDocument gridSource gridBases "st" gridDocuments criticalParameterFile =
        .ok gridRoot ∧
      (gridRoot.bind fun doc => doc.data.get? "nxgrid") = some (.int 64) ∧
      Compile.entryOf gridDocuments criticalParameterFile "nxgrid" = some (.int 64) := by
  have hresolves :
      (Resolver.documentsOf gridSource gridBases "st").isOk = true ∧
        (Compile.rootDocument gridSource gridBases "st" gridDocuments
          criticalParameterFile).isOk = true ∧
        (gridRoot.bind fun doc => doc.data.get? "nxgrid").bind Value.asInt? = some 64 ∧
        (Compile.entryOf gridDocuments criticalParameterFile "nxgrid").bind Value.asInt? =
          some 64 := by
    decide +kernel
  obtain ⟨hdocuments, hroot, hbase, hown⟩ := hresolves
  exact ⟨eq_ok_of_isOk hdocuments, eq_ok_of_isOk hroot, eq_int_of_asInt? hbase,
    eq_int_of_asInt? hown⟩

/-- With the base's own size for a constant the run has the grid of the base. -/
theorem sameAsRoot_of_same_points :
    (gridSuite 64).rebuild.rebuild = false ∧
      ∃ run ∈ (gridSuite 64).runs,
        Option.Rel Value.Same (some (.int 64))
          (Compile.entryOf run.configs criticalParameterFile "nxgrid") := by
  have hrun : (gridCompilation 64).1.isOk = true ∧ (gridSuite 64).rebuild.rebuild = false ∧
      ((gridSuite 64).runs.head?.map fun run => run.parameters.isEmpty) = some true := by
    decide +kernel
  obtain ⟨hcompiled, hkept, hplain⟩ := hrun
  obtain ⟨hdocuments, hbase, hroot64, hown64⟩ := grid_resolves
  obtain ⟨run, hhead, hparameters⟩ := Option.map_eq_some_iff.1 hplain
  have hrun : run ∈ (gridSuite 64).runs := List.mem_of_mem_head? hhead
  obtain ⟨_, own, root, rfl, hown, hroot, hiff⟩ :=
    sameAsRoot_iff_undisturbed (outcome_of_isOk hcompiled) rfl hkept
  cases hdocuments.symm.trans hown
  cases hbase.symm.trans hroot
  have hsame := hiff run hrun "nxgrid" (by decide)
  rw [hroot64, hown64, List.isEmpty_iff.1 hparameters] at hsame
  refine ⟨hkept, run, hrun, hsame.2 ?_⟩
  rintro v hv
  cases hv
  exact Or.inl rfl

open Compile Resolver in
/-- A constant of another size gives the run another grid, and the program is not built anew. -/
theorem not_sameAsRoot_of_constant :
    ¬ ∀ (source : ConfigSource) (experiment : String) (plan : Plan) (o : CompileOptions)
      (bases : Entries String) (suite : CompiledSuite) (r' : Resolver),
      outcome (compileSuite source experiment plan o) { declared := bases } = (.ok suite, r') →
      o.detectRebuild = true → suite.rebuild.rebuild = false →
      ∀ declared own root,
        declared = (declareBase? experiment plan.baseExperiment { declared := bases }).declared →
        documentsOf source declared experiment = .ok own →
        rootDocument source declared experiment own criticalParameterFile = .ok root →
        ∀ run ∈ suite.runs, ∀ p ∈ criticalParameters,
          Option.Rel Value.Same (root.bind fun doc => doc.data.get? p)
            (entryOf run.configs criticalParameterFile p) := by
  intro hclaim
  have hrun : (gridCompilation 128).1.isOk = true ∧ (gridSuite 128).rebuild.rebuild = false ∧
      ((gridSuite 128).runs.head?.bind fun run =>
        entryOf run.configs criticalParameterFile "nxgrid").bind Value.asInt? = some 128 := by
    decide +kernel
  obtain ⟨hcompiled, hkept, hpoints⟩ := hrun
  obtain ⟨hdocuments, hbase, hroot64, -⟩ := grid_resolves
  obtain ⟨run, hhead, hentry⟩ := Option.bind_eq_some_iff.1 (eq_int_of_asInt? hpoints)
  have hrun : run ∈ (gridSuite 128).runs := List.mem_of_mem_head? hhead
  have hsame := hclaim gridSource "st" (gridPlan 128) {} [] (gridSuite 128) _
    (outcome_of_isOk hcompiled) rfl hkept gridBases gridDocuments gridRoot rfl
    hdocuments hbase run hrun "nxgrid" (by decide)
  rw [hroot64, hentry, Option.rel_some_some] at hsame
  rcases hsame with hsame | hsame
  · cases hsame
  · exact absurd hsame (by decide +kernel)

end ParamSweep
