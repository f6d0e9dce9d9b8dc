import Mathlib.Data.List.Forall2
import ParamSweep.Proofs.Resolution
import ParamSweep.Proofs.Tables
import ParamSweep.Suite.Compile

/-!
What a compiled suite is made of.

`compileSuite_ok` takes a successful compilation apart, once for all who need its parts. Of the runs
it gives, `compileRuns_eq_ok_iff` says that they are the runs of the branches and combinations, each
compiled by itself, and that no two have one name.
-/

namespace ParamSweep

namespace Resolver

variable {α : Type}

theorem ofExcept_bind {β : Type} (answer : Except Error α) (f : α → β) :
    ofExcept (do let a ← answer; .ok (f a)) = do
      let a ← ofExcept answer
      return f a := by
  cases answer <;> rfl

end Resolver

namespace Compile

variable {plan : Plan} {data : Value} {configs : Entries Document}

/-- A run is the one of a branch and a combination, compiled by itself. -/
def IsRunOf (plan : Plan) (data : Value) (configs : Entries Document)
    (pair : Branch × Combination) (run : Run) : Prop :=
  compileRun plan data configs pair.1 pair.2 = .ok run

/-- The names of the runs differ from each other and from those that were seen before. -/
def NamesApart (seen : List String) (runs : List Run) : Prop :=
  (runs.map Run.name).Nodup ∧ ∀ n ∈ runs.map Run.name, n ∉ seen

theorem namesApart_cons_iff {seen : List String} {run : Run} {runs : List Run} :
    NamesApart seen (run :: runs) ↔ run.name ∉ seen ∧ NamesApart (run.name :: seen) runs := by
  rw [NamesApart, NamesApart, List.map_cons, List.nodup_cons, List.forall_mem_cons]
  simp only [List.mem_cons, not_or]
  constructor
  · rintro ⟨⟨hnew, hnodup⟩, hseen, hrest⟩
    exact ⟨hseen, hnodup, fun n hn => ⟨fun heq => hnew (heq ▸ hn), hrest n hn⟩⟩
  · rintro ⟨hseen, hnodup, hrest⟩
    exact ⟨⟨fun hmem => (hrest _ hmem).1 rfl, hnodup⟩, hseen, fun n hn => (hrest n hn).2⟩

/-- The runs are those of the pairs, one by one, and their names differ. -/
theorem compileRuns_eq_ok_iff {seen : List String} {pairs : List (Branch × Combination)}
    {runs : List Run} :
    compileRuns plan data configs seen pairs = .ok runs ↔
      List.Forall₂ (IsRunOf plan data configs) pairs runs ∧ NamesApart seen runs := by
  induction pairs generalizing seen runs with
  | nil =>
    rw [List.forall₂_nil_left_iff]
    constructor
    · rintro ⟨⟩
      exact ⟨rfl, by simp [NamesApart]⟩
    · rintro ⟨rfl, -⟩
      rfl
  | cons pair rest ih =>
    obtain ⟨branch, combo⟩ := pair
    rw [compileRuns]
    constructor
    · intro h
      obtain ⟨run, hrun, h⟩ := except_bind_ok h
      split at h
      · cases h
      next hseen =>
        obtain ⟨others, hothers, h⟩ := except_bind_ok h
        cases h
        obtain ⟨hruns, hapart⟩ := ih.1 hothers
        exact ⟨.cons hrun hruns, namesApart_cons_iff.2 ⟨by simpa using hseen, hapart⟩⟩
    · rintro ⟨hruns, hapart⟩
      obtain ⟨run, others, hrun, hothers, rfl⟩ := List.forall₂_cons_left_iff.1 hruns
      obtain ⟨hseen, hapart⟩ := namesApart_cons_iff.1 hapart
      have hcompiled : compileRun plan data configs branch combo = .ok run := hrun
      rw [hcompiled, except_ok_bind, if_neg (by simpa using hseen), ih.2 ⟨hothers, hapart⟩]
      rfl

theorem mem_compileRuns {pairs : List (Branch × Combination)} {seen : List String}
    {runs : List Run} (h : compileRuns plan data configs seen pairs = .ok runs) :
    ∀ run ∈ runs, ∃ branch combo, (branch, combo) ∈ pairs ∧
      compileRun plan data configs branch combo = .ok run := by
  intro run hrun
  obtain ⟨k, hk, rfl⟩ := List.getElem_of_mem hrun
  have hruns := (compileRuns_eq_ok_iff.1 h).1
  have hk' : k < pairs.length := hruns.length_eq ▸ hk
  exact ⟨pairs[k].1, pairs[k].2, List.getElem_mem hk', hruns.get hk' hk⟩

/-- The parts of a run that has been compiled. -/
theorem compileRun_parts {branch : Branch} {combo : Combination} {run : Run}
    (h : compileRun plan data configs branch combo = .ok run) :
    isUsableName run.name = true ∧ run.branch = branch.name ∧
      ∃ modified overlaid, applyOverlays configs plan.modifications = .ok modified ∧
        applyOverlays modified branch.settings = .ok overlaid ∧
        inject plan overlaid (plan.constants.union run.parameters) = .ok run.configs := by
  obtain ⟨d, -, h⟩ := except_bind_ok h
  simp only at h
  -- the name comes from a template or not, and what follows is the same
  split at h
  all_goals
    obtain ⟨name, -, h⟩ := except_bind_ok h
    split at h
    · cases h
    next husable =>
      obtain ⟨modified, hmodified, h⟩ := except_bind_ok h
      obtain ⟨overlaid, hoverlaid, h⟩ := except_bind_ok h
      obtain ⟨injected, hinjected, h⟩ := except_bind_ok h
      cases h
      exact ⟨by simpa using husable, rfl, modified, overlaid, hmodified, hoverlaid,
        mapError_ok hinjected⟩

/-- The documents of a run are those of the experiment with the overlays merged in and the constants
and the run's parameters put in their places. -/
theorem compileRun_ok {branch : Branch} {combo : Combination} {run : Run}
    (h : compileRun plan data configs branch combo = .ok run) :
    ∃ modified overlaid, applyOverlays configs plan.modifications = .ok modified ∧
      applyOverlays modified branch.settings = .ok overlaid ∧
      inject plan overlaid (plan.constants.union run.parameters) = .ok run.configs :=
  (compileRun_parts h).2.2

/-! ### What overlays and parameters keep

A property of the documents that survives the merge of one overlay survives them all, and one that
survives the placing of one parameter survives the placing of all.
-/

section Induction

variable {P : Entries Document → Prop} {configs' : Entries Document} {parameters : Entries Value}

theorem applyOverlays_induction {overlays : List (String × Value)}
    (h : applyOverlays configs overlays = .ok configs') (hconfigs : P configs)
    (hoverlay : ∀ p ∈ overlays, ∀ t doc v, P t → t.find? p.1 = some doc →
      merged doc.data p.2 = .ok v → P (t.insert p.1 { doc with data := v })) : P configs' := by
  induction overlays generalizing configs with
  | nil =>
    cases h
    exact hconfigs
  | cons p rest ih =>
    obtain ⟨hp, hrest⟩ := List.forall_mem_cons.1 hoverlay
    rw [applyOverlays] at h
    split at h
    · cases h
    next doc hdoc =>
      obtain ⟨v, hv, h⟩ := except_bind_ok h
      exact ih h (hp configs doc v hconfigs hdoc hv) hrest

theorem injectTargets_cons_ok {parameter : String} {target : Target}
    {rest : List (String × Target)} {value : Value}
    (hvalue : parameters.find? parameter = some value)
    (h : injectTargets parameters configs ((parameter, target) :: rest) = .ok configs') :
    ∃ doc data, configs.find? target.file = some doc ∧
      setInSection target.file target.section doc.data parameter value = .ok data ∧
      injectTargets parameters (configs.insert target.file { doc with data := data }) rest =
        .ok configs' := by
  rw [injectTargets, hvalue] at h
  simp only at h
  split at h
  · cases h
  · rename_i doc hdoc
    obtain ⟨data, hdata, h⟩ := except_bind_ok h
    exact ⟨doc, data, hdoc, hdata, h⟩

theorem injectTargets_induction {targets : List (String × Target)}
    (h : injectTargets parameters configs targets = .ok configs') (hconfigs : P configs)
    (htarget : ∀ p ∈ targets, ∀ value, parameters.find? p.1 = some value → ∀ t doc v, P t →
      t.find? p.2.file = some doc → setInSection p.2.file p.2.section doc.data p.1 value = .ok v →
        P (t.insert p.2.file { doc with data := v })) : P configs' := by
  induction targets generalizing configs with
  | nil =>
    cases h
    exact hconfigs
  | cons p rest ih =>
    obtain ⟨parameter, target⟩ := p
    obtain ⟨hp, hrest⟩ := List.forall_mem_cons.1 htarget
    rcases hvalue : parameters.find? parameter with _ | value
    · rw [injectTargets, hvalue] at h
      exact ih h hconfigs hrest
    · obtain ⟨doc, v, hdoc, hv, h⟩ := injectTargets_cons_ok hvalue h
      exact ih h (hp value hvalue configs doc v hconfigs hdoc hv) hrest

theorem inject_induction (h : inject plan configs parameters = .ok configs') (hconfigs : P configs)
    (htarget : ∀ p ∈ plan.parameterTargets, ∀ value, parameters.find? p.1 = some value →
      ∀ t doc v, P t → t.find? p.2.file = some doc →
        setInSection p.2.file p.2.section doc.data p.1 value = .ok v →
          P (t.insert p.2.file { doc with data := v }))
    (hfree : ∀ p ∈ parameters, ∀ t, P t → P (replaceEverywhere t p.1 p.2)) : P configs' := by
  obtain ⟨targeted, htargets, h⟩ := except_bind_ok h
  cases h
  exact List.foldlRecOn (motive := P) _ _ (injectTargets_induction htargets hconfigs htarget)
    fun t ht p hp => hfree p (List.mem_of_mem_filter hp) t ht

end Induction

/-- Overlays leave alone every document that none of them is for. -/
theorem find?_applyOverlays {overlays : List (String × Value)} {configs' : Entries Document}
    {file : String} (h : applyOverlays configs overlays = .ok configs')
    (hnone : Entries.find? file overlays = none) : configs'.find? file = configs.find? file := by
  refine applyOverlays_induction (P := fun t => t.find? file = configs.find? file) h rfl
    fun p hp t doc v ht hdoc hv => ?_
  have hother : p.1 ≠ file := by
    rintro rfl
    exact Entries.find?_eq_none_iff.1 hnone (List.mem_map_of_mem hp)
  rw [Entries.find?_insert, if_neg hother, ht]

end Compile

/-- The parts of a compilation that has succeeded. -/
theorem compileSuite_ok {source : ConfigSource} {experiment : String} {plan : Plan}
    {o : CompileOptions} {suite : CompiledSuite} {r r' : Resolver}
    (h : outcome (compileSuite source experiment plan o) r = (.ok suite, r')) :
    ∃ sweep configs r₁ runs,
      Sweep.ofSpecs plan.parameterSweeps = .ok sweep ∧
      outcome (Resolver.resolveAll source experiment)
        (Resolver.declareBase? experiment plan.baseExperiment r) = (.ok configs, r₁) ∧
      Compile.checkOverlays plan configs = .ok () ∧
      outcome (Compile.rebuildDecision source experiment plan configs sweep.names o) r₁ =
        (.ok suite.rebuild, r') ∧
      Compile.compileRuns plan (Compile.prefixData plan configs) configs []
        (plan.effectiveBranches.flatMap fun b => sweep.expand.map fun c => (b, c)) = .ok runs ∧
      suite.runs = (o.limit.map runs.take).getD runs := by
  obtain ⟨sweep, s₁, hsweep, h⟩ := outcome_bind_ok h
  obtain ⟨_, s₂, hdeclared, h⟩ := outcome_bind_ok h
  obtain ⟨configs, r₁, hconfigs, h⟩ := outcome_bind_ok h
  obtain ⟨_, s₃, hoverlays, h⟩ := outcome_bind_ok h
  obtain ⟨rebuild, s₄, hrebuild, h⟩ := outcome_bind_ok h
  obtain ⟨runs, s₅, hruns, h⟩ := outcome_bind_ok h
  rw [Resolver.outcome_ofExcept, Prod.mk.injEq] at hsweep hoverlays hruns
  rw [outcome_modify, Prod.mk.injEq] at hdeclared
  obtain ⟨hsweep, rfl⟩ := hsweep
  obtain ⟨-, rfl⟩ := hdeclared
  obtain ⟨hoverlays, rfl⟩ := hoverlays
  obtain ⟨hruns, rfl⟩ := hruns
  cases h
  exact ⟨sweep, configs, _, runs, mapError_ok hsweep, hconfigs, hoverlays, hrebuild, hruns, rfl⟩

/-- The runs that are kept are the first ones of those that the plan asks for. -/
theorem prefix_of_limit (limit : Option Nat) (runs : List Run) :
    (limit.map runs.take).getD runs <+: runs := by
  cases limit with
  | none => exact List.prefix_rfl
  | some n => exact List.take_prefix n runs

/-- A run of a compiled suite is the one of a branch of the plan and a combination of its sweep. -/
theorem compileRun_of_mem {plan : Plan} {data : Value} {configs : Entries Document}
    {combos : List Combination} {limit : Option Nat} {runs : List Run} {suite : CompiledSuite}
    (hruns : Compile.compileRuns plan data configs []
      (plan.effectiveBranches.flatMap fun b => combos.map fun c => (b, c)) = .ok runs)
    (hlimit : suite.runs = (limit.map runs.take).getD runs) {run : Run} (hrun : run ∈ suite.runs) :
    ∃ branch ∈ plan.effectiveBranches, ∃ combo ∈ combos,
      Compile.compileRun plan data configs branch combo = .ok run := by
  have hmem : run ∈ runs := (prefix_of_limit limit runs).subset (hlimit ▸ hrun)
  obtain ⟨branch, combo, hpair, hcompiled⟩ := Compile.mem_compileRuns hruns run hmem
  obtain ⟨b, hb, hpair⟩ := List.mem_flatMap.1 hpair
  obtain ⟨c, hc, heq⟩ := List.mem_map.1 hpair
  cases heq
  exact ⟨branch, hb, combo, hc, hcompiled⟩

/-- No two runs of a compiled suite have one name. -/
theorem nodup_runNames {source : ConfigSource} {experiment : String} {plan : Plan}
    {o : CompileOptions} {suite : CompiledSuite} {r r' : Resolver}
    (h : outcome (compileSuite source experiment plan o) r = (.ok suite, r')) :
    suite.runNames.Nodup := by
  obtain ⟨_, _, _, runs, -, -, -, -, hruns, hlimit⟩ := compileSuite_ok h
  have hsub : suite.runNames.Sublist (runs.map Run.name) := by
    rw [CompiledSuite.runNames, hlimit]
    exact (prefix_of_limit o.limit runs).sublist.map _
  exact hsub.nodup (Compile.compileRuns_eq_ok_iff.1 hruns).2.1

end ParamSweep
