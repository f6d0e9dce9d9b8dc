import Mathlib.Algebra.BigOperators.Group.List.Basic
import ParamSweep.Proofs.Combinations
import ParamSweep.Proofs.NameCollision

/-!
The runs of a suite as a grid: a row for each branch, and in it a run for each combination.

A compilation lays its groundwork first, everything that does not depend on a single run, and then
goes through the grid row by row (`outcome_compileSuite`). It stops at the first run that cannot be
compiled or has the name of an earlier one. A limit is applied to the finished grid, so it hides no
failure and changes no run. `runs_of_compileSuite` puts this together.
-/

namespace ParamSweep

/-! ### Counting combinations -/

theorem SweepGroup.values_of_ofSpec {index : Nat} {spec : GroupSpec} {group : SweepGroup}
    (h : SweepGroup.ofSpec index spec = .ok group) : group.values = spec.values := by
  obtain ⟨group', hshape, h⟩ := except_bind_ok h
  split at h
  · cases h
  · cases h
    rw [SweepGroup.shape] at hshape
    repeat' split at hshape
    all_goals cases hshape
    all_goals rfl

/-- The groups of a sweep have the values that the plan lists for them. -/
theorem Sweep.values_of_ofSpecs {specs : List GroupSpec} {s : Sweep}
    (h : Sweep.ofSpecs specs = .ok s) :
    s.groups.map SweepGroup.values = specs.map GroupSpec.values := by
  have hfrom : ∀ (specs : List GroupSpec) (index : Nat) (groups : List SweepGroup),
      groupsFrom index specs = .ok groups →
        groups.map SweepGroup.values = specs.map GroupSpec.values := by
    intro specs
    induction specs with
    | nil =>
      rintro _ _ ⟨⟩
      rfl
    | cons spec rest ih =>
      intro index groups h
      obtain ⟨group, hgroup, h⟩ := except_bind_ok h
      obtain ⟨others, hothers, h⟩ := except_bind_ok h
      cases h
      rw [List.map_cons, List.map_cons, SweepGroup.values_of_ofSpec hgroup, ih _ _ hothers]
  obtain ⟨groups, hgroups, h⟩ := except_bind_ok h
  cases h
  exact hfrom specs 0 groups hgroups

/-- The number of combinations that the sweeps of a plan have. -/
def Plan.combinationCount (plan : Plan) : Nat :=
  (plan.parameterSweeps.map fun spec => spec.values.length).prod

theorem Sweep.length_expand_of_plan {plan : Plan} {s : Sweep}
    (h : Sweep.ofSpecs plan.parameterSweeps = .ok s) :
    s.expand.length = plan.combinationCount := by
  have hlengths := congrArg (List.map List.length) (Sweep.values_of_ofSpecs h)
  simp only [List.map_map] at hlengths
  exact (length_expand s).trans (congrArg List.prod hlengths)

/-! ### Rows and columns -/

namespace Compile

/-- The branches and combinations of a suite, row by row. -/
def pairsOf (branches : List Branch) (combos : List Combination) : List (Branch × Combination) :=
  branches.flatMap fun b => combos.map fun c => (b, c)

theorem length_pairsOf (branches : List Branch) (combos : List Combination) :
    (pairsOf branches combos).length = branches.length * combos.length := by
  simp [pairsOf, List.length_flatMap]

variable {plan : Plan} {data : Value} {configs : Entries Document}

/-! ### The loop over the runs -/

/-- Going through the pairs in their order, a name repeats before any pair fails to compile. -/
def RepeatsFirst (plan : Plan) (data : Value) (configs : Entries Document)
    (pairs : List (Branch × Combination)) : Prop :=
  ∃ front runs, front <+: pairs ∧ List.Forall₂ (IsRunOf plan data configs) front runs ∧
    ¬ (runs.map Run.name).Nodup

/-- The loop fails for a collision exactly if some names are not apart before any pair fails. -/
theorem compileRuns_collision_iff {seen : List String} {pairs : List (Branch × Combination)} :
    (∃ e : Error, compileRuns plan data configs seen pairs = .error e ∧ e.IsCollision) ↔
      ∃ front runs, front <+: pairs ∧ List.Forall₂ (IsRunOf plan data configs) front runs ∧
        ¬ NamesApart seen runs := by
  induction pairs generalizing seen with
  | nil =>
    constructor
    · rintro ⟨e, ⟨⟩, -⟩
    · rintro ⟨front, runs, hfront, hruns, hnot⟩
      rw [List.prefix_nil] at hfront
      subst hfront
      rw [List.forall₂_nil_left_iff.1 hruns] at hnot
      exact absurd (by simp [NamesApart]) hnot
  | cons pair rest ih =>
    obtain ⟨branch, combo⟩ := pair
    rw [compileRuns]
    constructor
    · rintro ⟨e, h, he⟩
      rcases hrun : compileRun plan data configs branch combo with e' | run <;> rw [hrun] at h
      · cases h
        exact absurd he (compileRun_apart branch combo _ hrun)
      · rw [except_ok_bind] at h
        split at h
        next hseen =>
          refine ⟨[(branch, combo)], [run], by simp, .cons hrun .nil, fun hapart => ?_⟩
          exact (namesApart_cons_iff.1 hapart).1 (by simpa using hseen)
        · rcases hothers : compileRuns plan data configs (run.name :: seen) rest with e' | others
          · rw [hothers] at h
            cases h
            obtain ⟨front, runs, hfront, hruns, hnot⟩ := ih.1 ⟨_, hothers, he⟩
            exact ⟨(branch, combo) :: front, run :: runs, List.cons_prefix_cons.2 ⟨rfl, hfront⟩,
              .cons hrun hruns, fun hapart => hnot (namesApart_cons_iff.1 hapart).2⟩
          · rw [hothers] at h
            cases h
    · rintro ⟨front, runs, hfront, hruns, hnot⟩
      rcases List.prefix_cons_iff.1 hfront with rfl | ⟨front', rfl, hbefore⟩
      · rw [List.forall₂_nil_left_iff.1 hruns] at hnot
        exact absurd (by simp [NamesApart]) hnot
      · obtain ⟨run, others, hrun, hothers, rfl⟩ := List.forall₂_cons_left_iff.1 hruns
        have hcompiled : compileRun plan data configs branch combo = .ok run := hrun
        rw [hcompiled, except_ok_bind]
        by_cases hseen : run.name ∈ seen
        · rw [if_pos (by simpa using hseen)]
          exact ⟨_, rfl, trivial⟩
        · rw [if_neg (by simpa using hseen)]
          have hbelow : ¬ NamesApart (run.name :: seen) others :=
            fun hapart => hnot (namesApart_cons_iff.2 ⟨hseen, hapart⟩)
          obtain ⟨e, h, he⟩ := ih.2 ⟨front', others, hbefore, hothers, hbelow⟩
          exact ⟨e, by rw [h]; rfl, he⟩

theorem compileRuns_collision_iff_repeatsFirst {pairs : List (Branch × Combination)} :
    (∃ e : Error, compileRuns plan data configs [] pairs = .error e ∧ e.IsCollision) ↔
      RepeatsFirst plan data configs pairs := by
  simp [compileRuns_collision_iff, RepeatsFirst, NamesApart]

/-! ### The groundwork -/

/-- What is settled before the first run is compiled. -/
structure Groundwork where
  sweep : Sweep
  configs : Entries Document
  rebuild : RebuildDecision

/-- Lays the groundwork of a suite. Every check that does not look at a single run is in it. -/
def groundwork (source : ConfigSource) (experiment : String) (plan : Plan) (o : CompileOptions) :
    Resolving Groundwork := do
  let sweep ← Resolver.ofExcept ((Sweep.ofSpecs plan.parameterSweeps).mapError Error.configuration)
  modify (Resolver.declareBase? experiment plan.baseExperiment)
  let configs ← Resolver.resolveAll source experiment
  Resolver.ofExcept (checkOverlays plan configs)
  let rebuild ← rebuildDecision source experiment plan configs sweep.names o
  return ⟨sweep, configs, rebuild⟩

namespace Groundwork

/-- The branches and combinations that runs are compiled from. -/
def pairs (g : Groundwork) (plan : Plan) : List (Branch × Combination) :=
  pairsOf plan.effectiveBranches g.sweep.expand

/-- The run of a branch and a combination on this groundwork. -/
def compile (g : Groundwork) (plan : Plan) (branch : Branch) (combo : Combination) :
    Except Error Run :=
  compileRun plan (prefixData plan g.configs) g.configs branch combo

/-- The suite on this groundwork. -/
def suite (g : Groundwork) (experiment : String) (plan : Plan) (limit : Option Nat) :
    Except Error CompiledSuite := do
  let runs ← compileRuns plan (prefixData plan g.configs) g.configs [] (g.pairs plan)
  .ok {
    experiment := experiment, runs := (limit.map runs.take).getD runs, rebuild := g.rebuild,
    plannedRuns := runs.length, sweptVariables := g.sweep.names }

end Groundwork

/-- Compiling is laying the groundwork and then going through the runs. -/
theorem outcome_compileSuite (source : ConfigSource) (experiment : String) (plan : Plan)
    (o : CompileOptions) (r : Resolver) :
    outcome (compileSuite source experiment plan o) r =
      ((outcome (groundwork source experiment plan o) r).1.bind fun g =>
          g.suite experiment plan o.limit,
        (outcome (groundwork source experiment plan o) r).2) := by
  have hsplit : compileSuite source experiment plan o =
      groundwork source experiment plan o >>= fun g =>
        Resolver.ofExcept (g.suite experiment plan o.limit) := by
    simp only [compileSuite, groundwork, bind_assoc, pure_bind, Groundwork.suite,
      Resolver.ofExcept_bind]
    rfl
  rw [hsplit, outcome_bind]
  rcases outcome (groundwork source experiment plan o) r with ⟨e | g, r'⟩ <;> rfl

theorem failsOnly_groundwork (source : ConfigSource) (experiment : String) (plan : Plan)
    (o : CompileOptions) :
    FailsOnly (NoCollision source) (groundwork source experiment plan o) := by
  have hsweep : ErrsOnly (NoCollision source)
      ((Sweep.ofSpecs plan.parameterSweeps).mapError Error.configuration) :=
    (Sweep.ofSpecs_apart _).mapError fun _ h => .of_not h
  have hoverlays : ∀ configs, ErrsOnly (NoCollision source) (checkOverlays plan configs) :=
    fun configs => (checkOverlays_apart plan configs).mono fun _ => .of_not
  refine (Resolver.failsOnly_ofExcept hsweep).bind fun sweep => ?_
  refine (Resolver.failsOnly_modify _).bind fun _ => ?_
  refine (Resolver.failsOnly_resolveAll experiment).bind fun configs => ?_
  refine (Resolver.failsOnly_ofExcept (hoverlays configs)).bind fun _ => ?_
  exact (failsOnly_rebuildDecision source experiment plan configs sweep.names o).bind
    fun _ => FailsOnly.pure _

/-- The groundwork of a plan has the sweep of that plan. -/
theorem groundwork_ok {source : ConfigSource} {experiment : String} {o : CompileOptions}
    {r : Resolver} {g : Groundwork}
    (h : (outcome (groundwork source experiment plan o) r).1 = .ok g) :
    Sweep.ofSpecs plan.parameterSweeps = .ok g.sweep := by
  obtain ⟨sweep, r₁, hsweep, h⟩ := outcome_bind_ok (Prod.ext h rfl)
  obtain ⟨_, r₂, -, h⟩ := outcome_bind_ok h
  obtain ⟨_, r₃, -, h⟩ := outcome_bind_ok h
  obtain ⟨_, r₄, -, h⟩ := outcome_bind_ok h
  obtain ⟨_, r₅, -, h⟩ := outcome_bind_ok h
  cases h
  rw [Resolver.outcome_ofExcept, Prod.mk.injEq] at hsweep
  exact mapError_ok hsweep.1

namespace Groundwork

variable {g : Groundwork} {experiment : String}

theorem suite_ok {limit : Option Nat} {s : CompiledSuite}
    (h : g.suite experiment plan limit = .ok s) :
    ∃ runs, compileRuns plan (prefixData plan g.configs) g.configs [] (g.pairs plan) = .ok runs ∧
      s.runs = (limit.map runs.take).getD runs ∧ s.plannedRuns = runs.length := by
  obtain ⟨runs, hruns, h⟩ := except_bind_ok h
  cases h
  exact ⟨runs, hruns, rfl, rfl⟩

/-- A limit keeps the first runs of a suite that has been compiled as a whole. -/
theorem suite_limit (g : Groundwork) (experiment : String) (plan : Plan) (k : Nat) :
    g.suite experiment plan (some k) =
      (g.suite experiment plan none).map fun s => { s with runs := s.runs.take k } := by
  rw [suite, suite]
  rcases compileRuns plan (prefixData plan g.configs) g.configs [] (g.pairs plan) with e | runs <;>
    rfl

theorem suite_collision_iff {limit : Option Nat} :
    (∃ e : Error, g.suite experiment plan limit = .error e ∧ e.IsCollision) ↔
      RepeatsFirst plan (prefixData plan g.configs) g.configs (g.pairs plan) := by
  rw [← compileRuns_collision_iff_repeatsFirst, suite]
  rcases compileRuns plan (prefixData plan g.configs) g.configs [] (g.pairs plan) with e | runs
  · simp
  · exact iff_of_false (fun ⟨_, h, _⟩ => by cases h) (fun ⟨_, h, _⟩ => by cases h)

/-- The runs form a grid. The run in row `i` and column `j` is the one that is compiled from the
`i`-th branch and the `j`-th combination alone, and there are no other runs. -/
structure IsGrid (g : Groundwork) (plan : Plan) (runs : List Run) : Prop where
  size : runs.length = plan.effectiveBranches.length * g.sweep.expand.length
  run : ∀ {i j branch combo}, plan.effectiveBranches[i]? = some branch →
    g.sweep.expand[j]? = some combo →
      ∃ run, runs[i * g.sweep.expand.length + j]? = some run ∧ g.compile plan branch combo = .ok run

theorem isGrid_of_forall₂ {runs : List Run}
    (h : List.Forall₂ (IsRunOf plan (prefixData plan g.configs) g.configs) (g.pairs plan) runs) :
    g.IsGrid plan runs := by
  refine ⟨h.length_eq.symm.trans (length_pairsOf _ _), fun {i j branch combo} hi hj => ?_⟩
  have hpair : (g.pairs plan)[i * g.sweep.expand.length + j]? = some (branch, combo) :=
    getElem?_grid (f := fun b c => (b, c)) hj hi
  obtain ⟨hlt, hpair⟩ := List.getElem?_eq_some_iff.1 hpair
  have hlt' : i * g.sweep.expand.length + j < runs.length := h.length_eq ▸ hlt
  have hrun := h.get hlt hlt'
  rw [List.get_eq_getElem, hpair] at hrun
  exact ⟨_, List.getElem?_eq_getElem hlt', hrun⟩

end Groundwork

end Compile

/-- The options with another limit. -/
def CompileOptions.withLimit (limit : Option Nat) (o : CompileOptions) : CompileOptions :=
  { o with limit := limit }

open Compile

section

variable (source : ConfigSource) (experiment : String) (plan : Plan) (o : CompileOptions)
  (r : Resolver)

/-- The groundwork does not look at the limit. -/
theorem outcome_compileSuite_withLimit (limit : Option Nat) :
    outcome (compileSuite source experiment plan (o.withLimit limit)) r =
      ((outcome (groundwork source experiment plan o) r).1.bind fun g =>
          g.suite experiment plan limit,
        (outcome (groundwork source experiment plan o) r).2) :=
  outcome_compileSuite source experiment plan (o.withLimit limit) r

/-- Names collide exactly if the groundwork is laid and one of them repeats before any run fails to
compile, or the source reports a collision itself before that. -/
theorem compileSuite_collision_iff :
    (∃ e, (outcome (compileSuite source experiment plan (o.withLimit none)) r).1 = .error e ∧
        e.IsCollision) ↔
      (∃ g, (outcome (groundwork source experiment plan o) r).1 = .ok g ∧
        RepeatsFirst plan (prefixData plan g.configs) g.configs (g.pairs plan)) ∨
      ∃ e, (outcome (groundwork source experiment plan o) r).1 = .error e ∧ e.IsCollision ∧
        source.Reports e := by
  simp only [outcome_compileSuite_withLimit]
  rcases hground : outcome (groundwork source experiment plan o) r with ⟨e | g, r₁⟩
  · constructor
    · rintro ⟨e', ⟨⟩, he⟩
      have hreports : NoCollision source e :=
        failsOnly_groundwork source experiment plan o r e (by rw [hground])
      exact .inr ⟨e, rfl, he, hreports he⟩
    · rintro (⟨g, ⟨⟩, -⟩ | ⟨_, ⟨⟩, he, -⟩)
      exact ⟨e, rfl, he⟩
  · constructor
    · rintro ⟨e, h, he⟩
      exact .inl ⟨g, rfl, Groundwork.suite_collision_iff.1 ⟨e, h, he⟩⟩
    · rintro (⟨g', ⟨⟩, hrepeats⟩ | ⟨e, ⟨⟩, -⟩)
      exact Groundwork.suite_collision_iff.2 hrepeats

/-- With directories for a source the names are the only reason. -/
theorem compileSuite_collision_iff_ofTree (t : FileTree) (root : String) :
    (∃ e, (outcome (compileSuite (ConfigSource.ofTree t root) experiment plan (o.withLimit none))
        r).1 = .error e ∧ e.IsCollision) ↔
      ∃ g, (outcome (groundwork (ConfigSource.ofTree t root) experiment plan o) r).1 = .ok g ∧
        RepeatsFirst plan (prefixData plan g.configs) g.configs (g.pairs plan) := by
  rw [compileSuite_collision_iff, or_iff_left]
  rintro ⟨e, -, he, hreports⟩
  exact ConfigSource.not_reports_ofTree t root he hreports

/-- Without a limit, a compiled suite is the grid of the branches and the combinations, as many as
the values of the groups make, and no two of its runs have one name.

Compilation fails for a collision of names exactly if the groundwork is laid and then, run by run, a
name repeats before any run fails to compile; a source may report such an error of its own accord
before that, though directories never do.

With a limit it fails exactly as it does without one, and otherwise keeps the first runs of the same
suite, all else unchanged. -/
theorem runs_of_compileSuite :
    (∀ suite r', outcome (compileSuite source experiment plan (o.withLimit none)) r =
        (.ok suite, r') →
      ∃ g, outcome (groundwork source experiment plan o) r = (.ok g, r') ∧
        g.sweep.expand.length = plan.combinationCount ∧
        suite.plannedRuns = plan.effectiveBranches.length * plan.combinationCount ∧
        g.IsGrid plan suite.runs ∧ suite.runNames.Nodup) ∧
    ((∃ e, (outcome (compileSuite source experiment plan (o.withLimit none)) r).1 = .error e ∧
        e.IsCollision) ↔
      (∃ g, (outcome (groundwork source experiment plan o) r).1 = .ok g ∧
        RepeatsFirst plan (prefixData plan g.configs) g.configs (g.pairs plan)) ∨
      ∃ e, (outcome (groundwork source experiment plan o) r).1 = .error e ∧ e.IsCollision ∧
        source.Reports e) ∧
    ∀ k, outcome (compileSuite source experiment plan (o.withLimit (some k))) r =
      ((outcome (compileSuite source experiment plan (o.withLimit none)) r).1.map fun suite =>
          { suite with runs := suite.runs.take k },
        (outcome (compileSuite source experiment plan (o.withLimit none)) r).2) := by
  refine ⟨?_, compileSuite_collision_iff source experiment plan o r, fun k => ?_⟩
  · intro suite r' h
    rw [outcome_compileSuite_withLimit] at h
    rcases hground : outcome (groundwork source experiment plan o) r with ⟨e | g, r₁⟩ <;>
      rw [hground] at h
    · cases h
    · obtain ⟨hsuite, rfl⟩ := Prod.mk.inj h
      obtain ⟨runs, hruns, hall, hplanned⟩ := g.suite_ok hsuite
      obtain ⟨hcompiled, hnames, -⟩ := compileRuns_eq_ok_iff.1 hruns
      have hcount := Sweep.length_expand_of_plan (groundwork_ok (Prod.ext_iff.1 hground).1)
      have hgrid := Groundwork.isGrid_of_forall₂ hcompiled
      obtain rfl : suite.runs = runs := hall
      exact ⟨g, rfl, hcount, by rw [hplanned, hgrid.size, hcount], hgrid, hnames⟩
  · rw [outcome_compileSuite_withLimit, outcome_compileSuite_withLimit]
    rcases outcome (groundwork source experiment plan o) r with ⟨e | g, r₁⟩
    · rfl
    · exact congrArg (·, r₁) (g.suite_limit experiment plan k)

end

/-- A directory for an experiment `e` without files. -/
def bareSource : ConfigSource :=
  ConfigSource.ofTree { entries := [("config", .dir [("e", .dir [])])] } "config"

/-- A plan of two branches and a sweep over two values. -/
def squarePlan : Plan :=
  { branches := [{ name := "x" }, { name := "y" }],
    parameterSweeps := [{ kind := "product", var := some "nu", values := [.int 1, .int 2] }] }

/-- The suite of that plan. -/
def squareSuite : CompiledSuite :=
  (outcome (compileSuite bareSource "e" squarePlan {}) {}).1.toOption.getD default

/-- Two branches and two values make four runs, of which a limit keeps three. -/
theorem runs_of_square :
    squareSuite.plannedRuns = 4 ∧ squareSuite.runNames.Nodup ∧
      (outcome (compileSuite bareSource "e" squarePlan { limit := some 3 }) {}).1 =
        .ok { squareSuite with runs := squareSuite.runs.take 3 } := by
  have hisOk : (outcome (compileSuite bareSource "e" squarePlan {}) {}).1.isOk = true := by
    decide +kernel
  have hok := eq_ok_of_isOk hisOk
  obtain ⟨hsuite, -, hlimit⟩ := runs_of_compileSuite bareSource "e" squarePlan {} {}
  obtain ⟨g, -, -, hplanned, -, hnames⟩ := hsuite _ _ (outcome_of_answer hok)
  refine ⟨hplanned, hnames, ?_⟩
  exact (congrArg Prod.fst (hlimit 3)).trans (congrArg (Except.map _) hok)

end ParamSweep
