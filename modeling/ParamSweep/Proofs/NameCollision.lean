import ParamSweep.Proofs.Compilation
import ParamSweep.Proofs.DiskSource

/-!
Where a collision of run names can come from.

Two runs of one name are an error of a kind of its own. Nothing but the loop over the runs makes
this error: no check before it (`failsOnly_groundwork`), and no run by itself (`compileRun_apart`).
A source of configuration is free to fail with whatever it likes, this error included, and what it
reports is handed on; the directories of a tree never report it (`not_reports_ofTree`).
-/

namespace ParamSweep

/-- Whether a cause is that two runs have one name. -/
def Cause.IsCollision : Cause → Prop
  | .nameCollision _ _ => True
  | _ => False

/-- Whether an error says that two runs have one name. -/
def Error.IsCollision : Error → Prop
  | .configuration cause => cause.IsCollision
  | _ => False

/-- The source itself fails with an error when it is looked at. -/
def ConfigSource.Reports (source : ConfigSource) (e : Error) : Prop :=
  (∃ experiment, source.base? experiment = .error e) ∨
    (∃ experiment, source.fileNames experiment = .error e) ∨
    ∃ experiment file, source.load experiment file = .error e

/-- An error is no collision of names, unless the source has reported it. -/
def NoCollision (source : ConfigSource) (e : Error) : Prop := e.IsCollision → source.Reports e

theorem NoCollision.of_not {source : ConfigSource} {e : Error} (h : ¬ e.IsCollision) :
    NoCollision source e :=
  fun he => absurd he h

/-! ### The sweep -/

theorem SweepGroup.shape_apart (index : Nat) (spec : GroupSpec) :
    ErrsOnly (¬ ·.IsCollision) (SweepGroup.shape index spec) := by
  rw [SweepGroup.shape]
  split
  · split
    · exact .error id
    · split
      · exact .error id
      · exact .ok _
  · split
    · split
      · exact .error id
      · exact .ok _
    · exact .error id
  · exact .error id

theorem SweepGroup.ofSpec_apart (index : Nat) (spec : GroupSpec) :
    ErrsOnly (¬ ·.IsCollision) (SweepGroup.ofSpec index spec) := by
  refine (shape_apart index spec).bind fun group => ?_
  split
  · exact .error id
  · exact .ok _

theorem Sweep.groupsFrom_apart : ∀ (index : Nat) (specs : List GroupSpec),
    ErrsOnly (¬ ·.IsCollision) (Sweep.groupsFrom index specs)
  | _, [] => .ok _
  | index, spec :: rest =>
    (SweepGroup.ofSpec_apart index spec).bind fun _ =>
      (groupsFrom_apart (index + 1) rest).bind fun _ => .ok _

theorem Sweep.ofSpecs_apart (specs : List GroupSpec) :
    ErrsOnly (¬ ·.IsCollision) (Sweep.ofSpecs specs) :=
  (groupsFrom_apart 0 specs).bind fun _ => .ok _

/-! ### Documents -/

theorem merged_apart (base overlay : Value) :
    ErrsOnly (¬ ·.IsCollision) (merged base overlay) := by
  rw [merged]
  split
  · exact .ok _
  · exact .error id

theorem Document.ofValue_apart (file : String) (v : Value) :
    ErrsOnly (¬ ·.IsCollision) (Document.ofValue file v) := by
  have hformat : ∀ entry, ErrsOnly (¬ ·.IsCollision) (Document.formatOf file entry) := by
    intro entry
    rw [Document.formatOf.eq_def]
    split <;> first | exact .ok _ | exact .error id
  have hdata : ∀ entry, ErrsOnly (¬ ·.IsCollision) (Document.dataOf file entry) := by
    intro entry
    rw [Document.dataOf.eq_def]
    split <;> first | exact .ok _ | exact .error id
  rw [Document.ofValue.eq_def]
  split
  · split
    · exact .ok _
    · exact (hformat _).bind fun _ => (hdata _).bind fun _ => .ok _
  · exact .error id

namespace Resolver

variable {source : ConfigSource} {α : Type} {K : Error → Prop}

theorem failsOnly_ofExcept {answer : Except Error α} (h : ErrsOnly K answer) :
    FailsOnly K (ofExcept answer) :=
  fun _ => h

theorem failsOnly_modify (f : Resolver → Resolver) :
    FailsOnly K (modify f : Resolving PUnit) := by
  intro s e h
  simp at h

theorem failsOnly_get : FailsOnly K (get : Resolving Resolver) := by
  intro s e h
  simp at h

theorem layerOf_apart (file experiment : String) :
    ErrsOnly (NoCollision source) (layerOf source file experiment) := by
  have hload : ErrsOnly (NoCollision source) (source.load experiment file) :=
    fun e he _ => Or.inr (Or.inr ⟨experiment, file, he⟩)
  refine hload.bind fun v => ?_
  split
  · exact .ok _
  · exact ((Document.ofValue_apart file _).mapError fun _ h => .of_not h).map _

theorem layered_apart (file : String) : ∀ experiments : List String,
    ErrsOnly (NoCollision source) (layered source file experiments)
  | [] => .ok _
  | experiment :: bases => by
    refine (layered_apart file bases).bind fun below => ?_
    refine (layerOf_apart file experiment).bind fun layer => ?_
    split
    · exact .ok _
    · exact .ok _
    · have hoverlay : ∀ base layer : Document,
          ErrsOnly (NoCollision source) (base.overlay layer) :=
        fun _ _ => ((merged_apart _ _).mono fun _ => .of_not).bind fun _ => .ok _
      exact (hoverlay _ _).map _

theorem chainFrom_apart (declared : Entries String) :
    ∀ (fuel : Nat) (chain : List String) (current : String),
      ErrsOnly (NoCollision source) (chainFrom source declared fuel chain current)
  | 0, _, _ => .error (.of_not id)
  | fuel + 1, chain, current => by
    have hnext : ErrsOnly (NoCollision source) (nextBase source declared current) := by
      rw [nextBase]
      split
      · exact .ok _
      · exact fun e he _ => Or.inl ⟨current, he⟩
    refine hnext.bind fun next => ?_
    split
    · exact .ok _
    · split
      · exact .error (.of_not id)
      · split
        · exact .error (.of_not id)
        · exact chainFrom_apart declared fuel _ _

theorem chainOf_apart (declared : Entries String) (experiment : String) :
    ErrsOnly (NoCollision source) (chainOf source declared experiment) := by
  rw [chainOf]
  split
  · exact chainFrom_apart declared _ _ _
  · exact .error (.of_not id)

theorem fileNamesOf_apart : ∀ experiments : List String,
    ErrsOnly (NoCollision source) (fileNamesOf source experiments)
  | [] => .ok _
  | experiment :: rest => by
    have hnames : ErrsOnly (NoCollision source) (source.fileNames experiment) :=
      fun e he _ => Or.inr (Or.inl ⟨experiment, he⟩)
    exact hnames.bind fun _ => (fileNamesOf_apart rest).bind fun _ => .ok _

theorem failsOnly_chain (experiment : String) :
    FailsOnly (NoCollision source) (chain source experiment) := by
  refine failsOnly_get.bind fun r => ?_
  split
  · exact FailsOnly.pure _
  · exact (failsOnly_ofExcept (chainOf_apart _ _)).bind fun _ =>
      (failsOnly_modify _).bind fun _ => FailsOnly.pure _

theorem failsOnly_tryResolve (experiment file : String) :
    FailsOnly (NoCollision source) (tryResolve source experiment file) := by
  refine failsOnly_get.bind fun r => ?_
  split
  · exact FailsOnly.pure _
  · exact (failsOnly_chain experiment).bind fun _ =>
      (failsOnly_ofExcept (layered_apart _ _)).bind fun _ =>
        (failsOnly_modify _).bind fun _ => FailsOnly.pure _

theorem failsOnly_resolve (experiment file : String) :
    FailsOnly (NoCollision source) (resolve source experiment file) := by
  refine (failsOnly_tryResolve experiment file).bind fun doc => ?_
  split
  · exact FailsOnly.pure _
  · exact (failsOnly_chain experiment).bind fun _ =>
      failsOnly_ofExcept (.error (.of_not id))

theorem failsOnly_resolveFiles (experiment : String) : ∀ files : List String,
    FailsOnly (NoCollision source) (resolveFiles source experiment files)
  | [] => FailsOnly.pure _
  | file :: rest =>
    (failsOnly_resolve experiment file).bind fun _ =>
      (failsOnly_resolveFiles experiment rest).bind fun _ => FailsOnly.pure _

theorem failsOnly_resolveAll (experiment : String) :
    FailsOnly (NoCollision source) (resolveAll source experiment) :=
  (failsOnly_chain experiment).bind fun _ =>
    (failsOnly_ofExcept (fileNamesOf_apart _)).bind fun names =>
      failsOnly_resolveFiles experiment names.keys

theorem failsOnly_rootOf (experiment : String) :
    FailsOnly (NoCollision source) (rootOf source experiment) :=
  (failsOnly_chain experiment).bind fun _ => FailsOnly.pure _

end Resolver

/-! ### Runs -/

namespace Naming

theorem fill_apart (template : String) (context : Entries Value) (piece : Piece) :
    ErrsOnly (¬ ·.IsCollision) (piece.fill template context) := by
  have hfilter : ∀ name text, ErrsOnly (¬ ·.IsCollision) (applyFilter name text) := by
    intro name text
    rw [applyFilter.eq_def]
    split <;> first | exact .ok _ | exact .error id
  cases piece with
  | literal c => exact .ok _
  | placeholder path filter =>
    rw [Piece.fill]
    split
    · exact .error id
    · split
      · exact .ok _
      · exact (hfilter _ _).map _

theorem fillAll_apart (template : String) (context : Entries Value) : ∀ pieces : List Piece,
    ErrsOnly (¬ ·.IsCollision) (fillAll template context pieces)
  | [] => .ok _
  | piece :: rest =>
    (fill_apart template context piece).bind fun _ =>
      (fillAll_apart template context rest).bind fun _ => .ok _

theorem renderTemplate_apart (template : String) (context : Entries Value) :
    ErrsOnly (¬ ·.IsCollision) (renderTemplate template context) := by
  refine (fillAll_apart template context _).bind fun text => ?_
  split
  · exact .error id
  · exact .ok _

end Naming

namespace Compile

variable {plan : Plan} {data : Value} {configs : Entries Document}

theorem deriveFirst_apart (d : Derivation) (formulas : List (String × Value)) :
    ErrsOnly (¬ ·.IsCollision) (deriveFirst d formulas) := by
  induction formulas generalizing d with
  | nil => exact .ok _
  | cons p rest ih =>
    obtain ⟨key, formula⟩ := p
    cases formula
    case str formula =>
      rw [deriveFirst]
      split
      · refine ErrsOnly.bind ?_ fun _ => ih _
        exact ErrsOnly.mapError (K := fun _ => True) (fun _ _ => trivial) fun _ _ => id
      · exact ih _
      · exact .error id
    all_goals exact ih _

theorem deriveRest_apart (d : Derivation) (formulas : List (String × String)) :
    ErrsOnly (¬ ·.IsCollision) (deriveRest d formulas) := by
  have hfault : ∀ {α : Type} (x : Except Expression.Fault α) (key formula : String),
      ErrsOnly (¬ ·.IsCollision) (x.mapError (derivedFault key formula)) := fun _ _ _ =>
    ErrsOnly.mapError (K := fun _ => True) (fun _ _ => trivial) fun _ _ => id
  induction formulas generalizing d with
  | nil => exact .ok _
  | cons p rest ih =>
    obtain ⟨key, formula⟩ := p
    exact (hfault _ _ _).bind fun _ => (hfault _ _ _).bind fun _ => ih _

theorem applyOverlays_apart (configs : Entries Document) (overlays : List (String × Value)) :
    ErrsOnly (¬ ·.IsCollision) (applyOverlays configs overlays) := by
  induction overlays generalizing configs with
  | nil => exact .ok _
  | cons p rest ih =>
    obtain ⟨file, overlay⟩ := p
    rw [applyOverlays]
    split
    · exact .error id
    · exact (merged_apart _ _).bind fun _ => ih _

theorem injectTargets_apart (parameters : Entries Value) (configs : Entries Document)
    (targets : List (String × Target)) :
    ErrsOnly (¬ ·.IsCollision) (injectTargets parameters configs targets) := by
  have hset : ∀ file «section» data parameter value,
      ErrsOnly (¬ ·.IsCollision) (setInSection file «section» data parameter value) := by
    intro file «section» data parameter value
    rw [setInSection.eq_def]
    split
    · split
      · exact .ok _
      · exact .error id
    · exact .error id
  induction targets generalizing configs with
  | nil => exact .ok _
  | cons p rest ih =>
    obtain ⟨parameter, target⟩ := p
    rw [injectTargets]
    split
    · exact ih _
    · split
      · exact .error id
      · exact (hset _ _ _ _ _).bind fun _ => ih _

/-- A run by itself never collides. -/
theorem compileRun_apart (branch : Branch) (combo : Combination) :
    ErrsOnly (¬ ·.IsCollision) (compileRun plan data configs branch combo) := by
  have hcause : ∀ {α : Type} {x : Except Cause α}, ErrsOnly (¬ ·.IsCollision) x →
      ErrsOnly (¬ ·.IsCollision) (x.mapError Error.configuration) :=
    fun hx => hx.mapError fun _ h => h
  refine (hcause ((deriveFirst_apart _ _).bind fun _ => deriveRest_apart _ _)).bind fun d => ?_
  have hrest : ∀ name : String, ErrsOnly (¬ ·.IsCollision)
      (if !isUsableName name then .error (.configuration (.unusableRunName name))
      else do
        let configs ← applyOverlays configs plan.modifications
        let configs ← applyOverlays configs branch.settings
        let injected := plan.constants.union d.parameters
        let configs ← (inject plan configs injected).mapError Error.configuration
        .ok ⟨name, branch.name, d.parameters, configs⟩ : Except Error Run) := by
    intro name
    split
    · exact .error id
    · refine (applyOverlays_apart _ _).bind fun _ => (applyOverlays_apart _ _).bind fun _ => ?_
      exact (hcause ((injectTargets_apart _ _ _).bind fun _ => .ok _)).bind fun _ => .ok _
  -- the name comes from a template or not, and what follows is the same
  simp only
  split
  · exact (hcause (Naming.renderTemplate_apart _ _)).bind hrest
  · exact (ErrsOnly.ok _).bind hrest

/-! ### The checks before the runs -/

theorem checkOverlays_apart (plan : Plan) (configs : Entries Document) :
    ErrsOnly (¬ ·.IsCollision) (checkOverlays plan configs) := by
  have hcause : ∀ cause, unknownOverlay? plan configs = some cause → ¬ cause.IsCollision := by
    intro cause h
    simp only [unknownOverlay?, Option.orElse_eq_or, Option.or_eq_some_iff, Option.map_eq_some_iff,
      List.findSome?_eq_some_iff] at h
    rcases h with ⟨_, -, rfl⟩ | ⟨-, _, _, _, -, ⟨_, -, rfl⟩, -⟩ <;> exact id
  rw [checkOverlays]
  split
  next h => exact .error (hcause _ h)
  · exact .ok _

theorem failsOnly_rebuildDecision (source : ConfigSource) (experiment : String) (plan : Plan)
    (configs : Entries Document) (swept : List String) (o : CompileOptions) :
    FailsOnly (NoCollision source)
      (rebuildDecision source experiment plan configs swept o) := by
  refine (Resolver.failsOnly_rootOf experiment).bind fun root => ?_
  simp only
  split
  · exact (FailsOnly.pure _).bind fun _ => FailsOnly.pure _
  · exact (Resolver.failsOnly_tryResolve _ _).bind fun _ => FailsOnly.pure _

end Compile

/-! ### Directories -/

theorem Error.IsReadFault.not_isCollision : ∀ {e : Error}, e.IsReadFault → ¬ e.IsCollision
  | _, .file _ _ => id
  | _, .yaml _ => id
  | _, .json _ => id
  | _, .pointer _ _ => id

/-- Directories report no collision of names. -/
theorem ConfigSource.not_reports_ofTree (t : FileTree) (root : String) {e : Error}
    (h : e.IsCollision) : ¬ (ofTree t root).Reports e := by
  rintro (⟨experiment, hbase⟩ | ⟨experiment, hnames⟩ | ⟨experiment, file, hload⟩)
  · exact (errsOnly_baseIn t root experiment e hbase).not_isCollision h
  · change fileNamesIn t root experiment = .error e at hnames
    rw [fileNamesIn] at hnames
    split at hnames <;> cases hnames
  · exact (errsOnly_loadIn t root experiment file e hload).not_isCollision h

end ParamSweep
