import ParamSweep.Config.Resolver
import ParamSweep.Plan.Basic
import ParamSweep.Naming.Template
import ParamSweep.Expression.Evaluate
import ParamSweep.Suite.Rebuild

/-!
Compiling a plan into the runs of a suite.

Every branch is combined with every combination of the sweep. A run has a name, its parameters, and
the documents of the experiment with the plan's and the branch's overlays merged in and the
parameters put in their places.
-/

namespace ParamSweep

/-- A run of a suite. -/
structure Run where
  name : String
  branch : String
  /-- The swept and the derived values. -/
  parameters : Entries Value
  configs : Entries Document
  deriving Inhabited

/-- A compiled suite. -/
structure CompiledSuite where
  experiment : String
  runs : List Run
  rebuild : RebuildDecision
  /-- The number of runs that the plan asks for, whatever the limit. -/
  plannedRuns : Nat
  sweptVariables : List String
  deriving Inhabited

/-- How a suite is compiled. -/
structure CompileOptions where
  /-- The number of runs that are kept. -/
  limit : Option Nat := none
  forceRebuild : Bool := false
  /-- Whether changes of compiled parameters are looked for. -/
  detectRebuild : Bool := true
  deriving Inhabited

namespace CompiledSuite

/-- The names of the runs. -/
def runNames (s : CompiledSuite) : List String := s.runs.map Run.name

end CompiledSuite

/-- The documents as a value. -/
def configsValue (configs : Entries Document) : Value :=
  .mapping (configs.map fun (file, doc) => (file, doc.toValue))

/-- The run as a value. -/
def Run.toValue (r : Run) : Value :=
  .record
    [("name", .str r.name), ("branch", .str r.branch), ("parameters", .mapping r.parameters),
     ("configs", configsValue r.configs)]

/-- The suite as a value. -/
def CompiledSuite.toValue (s : CompiledSuite) : Value :=
  .record
    [("experiment", .str s.experiment), ("planned_runs", .nat s.plannedRuns),
     ("rebuild", s.rebuild.toValue), ("runs", .list (s.runs.map Run.toValue)),
     ("swept_variables", .strings s.sweptVariables)]

namespace Compile

/-- The table with every variable of a combination set. -/
def withCombination (t : Entries Value) (combo : Combination) : Entries Value :=
  combo.entries.foldl (fun acc p => acc.insert p.1 p.2) t

/-- What the output prefix may refer to. -/
def prefixContext (plan : Plan) (combo : Combination) (data : Value) : Entries Value :=
  withCombination (plan.constants.insert "data" data) combo

/-- The output prefix of a run. A template that cannot be filled in stands for itself. -/
def outputPrefix (plan : Plan) (combo : Combination) (data : Value) : String :=
  match Naming.renderTemplate plan.outputPrefix (prefixContext plan combo data) with
  | .ok text => text
  | .error _ => plan.outputPrefix

/-- What formulas and the name of a run may refer to. -/
def runContext (plan : Plan) (branch : Branch) (combo : Combination) (data : Value)
    (outputPrefix : String) : Entries Value :=
  let own := ((plan.constants.insert "output_prefix" (.str outputPrefix)).insert "branch"
    (.record [("name", .str branch.name)])).insert "data" data
  withCombination own combo

/-- What derivation has come to: what may be referred to, the parameters, and the formulas put off
because something that they name was not there. -/
structure Derivation where
  context : Entries Value
  parameters : Entries Value
  deferred : List (String × String) := []

/-- A parameter set. -/
def Derivation.set (key : String) (value : Value) (d : Derivation) : Derivation :=
  { d with context := d.context.insert key value, parameters := d.parameters.insert key value }

/-- The failure of a formula. -/
def derivedFault (key formula : String) (fault : Expression.Fault) : Cause :=
  .derivedParameter key formula fault

/-- Derives what can be derived, and puts off what names something that is not there. -/
def deriveFirst (d : Derivation) : List (String × Value) → Except Cause Derivation
  | [] => .ok d
  | (key, .str formula) :: rest =>
    match Expression.evaluate formula d.context with
    | .ok n => do
      let value ← (Expression.toValue n).mapError (derivedFault key formula)
      deriveFirst (d.set key value) rest
    | .error (.unknownIdentifier _) =>
      deriveFirst { d with deferred := d.deferred ++ [(key, formula)] } rest
    | .error fault => .error (derivedFault key formula fault)
  | (key, value) :: rest => deriveFirst (d.set key value) rest

/-- Derives what was put off. -/
def deriveRest (d : Derivation) : List (String × String) → Except Cause Derivation
  | [] => .ok d
  | (key, formula) :: rest => do
    let n ← (Expression.evaluate formula d.context).mapError (derivedFault key formula)
    let value ← (Expression.toValue n).mapError (derivedFault key formula)
    deriveRest (d.set key value) rest

/-- Derives the parameters of a plan. -/
def derive (plan : Plan) (context parameters : Entries Value) : Except Cause Derivation := do
  let d ← deriveFirst ⟨context, parameters, []⟩ plan.derivedParameters
  deriveRest d d.deferred

/-- Whether a name can be that of a directory and of a line in the manifest. -/
def isUsableName (name : String) : Bool :=
  !Text.blankText name && !name.toList.contains '/' && !name.toList.contains '\n'

/-- Merges overlays into the data of the documents that they are for. -/
def applyOverlays (configs : Entries Document) :
    List (String × Value) → Except Error (Entries Document)
  | [] => .ok configs
  | (file, overlay) :: rest =>
    match configs.find? file with
    | none => .error (.configuration (.unknownFile file))
    | some doc => do
      let data ← merged doc.data overlay
      applyOverlays (configs.insert file { doc with data := data }) rest

/-- The data with a parameter set in a section. -/
def setInSection (file «section» : String) (data : Value) (parameter : String) (value : Value) :
    Except Cause Value :=
  match data with
  | .mapping t =>
    match (Entries.find? «section» t).getD (.mapping []) with
    | .mapping inner =>
      .ok (.mapping (Entries.insert «section» (.mapping (Entries.insert parameter value inner)) t))
    | _ => .error (.targetSectionNotMapping file «section»)
  | _ => .error (.targetDataNotMapping file)

/-- Puts the parameters that have a target into it. -/
def injectTargets (parameters : Entries Value) (configs : Entries Document) :
    List (String × Target) → Except Cause (Entries Document)
  | [] => .ok configs
  | (parameter, target) :: rest =>
    match parameters.find? parameter with
    | none => injectTargets parameters configs rest
    | some value =>
      match configs.find? target.file with
      | none => .error (.targetOfUnknownFile parameter target.file)
      | some doc => do
        let data ← setInSection target.file target.section doc.data parameter value
        injectTargets parameters (configs.insert target.file { doc with data := data }) rest

mutual

/-- The value with every entry `key` in it set, wherever it stands in nested mappings. -/
def replaceKey (key : String) (value : Value) : Value → Value
  | .mapping entries => .mapping (replaceKeyIn key value entries)
  | v => v

/-- The same for the entries of a mapping; none is added. -/
def replaceKeyIn (key : String) (value : Value) : List (String × Value) → List (String × Value)
  | [] => []
  | (k, v) :: rest =>
    (k, if k = key then value else replaceKey key value v) :: replaceKeyIn key value rest

end

/-- The documents with a parameter set wherever it stands in them. -/
def replaceEverywhere (configs : Entries Document) (parameter : String) (value : Value) :
    Entries Document :=
  configs.map fun (file, doc) => (file, { doc with data := replaceKey parameter value doc.data })

/-- Puts the parameters in their places: those with a target there, the others wherever they are
named already. -/
def inject (plan : Plan) (configs : Entries Document) (parameters : Entries Value) :
    Except Cause (Entries Document) := do
  let configs ← injectTargets parameters configs plan.parameterTargets
  let free := parameters.filter fun (k, _) => !plan.parameterTargets.contains k
  .ok (free.foldl (fun acc p => replaceEverywhere acc p.1 p.2) configs)

/-- The run of a branch and a combination. -/
def compileRun (plan : Plan) (data : Value) (configs : Entries Document) (branch : Branch)
    (combo : Combination) : Except Error Run := do
  let outPrefix := outputPrefix plan combo data
  let context := runContext plan branch combo data outPrefix
  let d ← (derive plan context combo.toEntries).mapError Error.configuration
  let name ← match plan.runNameTemplate with
    | some template => (Naming.renderTemplate template d.context).mapError Error.configuration
    | none => .ok (Naming.fallbackName outPrefix branch.name combo.entries)
  if !isUsableName name then .error (.configuration (.unusableRunName name))
  else
    let configs ← applyOverlays configs plan.modifications
    let configs ← applyOverlays configs branch.settings
    let injected := plan.constants.union d.parameters
    let configs ← (inject plan configs injected).mapError Error.configuration
    .ok ⟨name, branch.name, d.parameters, configs⟩

/-- The runs of branches and combinations, in order; no two of them may have one name. -/
def compileRuns (plan : Plan) (data : Value) (configs : Entries Document) (seen : List String) :
    List (Branch × Combination) → Except Error (List Run)
  | [] => .ok []
  | (branch, combo) :: rest => do
    let run ← compileRun plan data configs branch combo
    if seen.contains run.name then .error (.configuration (.nameCollision run.name branch.name))
    else
      let runs ← compileRuns plan data configs (run.name :: seen) rest
      .ok (run :: runs)

/-- The first overlay of the plan or of a branch that is for no file of the experiment. -/
def unknownOverlay? (plan : Plan) (configs : Entries Document) : Option Cause :=
  ((plan.modifications.keys.find? fun f => !configs.contains f).map
    .modificationOfUnknownFile).orElse fun _ =>
  plan.effectiveBranches.findSome? fun b =>
    (b.settings.keys.find? fun f => !configs.contains f).map (.overlayOfUnknownFile b.name)

/-- Refuses overlays that are for no file of the experiment. -/
def checkOverlays (plan : Plan) (configs : Entries Document) : Except Error Unit :=
  match unknownOverlay? plan configs with
  | some cause => .error (.configuration cause)
  | none => .ok ()

/-- The decision whether to build, against the root of the chain. -/
def rebuildDecision (source : ConfigSource) (experiment : String) (plan : Plan)
    (configs : Entries Document) (swept : List String) (o : CompileOptions) :
    Resolving RebuildDecision := do
  let root ← Resolver.rootOf source experiment
  let base ← if root = experiment then pure none
    else Resolver.tryResolve source root criticalParameterFile
  let suite := configs.find? criticalParameterFile
  let inputs : RebuildInputs := ⟨plan, base.map Document.data, suite.map Document.data, swept⟩
  return inputs.decide o.detectRebuild o.forceRebuild

/-- The data that names may refer to. -/
def prefixData (plan : Plan) (configs : Entries Document) : Value :=
  ((configs.find? (plan.prefixDataFile.getD criticalParameterFile)).map Document.data).getD
    (.mapping [])

end Compile

/-- Compiles the plan of an experiment. -/
def compileSuite (source : ConfigSource) (experiment : String) (plan : Plan)
    (o : CompileOptions) : Resolving CompiledSuite := do
  let sweep ← Resolver.ofExcept ((Sweep.ofSpecs plan.parameterSweeps).mapError Error.configuration)
  modify (Resolver.declareBase? experiment plan.baseExperiment)
  let configs ← Resolver.resolveAll source experiment
  Resolver.ofExcept (Compile.checkOverlays plan configs)
  let rebuild ← Compile.rebuildDecision source experiment plan configs sweep.names o
  let pairs := plan.effectiveBranches.flatMap fun b => sweep.expand.map fun c => (b, c)
  let runs ← Resolver.ofExcept
    (Compile.compileRuns plan (Compile.prefixData plan configs) configs [] pairs)
  return {
    experiment := experiment,
    runs := (o.limit.map runs.take).getD runs,
    rebuild := rebuild, plannedRuns := runs.length, sweptVariables := sweep.names }

end ParamSweep
