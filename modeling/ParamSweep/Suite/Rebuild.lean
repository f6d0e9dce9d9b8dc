import ParamSweep.Plan.Basic

/-!
Whether the jobs of a suite build the program anew.

Building is the default, and a plan may switch it off; but where a parameter that is compiled into
the program may differ from the base experiment, building is forced, whatever the plan says.
-/

namespace ParamSweep

/-- The parameters that are compiled into the program. -/
def criticalParameters : List String :=
  ["nxgrid", "nygrid", "nzgrid", "ncpus", "nprocx", "nprocy", "nprocz"]

/-- The document that holds the compiled parameters. -/
def criticalParameterFile : String := "cparam_local.yaml"

/-- The documents that the build reads. -/
def criticalFiles : List String := ["cparam_local.yaml", "Makefile_local.yaml"]

/-- Why the program is built or not. -/
inductive RebuildReason where
  | byDefault
  | disabledByPlan
  | criticalParameterChanged (parameter : String) (base suite : Value)
  | sweepTouchesCritical (var : String)
  | targetTouchesCritical (parameter : String)
  | planModifiesCriticalFile (file : String)
  | branchModifiesCriticalFile (branch file : String)
  | forced
  deriving Inhabited

namespace RebuildReason

/-- Whether the reason is a parameter that may differ. -/
def isCritical : RebuildReason → Bool
  | .byDefault => false
  | .disabledByPlan => false
  | .forced => false
  | _ => true

/-- The wording of a reason. -/
def describe : RebuildReason → String
  | .byDefault => "rebuild enabled by default"
  | .disabledByPlan => "disabled by plan configuration"
  | .criticalParameterChanged parameter base suite =>
    "critical parameter '" ++ parameter ++ "' differs from base (" ++ base.compact ++ " vs " ++
      suite.compact ++ ")"
  | .sweepTouchesCritical var => "sweep varies critical parameter '" ++ var ++ "'"
  | .targetTouchesCritical parameter =>
    "parameter target injects critical parameter '" ++ parameter ++ "'"
  | .planModifiesCriticalFile file => "plan modifications touch '" ++ file ++ "'"
  | .branchModifiesCriticalFile branch file =>
    "branch '" ++ branch ++ "' modifies '" ++ file ++ "'"
  | .forced => "forced from the command line"

/-- The reason as a value. -/
def toValue : RebuildReason → Value
  | .byDefault => .record [("kind", .str "default")]
  | .disabledByPlan => .record [("kind", .str "disabled_by_plan")]
  | .criticalParameterChanged parameter base suite =>
    .record
      [("kind", .str "critical_param_changed"), ("param", .str parameter), ("base", base),
       ("suite", suite)]
  | .sweepTouchesCritical var =>
    .record [("kind", .str "sweep_touches_critical"), ("variable", .str var)]
  | .targetTouchesCritical parameter =>
    .record [("kind", .str "target_touches_critical"), ("param", .str parameter)]
  | .planModifiesCriticalFile file =>
    .record [("kind", .str "plan_modifies_critical_file"), ("file", .str file)]
  | .branchModifiesCriticalFile branch file =>
    .record
      [("kind", .str "branch_modifies_critical_file"), ("branch", .str branch),
       ("file", .str file)]
  | .forced => .record [("kind", .str "forced")]

end RebuildReason

/-- Whether the program is built, and why. -/
structure RebuildDecision where
  rebuild : Bool
  reason : RebuildReason
  deriving Inhabited

/-- The decision as a value. -/
def RebuildDecision.toValue (d : RebuildDecision) : Value :=
  .record [("rebuild", .bool d.rebuild), ("reason", d.reason.toValue)]

/-- What the decision looks at. -/
structure RebuildInputs where
  plan : Plan
  /-- The compiled parameters of the root base experiment. -/
  baseParameters : Option Value
  /-- The compiled parameters of the suite before any branch. -/
  suiteParameters : Option Value
  sweepVariables : List String

namespace RebuildInputs

/-- A parameter of a document, null where it is missing. -/
def parameter (name : String) (data : Option Value) : Value :=
  (data.bind (Value.get? name)).getD .null

/-- The first compiled parameter that differs between base and suite. -/
def changedParameter (i : RebuildInputs) : Option RebuildReason :=
  i.baseParameters.bind fun base =>
    criticalParameters.findSome? fun p =>
      let b := parameter p (some base)
      let s := parameter p i.suiteParameters
      if b.agrees s then none else some (.criticalParameterChanged p b s)

/-- The first critical file that a branch has settings for. -/
def branchTrigger (b : Branch) : Option RebuildReason :=
  (criticalFiles.find? fun f => b.settings.contains f).map (.branchModifiesCriticalFile b.name)

/-- The first reason to think that a compiled parameter may differ. -/
def criticalTrigger (i : RebuildInputs) : Option RebuildReason :=
  i.changedParameter.orElse fun _ =>
  ((i.sweepVariables.find? criticalParameters.contains).map .sweepTouchesCritical).orElse fun _ =>
  ((i.plan.parameterTargets.keys.find? criticalParameters.contains).map
    .targetTouchesCritical).orElse fun _ =>
  ((criticalFiles.find? fun f => i.plan.modifications.contains f).map
    .planModifiesCriticalFile).orElse fun _ =>
  i.plan.branches.findSome? branchTrigger

/-- The decision for a whole suite; `detect` looks for critical changes, and `force` overrides all
else. -/
def decide (i : RebuildInputs) (detect force : Bool) : RebuildDecision :=
  if force then ⟨true, .forced⟩
  else
    let trigger := if detect then i.criticalTrigger else none
    match trigger with
    | some reason => ⟨true, reason⟩
    | none => if i.plan.disableAutoRebuild then ⟨false, .disabledByPlan⟩ else ⟨true, .byDefault⟩

end RebuildInputs

end ParamSweep
