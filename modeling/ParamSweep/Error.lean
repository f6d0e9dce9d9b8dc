import ParamSweep.Text.Quoted
import ParamSweep.Text.Pieces
import ParamSweep.Expression.Evaluate

/-!
What can go wrong, as causes, and the one place that words them.

`Cause` lists the ways in which a plan, a configuration document or an experiment's files can be
unusable; `Error` adds the scheduler, missing files and unreadable texts. Errors of the kinds
`Error.stopsPolling` end a wait at once, all others let it go on.
-/

namespace ParamSweep

/-- Why the file system refused an operation. -/
inductive FileFault where
  | notFound
  | notPermitted
  | permissionDenied
  | notProgram
  | busy
  | alreadyThere
  | notDirectory
  | isDirectory
  | invalidArgument
  | nameTooLong
  | notEmpty
  | invalidName
  | invalidText
  | notText
  deriving DecidableEq, Inhabited

/-- The wording of a refused operation. -/
def FileFault.message : FileFault → String
  | .notFound => "No such file or directory (os error 2)"
  | .notPermitted => "Operation not permitted (os error 1)"
  | .permissionDenied => "Permission denied (os error 13)"
  | .notProgram => "Exec format error (os error 8)"
  | .busy => "Device or resource busy (os error 16)"
  | .alreadyThere => "File exists (os error 17)"
  | .notDirectory => "Not a directory (os error 20)"
  | .isDirectory => "Is a directory (os error 21)"
  | .invalidArgument => "Invalid argument (os error 22)"
  | .nameTooLong => "File name too long (os error 36)"
  | .notEmpty => "Directory not empty (os error 39)"
  | .invalidName => "file name contained an unexpected NUL byte"
  | .invalidText => "nul byte found in provided data"
  | .notText => "stream did not contain valid UTF-8"

/-- Where a tree departs from the shape of a plan or of a snapshot. -/
inductive ShapeFault where
  | unknownField (name : String)
  | missingField (name : String)
  | invalidType
  | invalidValue
  | invalidLength
  deriving DecidableEq, Inhabited

/-- The wording of a wrong shape. -/
def ShapeFault.message : ShapeFault → String
  | .unknownField name => "unknown field `" ++ name ++ "`"
  | .missingField name => "missing field `" ++ name ++ "`"
  | .invalidType => "invalid type"
  | .invalidValue => "invalid value"
  | .invalidLength => "invalid length"

/-- Why a snapshot cannot be read. -/
inductive SnapshotFault where
  /-- No JSON text, or one of another shape. -/
  | unreadable
  | missingField (name : String)
  | unsupportedSample (field sample : String)
  deriving DecidableEq, Inhabited

/-- The wording of an unreadable snapshot, where there is more to say than that. -/
def SnapshotFault.message? : SnapshotFault → Option String
  | .unreadable => none
  | .missingField name => some ("missing field `" ++ name ++ "`")
  | .unsupportedSample field sample =>
    some ("field '" ++ field ++ "': unsupported sample " ++ Text.quoted sample)

/-- Why a configuration cannot be used. -/
inductive Cause where
  -- plans
  | noPlan (path : String)
  | invalidPlan (path : Option String) (fault : ShapeFault)
  | emptyBranchName
  | duplicateBranch (name : String)
  | emptyRenderCommand
  | noMinimumOfSnapshots
  | thresholdNotPositive
  | evolutionBoundsCrossed
  -- sweeps
  | linkedWithoutVariables (group : Nat)
  | linkedWithBlankNames (group : Nat)
  | productWithoutVariable (group : Nat)
  | unknownSweepKind (group : Nat) (kind : String)
  | groupWithoutValues (group : Nat)
  -- documents
  | documentNotMapping (file kind : String)
  | formatNotText (file kind : String)
  | dataNotMapping (file kind : String)
  | nestingTooDeep (levels : Nat)
  -- inheritance
  | basePointerNotName (path found : String)
  | noConfigDirectory (experiment : String)
  | baseWithoutDirectory (experiment base : String)
  | documentNotFound (file : String) (chain : List String)
  -- compilation
  | modificationOfUnknownFile (file : String)
  | overlayOfUnknownFile (branch file : String)
  | unknownFile (file : String)
  | nameCollision (name branch : String)
  | unusableRunName (name : String)
  | derivedParameter (name formula : String) (fault : Expression.Fault)
  | targetOfUnknownFile (parameter file : String)
  | targetDataNotMapping (file : String)
  | targetSectionNotMapping (file section' : String)
  -- names
  | unknownTemplateName (template path : String)
  | unknownFilter (name : String)
  | unsupportedPlaceholder (template : String)
  -- rendering
  | unsupportedFormat (format file : String)
  | noRenderCommand
  | renderCommandNotFound (program : String)
  | renderCommandNotStarted (program : String) (fault : FileFault)
  | renderCommandFailed (program file status stderr : String)
  | renderedNotText (program file : String)
  | renderOfRun (run file : String) (wording : String)
  -- scripts
  | directiveNotScalar (key found : String)
  | directiveReserved (key : String)
  | scriptWithoutRuns
  | suiteWithoutRuns
  -- experiments
  | unwritableRunName (name : String)
  | invalidBatchId (id : String)
  | emptyBatchId (path : String)
  | noSubmitScript (path : String)
  | manifestWithoutRuns
  | invalidSubmitPattern (pattern : String)
  | submitPatternWithoutGroup (pattern : String)
  | invalidSnapshot (path : String) (fault : SnapshotFault)
  deriving Inhabited

/-- The wording of a cause. -/
def Cause.message : Cause → String
  | .noPlan path => "no sweep plan at " ++ path
  | .invalidPlan none fault => "invalid plan: " ++ fault.message
  | .invalidPlan (some path) fault => "invalid plan " ++ path ++ ": " ++ fault.message
  | .emptyBranchName => "branch name cannot be empty"
  | .duplicateBranch name => "duplicate branch name '" ++ name ++ "'"
  | .emptyRenderCommand => "render_command cannot be an empty list"
  | .noMinimumOfSnapshots => "validation.min_snapshots must be >= 1"
  | .thresholdNotPositive => "validation thresholds must be positive"
  | .evolutionBoundsCrossed =>
    "validation.min_evolution must not exceed validation.max_evolution"
  | .linkedWithoutVariables group => groupText group ++ "linked group requires `variables`"
  | .linkedWithBlankNames group =>
    groupText group ++ "linked group `variables` must be non-empty names"
  | .productWithoutVariable group => groupText group ++ "product group requires `variable`"
  | .unknownSweepKind group kind =>
    groupText group ++ "unknown sweep type '" ++ kind ++ "' (expected linked|product)"
  | .groupWithoutValues group => groupText group ++ "`values` must contain at least one entry"
  | .documentNotMapping file kind =>
    "config file " ++ file ++ " must be a mapping, found " ++ kind
  | .formatNotText file kind =>
    "config file " ++ file ++ ": `format` must be a string, found " ++ kind
  | .dataNotMapping file kind =>
    "config file " ++ file ++ ": `data` must be a mapping, found " ++ kind
  | .nestingTooDeep levels => "configuration nesting exceeds " ++ toString levels ++ " levels"
  | .basePointerNotName path found =>
    path ++ ": `base_config` must be an experiment name, found " ++ found
  | .noConfigDirectory experiment =>
    "experiment '" ++ experiment ++ "' has no configuration directory"
  | .baseWithoutDirectory experiment base =>
    "'" ++ experiment ++ "' inherits from '" ++ base ++ "', which has no configuration directory"
  | .documentNotFound file chain =>
    "config file '" ++ file ++ "' not found in " ++ Text.joined " -> " chain
  | .modificationOfUnknownFile file => "modifications name unknown config file '" ++ file ++ "'"
  | .overlayOfUnknownFile branch file =>
    "branch '" ++ branch ++ "' overlays unknown config file '" ++ file ++ "'"
  | .unknownFile file => "unknown config file '" ++ file ++ "'"
  | .nameCollision name branch =>
    "run name collision: '" ++ name ++ "' (branch '" ++ branch ++
      "'); make run_name_template distinguish every combination"
  | .unusableRunName name =>
    "run name " ++ Text.quoted name ++ " is not usable as a directory name"
  | .derivedParameter name formula fault =>
    "derived parameter '" ++ name ++ "' = '" ++ formula ++ "': " ++ fault.message
  | .targetOfUnknownFile parameter file =>
    "parameter target for '" ++ parameter ++ "' names unknown config file '" ++ file ++ "'"
  | .targetDataNotMapping file => file ++ ": data is not a mapping"
  | .targetSectionNotMapping file section' =>
    file ++ ": section '" ++ section' ++ "' is not a mapping"
  | .unknownTemplateName template path =>
    "template '" ++ template ++ "' references unknown name '" ++ path ++ "'"
  | .unknownFilter name => "unknown template filter '" ++ name ++ "'"
  | .unsupportedPlaceholder template =>
    "template '" ++ template ++ "' has an unsupported placeholder"
  | .unsupportedFormat format file =>
    "format '" ++ format ++ "' of " ++ file ++
      " needs an external renderer (set render_command in the plan)"
  | .noRenderCommand => "render command cannot be empty"
  | .renderCommandNotFound program => "render command `" ++ program ++ "` not found"
  | .renderCommandNotStarted program fault =>
    "could not start render command `" ++ program ++ "`: " ++ fault.message
  | .renderCommandFailed program file status stderr =>
    "render command `" ++ program ++ "` failed for " ++ file ++ " (" ++ status ++ "): " ++ stderr
  | .renderedNotText program file =>
    "render command `" ++ program ++ "` produced non-utf8 output for " ++ file
  | .renderOfRun run file wording => "run '" ++ run ++ "', " ++ file ++ ": " ++ wording
  | .directiveNotScalar key found => "hpc.sbatch." ++ key ++ " must be a scalar, found " ++ found
  | .directiveReserved key =>
    "hpc.sbatch." ++ key ++ " is set by the generator and cannot be overridden"
  | .scriptWithoutRuns => "cannot build a submit script for zero runs"
  | .suiteWithoutRuns => "suite has no runs to generate"
  | .unwritableRunName name =>
    "run name " ++ Text.quoted name ++ " cannot be written to the manifest"
  | .invalidBatchId id => "invalid batch id " ++ Text.quoted id
  | .emptyBatchId path => "batch id file " ++ path ++ " is empty"
  | .noSubmitScript path => "no submit script at " ++ path ++ " (generate the suite first)"
  | .manifestWithoutRuns => "manifest lists no runs"
  | .invalidSubmitPattern pattern => "invalid submit_pattern '" ++ pattern ++ "'"
  | .submitPatternWithoutGroup pattern =>
    "submit_pattern '" ++ pattern ++ "' needs a capture group for the batch id"
  | .invalidSnapshot path fault =>
    "invalid snapshot " ++ path ++ (fault.message?.elim "" (": " ++ ·))
where
  /-- The place of a sweep group in the plan. -/
  groupText (group : Nat) : String := "parameter_sweeps[" ++ toString group ++ "]: "

/-- The failures of the library. -/
inductive Error where
  | configuration (cause : Cause)
  | circularInheritance (chain : List String)
  | schedulerUnavailable (command : String)
  | schedulerCommandFailed (command status stderr : String)
  | unparsedSubmission (stdout : String)
  | manifestMissing (path : String)
  | batchHandleMissing (path : String)
  | file (path : String) (fault : FileFault)
  | invalidYaml (path : String)
  | invalidJson (fault : SnapshotFault)
  /-- The counter of polls ran over: no failure that is reported, the program itself breaks off. -/
  | tooManyPolls
  deriving Inhabited

namespace Error

/-- The wording of an error. -/
def message : Error → String
  | .configuration cause => "configuration error: " ++ cause.message
  | .circularInheritance chain =>
    "circular configuration inheritance: " ++ Text.joined " -> " chain
  | .schedulerUnavailable command =>
    "scheduler command `" ++ command ++ "` not found (is this an HPC login node?)"
  | .schedulerCommandFailed command status stderr =>
    "scheduler command `" ++ command ++ "` exited with " ++ status ++ ": " ++ stderr
  | .unparsedSubmission stdout =>
    "could not parse a batch id from submission output:\n" ++ stdout
  | .manifestMissing path => "run manifest not found at " ++ path
  | .batchHandleMissing path =>
    "batch handle not found at " ++ path ++ " (was the suite submitted?)"
  | .file path fault => path ++ ": " ++ fault.message
  | .invalidYaml path => "invalid yaml in " ++ path
  | .invalidJson fault => fault.message?.getD ""
  | .tooManyPolls => "attempt to add with overflow"

/-- The stable name of the kind of error. -/
def code : Error → String
  | .configuration _ => "configuration_error"
  | .circularInheritance _ => "circular_inheritance"
  | .schedulerUnavailable _ => "scheduler_unavailable"
  | .schedulerCommandFailed _ _ _ => "scheduler_command_failed"
  | .unparsedSubmission _ => "unparsed_submission"
  | .manifestMissing _ => "manifest_missing"
  | .batchHandleMissing _ => "batch_handle_missing"
  | .file _ _ => "io_error"
  | .invalidYaml _ => "yaml_error"
  | .invalidJson _ => "json_error"
  | .tooManyPolls => "panic"

/-- The errors after which polling stops instead of trying again. -/
def stopsPolling : Error → Bool
  | .schedulerUnavailable _ => true
  | .manifestMissing _ => true
  | .batchHandleMissing _ => true
  | _ => false

end Error

end ParamSweep
