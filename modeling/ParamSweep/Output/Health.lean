import ParamSweep.Output.Snapshot
import ParamSweep.Plan.Basic
import ParamSweep.Decimal.Rounded

/-!
The health of a finished run, judged by its snapshots.

`Health.metrics` measures them, `Health.issues` says what is wrong with the measures, and
`Health.status` and `Health.completeness` sum them up.
-/

namespace ParamSweep

/-- A verdict on a run. -/
inductive HealthStatus where
  | valid
  | warning
  | incomplete
  /-- The run failed at once, which is to be expected at the corners of a sweep. -/
  | failedAsExpected
  deriving DecidableEq, Inhabited

namespace HealthStatus

/-- All of them, in the order of reports. -/
def all : List HealthStatus := [.valid, .warning, .incomplete, .failedAsExpected]

/-- The name of a verdict. -/
def name : HealthStatus → String
  | .valid => "VALID"
  | .warning => "WARNING"
  | .incomplete => "INCOMPLETE"
  | .failedAsExpected => "FAILED_AS_EXPECTED"

/-- Whether the output of the run can be used. -/
def isUsable : HealthStatus → Bool
  | .valid => true
  | .warning => true
  | _ => false

end HealthStatus

/-- The smaller of two doubles; of a number and a NaN, the number. -/
def lesser (a b : Float) : Float := if a ≤ b || b.isNaN then a else b

/-- The greater of two doubles; of a number and a NaN, the number. -/
def greater (a b : Float) : Float := if b ≤ a || b.isNaN then a else b

/-- The double, or the end of the range from 0 to 1 that it lies beyond. -/
def clampUnit (x : Float) : Float := if x < 0 then 0 else if 1 < x then 1 else x

/-- What is measured of a run. -/
structure Metrics where
  snapshots : Nat
  timeCoverage : Float
  maxEvolution : Float
  hasNaN : Bool
  hasInf : Bool
  deriving Inhabited

/-- The verdict on a run and its grounds. -/
structure Health where
  status : HealthStatus
  metrics : Metrics
  completeness : Float
  issues : List String
  deriving Inhabited

namespace Health

/-- Initial values closer to zero than this count as this. -/
def relativeFloor : Float := 1e-10

/-- The part of the expected time that the snapshots cover; where no end is expected behind the
first snapshot, the part of the wanted snapshots that is there. -/
def timeCoverage (c : Criteria) (snapshots : List Snapshot) (expectedEnd : Option Float) : Float :=
  match snapshots.head?, snapshots.getLast? with
  | some first, some last =>
    let byCount := lesser (Float.ofNat snapshots.length / Float.ofNat c.minSnapshots) 1
    match expectedEnd with
    | some stop =>
      if first.time < stop then (last.time - first.time) / (stop - first.time) else byCount
    | none => byCount
  | _, _ => 0

/-- The fields that are compared between two snapshots. -/
def trackedFields (c : Criteria) (first last : Snapshot) : List String :=
  if c.trackedFields.isEmpty then first.fields.keys.filter fun k => last.fields.contains k
  else c.trackedFields

/-- The relative change from `a` to `b`. -/
def change (a b : Float) : Float :=
  let base := if a.abs < relativeFloor then relativeFloor else a
  ((b - a) / base).abs

/-- The greatest relative change of a field, if it is finite. -/
def fieldEvolution? (initial final : List Float) : Option Float :=
  let changes := List.zipWith change initial final
  if changes.any Float.isNaN then none
  else
    let most := changes.foldl greater 0
    if most.isFinite then some most else none

/-- The greatest relative change of a tracked field from the first snapshot to the last. -/
def maxEvolution (c : Criteria) (snapshots : List Snapshot) : Float :=
  match snapshots.head?, snapshots.getLast? with
  | some first, some last =>
    if snapshots.length < 2 then 0
    else
      ((trackedFields c first last).filterMap fun field => do
        let initial ← first.fields.find? field
        let final ← last.fields.find? field
        fieldEvolution? initial final).foldl greater 0
  | _, _ => 0

/-- The measures of a run. -/
def metricsOf (c : Criteria) (snapshots : List Snapshot) (expectedEnd : Option Float) : Metrics :=
  { snapshots := snapshots.length,
    timeCoverage := timeCoverage c snapshots expectedEnd,
    maxEvolution := maxEvolution c snapshots,
    hasNaN := snapshots.any Snapshot.hasNaN,
    hasInf := snapshots.any Snapshot.hasInf }

/-- How complete a run is, from 0 to 1: half of it is time, three tenths the number of snapshots,
two tenths evolution within bounds. -/
def completenessOf (c : Criteria) (m : Metrics) : Float :=
  if m.hasNaN || m.hasInf then 0
  else
    let count := lesser (Float.ofNat m.snapshots / (2.0 * Float.ofNat c.minSnapshots)) 1
    let time := clampUnit (m.timeCoverage / c.minTimeCoverage)
    let evolution := clampUnit <|
      if m.maxEvolution < c.minEvolution then m.maxEvolution / c.minEvolution
      else if c.maxEvolution < m.maxEvolution then
        1.0 - (m.maxEvolution - c.maxEvolution) / c.maxEvolution
      else 1.0
    clampUnit (0.5 * time + 0.3 * count + 0.2 * evolution)

/-- Whether there are as many snapshots as wanted. -/
def enoughSnapshots (c : Criteria) (m : Metrics) : Bool := c.minSnapshots ≤ m.snapshots

/-- Whether as much time is covered as wanted. -/
def enoughCoverage (c : Criteria) (m : Metrics) : Bool := c.minTimeCoverage ≤ m.timeCoverage

/-- Whether the fields changed less than wanted. -/
def tooLittle (c : Criteria) (m : Metrics) : Bool := m.maxEvolution < c.minEvolution

/-- Whether the fields changed more than wanted. -/
def tooMuch (c : Criteria) (m : Metrics) : Bool := c.maxEvolution < m.maxEvolution

/-- Whether every sample is finite. -/
def stable (m : Metrics) : Bool := !(m.hasNaN || m.hasInf)

/-- Whether the run failed at once. -/
def failedAtOnce (c : Criteria) (m : Metrics) : Bool := m.snapshots ≤ 1 && tooLittle c m

/-- The verdict. -/
def statusOf (c : Criteria) (m : Metrics) : HealthStatus :=
  if failedAtOnce c m then .failedAsExpected
  else if !stable m then .incomplete
  else if !enoughSnapshots c m then .incomplete
  else if !enoughCoverage c m || tooLittle c m || tooMuch c m then .warning
  else .valid

/-- The line, where a condition holds. -/
def issueIf (condition : Bool) (line : String) : List String := if condition then [line] else []

/-- What is wrong with the measures one by one. -/
def measuredIssues (c : Criteria) (m : Metrics) : List String :=
  let percent (x : Float) := Decimal.fixedPlaces 1 (x * 100.0) ++ "%"
  let power (x : Float) := Decimal.scientificPlaces 2 x
  issueIf (m.snapshots == 0) "no snapshots found" ++
  issueIf (!enoughSnapshots c m)
    ("only " ++ toString m.snapshots ++ " snapshot(s) (need >= " ++ toString c.minSnapshots ++
      ")") ++
  issueIf (!enoughCoverage c m)
    ("time coverage " ++ percent m.timeCoverage ++ " (need >= " ++ percent c.minTimeCoverage ++
      ")") ++
  issueIf (tooLittle c m)
    ("insufficient evolution (" ++ power m.maxEvolution ++ " < " ++ power c.minEvolution ++
      ")") ++
  issueIf (!tooLittle c m && tooMuch c m)
    ("evolution " ++ power m.maxEvolution ++ " exceeds " ++ power c.maxEvolution ++
      "; run blew up") ++
  issueIf m.hasNaN "NaN values detected" ++
  issueIf m.hasInf "Inf values detected"

/-- What the verdict adds to the issues. -/
def verdictIssues (c : Criteria) (m : Metrics) : List String :=
  if failedAtOnce c m then ["run failed immediately; expected at extreme parameter values"]
  else if !stable m then ["numerical instability"]
  else if !enoughSnapshots c m then
    ["run stopped unexpectedly after " ++ toString m.snapshots ++ " snapshot(s)"]
  else []

/-- The health of a run with these snapshots, in this order. An end that is expected of the run goes
before the one in the criteria. -/
def ofSnapshots (c : Criteria) (snapshots : List Snapshot) (expectedEnd : Option Float) : Health :=
  let m := metricsOf c snapshots (expectedEnd.orElse fun _ => c.expectedEndTime)
  { status := statusOf c m,
    metrics := m,
    completeness := completenessOf c m,
    issues := measuredIssues c m ++ verdictIssues c m }

/-- The health as a value. -/
def toValue (h : Health) : Value :=
  .record
    [("status", .str h.status.name), ("completeness", .float h.completeness),
     ("issues", .strings h.issues),
     ("metrics", .record
        [("n_snapshots", .nat h.metrics.snapshots),
         ("time_coverage", .float h.metrics.timeCoverage),
         ("max_evolution", .float h.metrics.maxEvolution), ("has_nan", .bool h.metrics.hasNaN),
         ("has_inf", .bool h.metrics.hasInf)])]

end Health

end ParamSweep
