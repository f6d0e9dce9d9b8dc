import Mathlib.Tactic.SplitIfs
import ParamSweep.Output.Health

/-!
The verdict on a run, its issues and its weight.

They are drawn from the same measures by separate chains of conditions: `statusOf` stops at the
first condition that decides, `measuredIssues` names every measure that is not as wanted, and
`completenessOf` looks at unstable samples before anything else. Each chain is turned into the
conditions that it comes down to (`statusOf_eq_valid_iff`, `measuredIssues_eq_nil_iff`), and
`consistent_ofSnapshots` holds them against each other.
-/

namespace ParamSweep

/-! ### Unstable samples -/

/-- Some sample of some field of some snapshot is NaN or infinite. -/
def Unstable (snapshots : List Snapshot) : Prop :=
  ∃ s ∈ snapshots, ∃ field ∈ s.fields, ∃ x ∈ field.2, x.isNaN = true ∨ x.isInf = true

namespace Snapshot

theorem mem_samples_iff {s : Snapshot} {x : Float} :
    x ∈ s.samples ↔ ∃ field ∈ s.fields, x ∈ field.2 :=
  List.mem_flatMap

end Snapshot

namespace Health

variable {c : Criteria} {m : Metrics} {snapshots : List Snapshot} {stop : Option Float}

theorem stable_iff : stable m = true ↔ m.hasNaN = false ∧ m.hasInf = false := by
  simp [stable]

/-- The measures know of every unstable sample. -/
theorem stable_metricsOf_eq_false_iff :
    stable (metricsOf c snapshots stop) = false ↔ Unstable snapshots := by
  have hany : ∀ s : Snapshot, (s.hasNaN = true ∨ s.hasInf = true) ↔
      ∃ field ∈ s.fields, ∃ x ∈ field.2, x.isNaN = true ∨ x.isInf = true := by
    intro s
    rw [Snapshot.hasNaN, Snapshot.hasInf, List.any_eq_true, List.any_eq_true]
    simp only [Snapshot.mem_samples_iff]
    constructor
    · rintro (⟨x, ⟨field, hfield, hx⟩, hnan⟩ | ⟨x, ⟨field, hfield, hx⟩, hinf⟩)
      · exact ⟨field, hfield, x, hx, .inl hnan⟩
      · exact ⟨field, hfield, x, hx, .inr hinf⟩
    · rintro ⟨field, hfield, x, hx, hnan | hinf⟩
      · exact .inl ⟨x, ⟨field, hfield, hx⟩, hnan⟩
      · exact .inr ⟨x, ⟨field, hfield, hx⟩, hinf⟩
  rw [stable, Bool.not_eq_false', Bool.or_eq_true, metricsOf, List.any_eq_true, List.any_eq_true,
    ← exists_or, Unstable]
  simp only [← and_or_left, hany]

/-! ### What each chain of conditions comes down to -/

theorem failedAtOnce_iff : failedAtOnce c m = true ↔ m.snapshots ≤ 1 ∧ tooLittle c m = true := by
  rw [failedAtOnce, Bool.and_eq_true, decide_eq_true_eq]

/-- Nothing is wrong with the measures, one by one. -/
structure AsWanted (c : Criteria) (m : Metrics) : Prop where
  stable : stable m = true
  enoughSnapshots : enoughSnapshots c m = true
  enoughCoverage : enoughCoverage c m = true
  notTooLittle : tooLittle c m = false
  notTooMuch : tooMuch c m = false

theorem statusOf_eq_failedAsExpected_iff :
    statusOf c m = .failedAsExpected ↔ failedAtOnce c m = true := by
  rw [statusOf]
  split_ifs <;> simp_all

theorem statusOf_eq_valid_iff : statusOf c m = .valid ↔ AsWanted c m := by
  constructor
  · intro h
    rw [statusOf] at h
    split_ifs at h with _ hstable henough hmeasures
    simp only [Bool.or_eq_true, Bool.not_eq_true', not_or, Bool.not_eq_true, Bool.not_eq_false]
      at hstable henough hmeasures
    exact ⟨hstable, henough, hmeasures.1.1, hmeasures.1.2, hmeasures.2⟩
  · rintro ⟨hstable, henough, hcoverage, hlittle, hmuch⟩
    simp [statusOf, failedAtOnce, *]

theorem isUsable_statusOf_iff :
    (statusOf c m).isUsable = true ↔
      failedAtOnce c m = false ∧ stable m = true ∧ enoughSnapshots c m = true := by
  rw [statusOf]
  split_ifs <;> simp_all [HealthStatus.isUsable]

theorem issueIf_eq_nil_iff {condition : Bool} {line : String} :
    issueIf condition line = [] ↔ condition = false := by
  cases condition <;> simp [issueIf]

theorem measuredIssues_eq_nil_iff :
    measuredIssues c m = [] ↔ m.snapshots ≠ 0 ∧ AsWanted c m := by
  simp only [measuredIssues, List.append_eq_nil_iff, issueIf_eq_nil_iff, Bool.not_eq_false',
    beq_eq_false_iff_ne, Bool.and_eq_false_imp, Bool.not_eq_true']
  constructor
  · rintro ⟨⟨⟨⟨⟨⟨hsome, henough⟩, hcoverage⟩, hlittle⟩, hmuch⟩, hnan⟩, hinf⟩
    exact ⟨hsome, stable_iff.2 ⟨hnan, hinf⟩, henough, hcoverage, hlittle, hmuch hlittle⟩
  · rintro ⟨hsome, hstable, henough, hcoverage, hlittle, hmuch⟩
    obtain ⟨hnan, hinf⟩ := stable_iff.1 hstable
    exact ⟨⟨⟨⟨⟨⟨hsome, henough⟩, hcoverage⟩, hlittle⟩, fun _ => hmuch⟩, hnan⟩, hinf⟩

/-- The verdict adds an issue of its own just where the run cannot be used. -/
theorem verdictIssues_eq_nil_iff : verdictIssues c m = [] ↔ (statusOf c m).isUsable = true := by
  rw [isUsable_statusOf_iff, verdictIssues]
  split_ifs <;> simp_all

theorem AsWanted.isUsable (h : AsWanted c m) : (statusOf c m).isUsable = true := by
  rw [statusOf_eq_valid_iff.2 h]
  rfl

theorem completenessOf_of_not_stable (h : stable m = false) : completenessOf c m = 0 := by
  rw [stable, Bool.not_eq_false'] at h
  rw [completenessOf, if_pos h]

/-! ### The chains against each other -/

/-- The verdict on a run goes with its issues and with its weight. -/
structure Consistent (c : Criteria) (snapshots : List Snapshot) (h : Health) : Prop where
  /-- The run is valid just where nothing is found wrong. -/
  valid_iff : h.status = .valid ↔ h.issues = []
  /-- A single unstable sample takes all weight from the run, and makes it unusable. -/
  unstable : Unstable snapshots →
    h.completeness = 0 ∧ h.status ≠ .valid ∧ h.status ≠ .warning
  /-- A run that can be used has as many snapshots as wanted. -/
  usable : h.status = .valid ∨ h.status = .warning → c.minSnapshots ≤ snapshots.length
  /-- Only a run that stopped at once may be expected to fail. -/
  failedAsExpected : h.status = .failedAsExpected → snapshots.length ≤ 1

theorem isUsable_iff {status : HealthStatus} :
    status.isUsable = true ↔ status = .valid ∨ status = .warning := by
  cases status <;> simp [HealthStatus.isUsable]

/-- Where the criteria of a plan are accepted, verdict, issues and weight of every run agree. -/
theorem consistent_ofSnapshots (hc : Plan.criteriaFault c = none) (snapshots : List Snapshot)
    (expectedEnd : Option Float) :
    Consistent c snapshots (ofSnapshots c snapshots expectedEnd) := by
  obtain ⟨m, hm⟩ : ∃ m, m = metricsOf c snapshots (expectedEnd.orElse fun _ => c.expectedEndTime) :=
    ⟨_, rfl⟩
  have hhealth : ofSnapshots c snapshots expectedEnd =
      ⟨statusOf c m, m, completenessOf c m, measuredIssues c m ++ verdictIssues c m⟩ := by
    rw [hm, ofSnapshots]
  have hcount : m.snapshots = snapshots.length := by rw [hm, metricsOf]
  have henough : enoughSnapshots c m = true ↔ c.minSnapshots ≤ snapshots.length := by
    rw [enoughSnapshots, decide_eq_true_eq, hcount]
  -- accepted criteria ask for a snapshot, so that a run without any has too few of them
  have hmin : c.minSnapshots ≠ 0 := fun hzero => by simp [Plan.criteriaFault, hzero] at hc
  rw [hhealth]
  refine ⟨?valid_iff, fun hunstable => ⟨?weight, ?notUsable⟩, fun husable => ?usable,
    fun hfailed => ?failed⟩
  case valid_iff =>
    show statusOf c m = .valid ↔ measuredIssues c m ++ verdictIssues c m = []
    rw [List.append_eq_nil_iff, statusOf_eq_valid_iff, measuredIssues_eq_nil_iff,
      verdictIssues_eq_nil_iff]
    constructor
    · intro h
      have := henough.1 h.enoughSnapshots
      exact ⟨⟨by omega, h⟩, h.isUsable⟩
    · exact fun ⟨⟨_, h⟩, _⟩ => h
  case weight =>
    exact completenessOf_of_not_stable (hm ▸ stable_metricsOf_eq_false_iff.2 hunstable)
  case notUsable =>
    have hstable : stable m = false := hm ▸ stable_metricsOf_eq_false_iff.2 hunstable
    rw [← not_or, ← isUsable_iff, isUsable_statusOf_iff, hstable]
    simp
  case usable =>
    exact henough.1 (isUsable_statusOf_iff.1 (isUsable_iff.2 husable)).2.2
  case failed =>
    rw [← hcount]
    exact (failedAtOnce_iff.1 (statusOf_eq_failedAsExpected_iff.1 hfailed)).1

/-- A run of one snapshot with a NaN in it, where one snapshot is enough. -/
theorem consistent_of_single_nan :
    Plan.criteriaFault { minSnapshots := 1 } = none ∧
      Unstable [⟨0, [("rho", [1, 0 / 0])]⟩] ∧
      Consistent { minSnapshots := 1 } [⟨0, [("rho", [1, 0 / 0])]⟩]
        (ofSnapshots { minSnapshots := 1 } [⟨0, [("rho", [1, 0 / 0])]⟩] none) := by
  have hc : Plan.criteriaFault { minSnapshots := 1 } = none := by decide +kernel
  have hnan : Float.isNaN (0 / 0) = true := by decide +kernel
  refine ⟨hc, ⟨_, List.mem_singleton_self _, _, List.mem_singleton_self _, 0 / 0, by simp,
    .inl hnan⟩, consistent_ofSnapshots hc _ none⟩

end Health

end ParamSweep
