import ParamSweep.CommandLine.Run
import ParamSweep.Proofs.Outcome

/-!
The exit status of the two commands that say whether a suite is sound.

Both judge first and answer then, with lines or with JSON, and what they judge does not depend on
how they answer. A command that fails has a status other than zero in either way. One that finds a
suite unsound has it only where it answers with lines: the JSON says `ok: false`, but the status is
zero. `status_of_check` says this of every host, every state of the files and every scheduler.
-/

namespace ParamSweep.CommandLine

variable {τ : Type}

/-- A command that judges a suite, whichever way it answers. -/
inductive Check where
  | wait (experiment : String) (how : WaitArguments)
  | validate (experiment : String) (outputs : Option String) (sampleSize : Nat)

namespace Check

/-- The command that answers with JSON or with lines. -/
def command (json : Bool) : Check → Command
  | .wait experiment how => .wait experiment how json
  | .validate experiment outputs sampleSize => .validate experiment outputs sampleSize json

variable (h : Host τ) (r : Roots) (site : Site τ)

/-- The command fails before it has judged the suite. -/
def Fails : Check → Prop
  | .wait experiment how => ∃ e, (outcome (waitAndCheck h r experiment how) site).1 = .error e
  | .validate experiment outputs sampleSize =>
    ∃ e, (outcome (judgeOutputs r experiment outputs sampleSize) site).1 = .error e

/-- The batch did not succeed, or what it left has critical issues. -/
def FindsUnsound : Check → Prop
  | .wait experiment how =>
    ∃ w, (outcome (waitAndCheck h r experiment how) site).1 = .ok w ∧
      ((∀ polls report, w.outcome ≠ .succeeded polls report) ∨
        ∃ integrity, w.integrity = some integrity ∧ integrity.criticalIssues ≠ [])
  | .validate experiment outputs sampleSize =>
    ∃ integrity health,
      (outcome (judgeOutputs r experiment outputs sampleSize) site).1 = .ok (integrity, health) ∧
        integrity.criticalIssues ≠ []

/-- Whether a check that does not fail finds the suite sound. -/
def verdict : Check → Except Error Bool
  | .wait experiment how => (outcome (waitAndCheck h r experiment how) site).1.map Waited.ok
  | .validate experiment outputs sampleSize =>
    (outcome (judgeOutputs r experiment outputs sampleSize) site).1.map fun p => !p.1.hasCritical

end Check

theorem hasCritical_iff {i : IntegrityReport} : i.hasCritical = true ↔ i.criticalIssues ≠ [] := by
  simp [IntegrityReport.hasCritical]

theorem isSuccess_eq_false_iff {w : WaitOutcome} :
    w.isSuccess = false ↔ ∀ polls report, w ≠ .succeeded polls report := by
  cases w <;> simp [WaitOutcome.isSuccess]

theorem Waited.ok_eq_false_iff {w : Waited} :
    w.ok = false ↔ (∀ polls report, w.outcome ≠ .succeeded polls report) ∨
      ∃ integrity, w.integrity = some integrity ∧ integrity.criticalIssues ≠ [] := by
  rw [Waited.ok, Bool.and_eq_false_iff, isSuccess_eq_false_iff]
  cases w.integrity <;> simp [hasCritical_iff]

variable {h : Host τ} {r : Roots} {site : Site τ}

theorem Check.fails_iff {c : Check} : c.Fails h r site ↔ ∃ e, c.verdict h r site = .error e := by
  cases c with
  | wait experiment how =>
    rw [Check.Fails, Check.verdict]
    cases (outcome (waitAndCheck h r experiment how) site).1 <;> simp [Except.map]
  | validate experiment outputs sampleSize =>
    rw [Check.Fails, Check.verdict]
    cases (outcome (judgeOutputs r experiment outputs sampleSize) site).1 <;> simp [Except.map]

theorem Check.findsUnsound_iff {c : Check} :
    c.FindsUnsound h r site ↔ c.verdict h r site = .ok false := by
  cases c with
  | wait experiment how =>
    simp only [Check.FindsUnsound, Check.verdict, ← Waited.ok_eq_false_iff]
    cases (outcome (waitAndCheck h r experiment how) site).1 <;> simp [Except.map]
  | validate experiment outputs sampleSize =>
    simp only [Check.FindsUnsound, Check.verdict, ← hasCritical_iff]
    rcases (outcome (judgeOutputs r experiment outputs sampleSize) site).1 with e | ⟨i, health⟩ <;>
      simp [Except.map]

/-! ### The two ways to answer -/

/-- Asked for lines, a command ends with its verdict. -/
theorem outcome_lines (c : Check) :
    (outcome (stepsOf h r (c.command false)) site).1 = (c.verdict h r site).map finish := by
  cases c with
  | wait experiment how =>
    simp only [Check.command, stepsOf, wait, Check.verdict, outcome_bind]
    rcases outcome (waitAndCheck h r experiment how) site with ⟨e | w, site'⟩ <;> rfl
  | validate experiment outputs sampleSize =>
    simp only [Check.command, stepsOf, validate, Check.verdict, outcome_bind]
    rcases outcome (judgeOutputs r experiment outputs sampleSize) site with
      ⟨e | ⟨i, health⟩, site'⟩ <;> rfl

/-- The first field of a record is what stands there, if no other field has its name. -/
theorem get?_record {key : String} {value : Value} {more : List (String × Value)}
    (h : ∀ p ∈ more, p.1 ≠ key) : (Value.record ((key, value) :: more)).get? key = some value := by
  have hmore : ∀ t : Entries Value,
      (more.foldl (fun t p => t.insert p.1 p.2) t).find? key = t.find? key := by
    induction more with
    | nil => exact fun _ => rfl
    | cons p rest ih =>
      obtain ⟨hp, hrest⟩ := List.forall_mem_cons.1 h
      intro t
      rw [List.foldl_cons, ih hrest, Entries.find?_insert, if_neg hp]
  rw [Value.record, Value.get?, Entries.ofList, List.foldl_cons, hmore, Entries.find?_insert,
    if_pos rfl]

theorem get?_answer {ok : Bool} {name : String} {more : List (String × Value)} {payload : Value}
    (hanswer : answer ok name more = .payload payload) (hmore : ∀ p ∈ more, p.1 ≠ "ok") :
    payload.get? "ok" = some (.bool ok) := by
  obtain rfl := Finish.payload.inj hanswer
  exact get?_record (List.forall_mem_cons.2 ⟨by simp, hmore⟩)

theorem get?_errorPayload (e : Error) : (errorPayload e).get? "ok" = some (.bool false) :=
  get?_record (by simp)

/-- Asked for JSON, a command ends with a payload that has its verdict. -/
theorem outcome_json (c : Check) :
    (∀ e, c.verdict h r site = .error e →
      (outcome (stepsOf h r (c.command true)) site).1 = .error e) ∧
    ∀ ok, c.verdict h r site = .ok ok → ∃ payload,
      (outcome (stepsOf h r (c.command true)) site).1 = .ok (.payload payload) ∧
        payload.get? "ok" = some (.bool ok) := by
  cases c with
  | wait experiment how =>
    simp only [Check.command, stepsOf, wait, Check.verdict, outcome_bind]
    rcases outcome (waitAndCheck h r experiment how) site with ⟨e | w, site'⟩
    · exact ⟨fun _ he => congrArg Except.error (Except.error.inj he), nofun⟩
    · refine ⟨nofun, ?_⟩
      rintro _ ⟨⟩
      exact ⟨_, rfl, get?_answer rfl (by simp)⟩
  | validate experiment outputs sampleSize =>
    simp only [Check.command, stepsOf, validate, Check.verdict, outcome_bind]
    rcases outcome (judgeOutputs r experiment outputs sampleSize) site with ⟨e | ⟨i, health⟩, site'⟩
    · exact ⟨fun _ he => congrArg Except.error (Except.error.inj he), nofun⟩
    · refine ⟨nofun, ?_⟩
      rintro _ ⟨⟩
      exact ⟨_, rfl, get?_answer rfl (by simp)⟩

theorem runCommand_eq (outside : τ) (tree : FileTree) (now : Moment) (c : Command) :
    (runCommand h outside tree now r c).1 =
      replyTo c
        (outcome (stepsOf h r c) { tree := tree, now := now, outside := outside }).2.console
        (outcome (stepsOf h r c) { tree := tree, now := now, outside := outside }).1 := rfl

theorem Check.json_command (c : Check) (json : Bool) : (c.command json).json = json := by
  cases c <;> rfl

theorem status_replyTo_error (c : Command) (said : List String) (e : Error) :
    (replyTo c said (.error e)).status = 1 := by
  rw [replyTo]
  split <;> rfl

theorem status_replyTo_finish (c : Command) (said : List String) (ok : Bool) :
    (replyTo c said (.ok (finish ok))).status = if ok then 0 else 1 := by
  cases ok <;> rfl

/-- With lines the status is other than zero exactly when the command fails or finds the suite
unsound, and with JSON this is when the payload says that it is not `ok`. But with JSON the status
is other than zero only when the command fails, so the two differ when a suite is found unsound. -/
theorem status_of_check (h : Host τ) (outside : τ) (tree : FileTree) (now : Moment) (r : Roots)
    (c : Check) :
    let site : Site τ := { tree := tree, now := now, outside := outside }
    let lines := (runCommand h outside tree now r (c.command false)).1
    let json := (runCommand h outside tree now r (c.command true)).1
    (lines.status ≠ 0 ↔ c.Fails h r site ∨ c.FindsUnsound h r site) ∧
    (∃ (payload : Value) (ok : Bool), json.output = [payload.compact] ∧
      payload.get? "ok" = some (.bool ok) ∧
      (ok = false ↔ c.Fails h r site ∨ c.FindsUnsound h r site)) ∧
    (json.status ≠ 0 ↔ c.Fails h r site) ∧
    (json.status = lines.status ↔ ¬ c.FindsUnsound h r site) := by
  intro site lines json
  rw [Check.fails_iff, Check.findsUnsound_iff]
  have hlines : lines = replyTo (c.command false) _ _ := runCommand_eq outside tree now _
  have hjson : json = replyTo (c.command true) _ _ := runCommand_eq outside tree now _
  obtain ⟨hfails, hjudges⟩ := @outcome_json τ h r site c
  rw [outcome_lines] at hlines
  cases hv : c.verdict h r site with
  | error e =>
    rw [hv] at hlines
    rw [hfails e hv] at hjson
    have hline : lines.status = 1 := hlines ▸ status_replyTo_error ..
    have hpayload : json.status = 1 := hjson ▸ status_replyTo_error ..
    have houtput : json.output = [(errorPayload e).compact] := by
      rw [hjson, replyTo, c.json_command true]
      rfl
    refine ⟨by simp [hline], ⟨_, false, houtput, get?_errorPayload e, by simp⟩, by simp [hpayload],
      by simp [hline, hpayload]⟩
  | ok ok =>
    obtain ⟨payload, hanswer, hok⟩ := hjudges ok hv
    rw [hv] at hlines
    rw [hanswer] at hjson
    have hline : lines.status = if ok then 0 else 1 := hlines ▸ status_replyTo_finish ..
    have hpayload : json.status = 0 := hjson ▸ rfl
    have houtput : json.output = [payload.compact] := hjson ▸ rfl
    refine ⟨?_, ⟨payload, ok, houtput, hok, by simp⟩, by simp [hpayload], ?_⟩
    · cases ok <;> simp [hline]
    · cases ok <;> simp [hline, hpayload]

/-- An experiment of one run that was generated and never ran. -/
def neverRan : FileTree where
  entries :=
    [("config", .dir [("e", .dir [("plan", .dir [("sweep.yaml",
        .file "branches: [{name: a}]\n".toUTF8 false)])])]),
     ("runs", .dir [("e", .dir [("run_manifest.txt", .file "a\n".toUTF8 false)])])]

/-- A suite without outputs is unsound, and the status says so only without `--json`. -/
theorem status_depends_on_json :
    ¬ ∀ (tree : FileTree) (now : Moment),
      (run tree now ["validate", "e", "--json"]).1.status =
        (run tree now ["validate", "e"]).1.status := by
  intro h
  have hstatus : (run neverRan {} ["validate", "e", "--json"]).1.status = 0 ∧
      (run neverRan {} ["validate", "e"]).1.status = 1 := by
    decide +kernel
  have hsame := h neverRan {}
  rw [hstatus.1, hstatus.2] at hsame
  cases hsame

end ParamSweep.CommandLine
