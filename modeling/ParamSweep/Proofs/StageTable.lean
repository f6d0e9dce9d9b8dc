import Mathlib.Data.List.TakeWhile
import ParamSweep.Proofs.Accounting
import ParamSweep.Proofs.Outcome
import ParamSweep.Proofs.TextLines
import ParamSweep.Tasks.Stage

/-!
What the logs of a task say about it.

A failure in any log goes before everything else, and of several the one in the most advanced log
counts. Without a failure the most advanced log decides alone, and of the log of a run the last
lines decide whether it is over. `Judged` collects these rules, and `judged_inferStage` says that
every directory is judged by them.
-/

namespace ParamSweep

/-! ### Lines that tell of a failure -/

namespace StageMarkers

variable {m : StageMarkers} {line text : String}

/-- A line tells of a failure: an error marker stands in it, or, in letters of either case, a
failure word. -/
def TellsOfFailure (m : StageMarkers) (line : String) : Prop :=
  (∃ marker ∈ m.error, marker.toList <:+: line.toList) ∨
    ∃ word ∈ m.failureWords, (Text.lower word).toList <:+: (Text.lower line).toList

/-- Some line of a text tells of a failure. -/
def Fails (m : StageMarkers) (text : String) : Prop :=
  ∃ line ∈ Text.textLines text, m.TellsOfFailure line

theorem failsIn_iff : m.failsIn line = true ↔ m.TellsOfFailure line := by
  simp only [failsIn, TellsOfFailure, Bool.or_eq_true, List.any_eq_true, Text.hasPart_iff]

theorem hasError_iff : m.hasError text = true ↔ m.Fails text := by
  simp only [hasError, Fails, List.any_eq_true, failsIn_iff]

end StageMarkers

/-- One of the words stands in a text, in letters of either case. -/
theorem containsAny_iff {words : List String} {text : String} :
    containsAny words text = true ↔
      ∃ word ∈ words, (Text.lower word).toList <:+: (Text.lower text).toList := by
  simp only [containsAny, List.any_eq_true, Text.hasPart_iff]

/-! ### The number of an iteration -/

section Iteration

variable {line text : String} {n : Nat}

/-- A line starts with blanks or tabs, a number that fits 64 bits, and another blank or tab. -/
def StartsWithNumber (line : String) (n : Nat) : Prop :=
  ∃ gap digits c rest, line.toList = gap ++ digits ++ c :: rest ∧
    gap ≠ [] ∧ (∀ g ∈ gap, g = ' ' ∨ g = '\t') ∧
    digits ≠ [] ∧ (∀ d ∈ digits, d.isDigit = true) ∧ Decimal.natural digits = n ∧
    n ≤ Decimal.wordLimit ∧ (c = ' ' ∨ c = '\t')

theorem isGap_iff {c : Char} : isGap c = true ↔ c = ' ' ∨ c = '\t' := by simp [isGap]

theorem not_isDigit_of_isGap {c : Char} (h : isGap c = true) : c.isDigit = false := by
  rcases isGap_iff.1 h with rfl | rfl <;> rfl

theorem lineIteration?_eq_some_iff : lineIteration? line = some n ↔ StartsWithNumber line n := by
  rw [lineIteration?]
  simp only [Option.ite_none_right_eq_some, Bool.and_eq_true, wordOfDigits?_eq_some_iff,
    Option.any_eq_true]
  constructor
  · rintro ⟨⟨⟨first, hfirst, hgap⟩, c, hc, hcgap⟩, hne, hdigits, hvalue, hlimit⟩
    obtain ⟨more, hmore⟩ := List.head?_eq_some_iff.1 hfirst
    obtain ⟨rest, hrest⟩ := List.head?_eq_some_iff.1 hc
    refine ⟨line.toList.takeWhile isGap, (line.toList.dropWhile isGap).takeWhile Char.isDigit, c,
      rest, ?_, ?_, fun g hg => isGap_iff.1 (List.mem_takeWhile_imp hg), hne, hdigits, hvalue,
      hlimit, isGap_iff.1 hcgap⟩
    · rw [← hrest, List.append_assoc, List.takeWhile_append_dropWhile,
        List.takeWhile_append_dropWhile]
    · rw [hmore, List.takeWhile_cons_of_pos hgap]
      exact List.cons_ne_nil _ _
  · rintro ⟨gap, digits, c, rest, hline, hne, hgap, hdigitsNe, hdigits, hvalue, hlimit, hc⟩
    have hgap' : ∀ g ∈ gap, isGap g = true := fun g hg => isGap_iff.2 (hgap g hg)
    obtain ⟨first, more, rfl⟩ := List.exists_cons_of_ne_nil hne
    obtain ⟨digit, digits', rfl⟩ := List.exists_cons_of_ne_nil hdigitsNe
    have hdigit : isGap digit = false := by
      by_contra hcontra
      have hno := not_isDigit_of_isGap (Bool.not_eq_false _ ▸ hcontra)
      rw [hdigits digit List.mem_cons_self] at hno
      cases hno
    have hstop : c.isDigit = false := not_isDigit_of_isGap (isGap_iff.2 hc)
    have hbehind : line.toList.dropWhile isGap = (digit :: digits') ++ c :: rest := by
      rw [hline, List.append_assoc, List.dropWhile_append_of_pos hgap', List.cons_append,
        List.dropWhile_cons_of_neg (by simp [hdigit])]
    rw [hbehind, List.dropWhile_append_of_pos hdigits, List.takeWhile_append_of_pos hdigits,
      List.dropWhile_cons_of_neg (by simp [hstop]), List.takeWhile_cons_of_neg (by simp [hstop]),
      List.append_nil]
    refine ⟨⟨⟨first, by rw [hline]; rfl, hgap' first List.mem_cons_self⟩, c, rfl,
      isGap_iff.2 hc⟩, hdigitsNe, hdigits, hvalue, hlimit⟩

/-- The last of the lines of a text that start with a number starts with this one. -/
def LastNumber (text : String) (n : Nat) : Prop :=
  ∃ before line after, Text.textLines text = before ++ line :: after ∧ StartsWithNumber line n ∧
    ∀ later ∈ after, ∀ k, ¬ StartsWithNumber later k

theorem lineIteration?_eq_none_iff :
    lineIteration? line = none ↔ ∀ k, ¬ StartsWithNumber line k := by
  simp only [Option.eq_none_iff_forall_ne_some, Ne, lineIteration?_eq_some_iff]

theorem lastIteration?_eq_some_iff : lastIteration? text = some n ↔ LastNumber text n := by
  rw [lastIteration?, List.findSome?_eq_some_iff]
  simp only [lineIteration?_eq_some_iff, lineIteration?_eq_none_iff]
  constructor
  · rintro ⟨after, line, before, hlines, hnumber, hafter⟩
    refine ⟨before.reverse, line, after.reverse, ?_, hnumber, fun later hlater =>
      hafter later (List.mem_reverse.1 hlater)⟩
    rw [← List.reverse_reverse (Text.textLines text), hlines]
    simp
  · rintro ⟨before, line, after, hlines, hnumber, hafter⟩
    refine ⟨after.reverse, line, before.reverse, ?_, hnumber, fun later hlater =>
      hafter later (List.mem_reverse.1 hlater)⟩
    rw [hlines]
    simp

end Iteration

/-! ### The end of a run -/

/-- How many of the last lines of a run's log are looked at for its end. -/
def StageMarkers.window (m : StageMarkers) : Nat := max m.standaloneWindow m.completionWindow

/-- Only the lines in the window tell of the end of a run. -/
theorem runCompletion?_congr {m : StageMarkers} {text text' : String}
    (h : lastLines m.window text = lastLines m.window text') :
    runCompletion? m text = runCompletion? m text' := by
  have hwithin : ∀ k ≤ m.window, lastLines k text = lastLines k text' := by
    intro k hk
    rw [lastLines, ← Text.lastOf_lastOf hk]
    exact (congrArg (Text.lastOf k) h).trans (Text.lastOf_lastOf hk _)
  rw [runCompletion?, runCompletion?, hwithin _ (Nat.le_max_left _ _),
    hwithin _ (Nat.le_max_right _ _)]

/-! ### The logs that are there -/

namespace TaskLogs

/-- The logs that are there, each with the name of its stage, the most advanced one first. -/
def present (logs : TaskLogs) : List (String × TaskLog) :=
  [("run", logs.run), ("start", logs.start), ("build", logs.build)].filterMap fun p =>
    p.2.map (p.1, ·)

/-- None of the logs that are there tells of a failure. -/
def Sound (m : StageMarkers) (logs : TaskLogs) : Prop := ∀ p ∈ logs.present, ¬ m.Fails p.2.text

/-- The stage and the text of the most advanced log. -/
def mostAdvanced (logs : TaskLogs) : Option (String × String) :=
  logs.present.head?.map fun p => (p.1, p.2.text)

end TaskLogs

namespace StageInfo

variable {m : StageMarkers} {logs logs' : TaskLogs}

theorem failure?_eq (m : StageMarkers) (logs : TaskLogs) :
    failure? m logs = logs.present.findSome? fun p =>
      if m.hasError p.2.text then some (failure m p.1 p.2) else none := by
  obtain ⟨_ | run, _ | start, _ | build⟩ := logs <;> rfl

theorem failure?_eq_none_iff : failure? m logs = none ↔ logs.Sound m := by
  simp only [failure?_eq, List.findSome?_eq_none_iff, TaskLogs.Sound, ← StageMarkers.hasError_iff]
  simp

theorem failure?_of_first {before after : List (String × TaskLog)} {label : String} {log : TaskLog}
    (hlogs : logs.present = before ++ (label, log) :: after)
    (hbefore : ∀ p ∈ before, ¬ m.Fails p.2.text) (hlog : m.Fails log.text) :
    failure? m logs = some (failure m label log) := by
  rw [failure?_eq, List.findSome?_eq_some_iff]
  refine ⟨before, (label, log), after, hlogs, if_pos (StageMarkers.hasError_iff.2 hlog),
    fun p hp => if_neg fun herror => hbefore p hp (StageMarkers.hasError_iff.1 herror)⟩

/-- What is said of a task whose logs tell of no failure, by its most advanced log. -/
inductive DecidedBy (m : StageMarkers) : Option (String × String) → StageInfo → Prop
  | run (text : String) : DecidedBy m (some ("run", text)) (ofRunLog m text)
  | start (text : String) : DecidedBy m (some ("start", text)) (ofStartLog m text)
  | build (text : String) : DecidedBy m (some ("build", text)) (ofBuildLog m text)
  | nothing : DecidedBy m none { stage := .initializing, detail := "waiting for first log" }

theorem DecidedBy.unique {log log' : Option (String × String)} {info info' : StageInfo}
    (h : DecidedBy m log info) (h' : DecidedBy m log' info') (hsame : log = log') :
    info = info' := by
  cases h <;> cases h' <;> simp_all

theorem decidedBy_of_sound (h : logs.Sound m) : DecidedBy m logs.mostAdvanced (ofLogs m logs) := by
  rw [ofLogs, failure?_eq_none_iff.2 h]
  obtain ⟨_ | run, _ | start, _ | build⟩ := logs
  · exact .nothing
  · exact .build _
  · exact .start _
  · exact .start _
  all_goals exact .run _

theorem stage_ofRunLog (m : StageMarkers) (text : String) :
    (ofRunLog m text).stage = if (runCompletion? m text).isSome then .completed else .run := by
  rw [ofRunLog]
  cases runCompletion? m text <;> rfl

theorem DecidedBy.stage_ne_failed {log : Option (String × String)} {info : StageInfo}
    (h : DecidedBy m log info) : info.stage ≠ .failed := by
  cases h with
  | run text =>
    rw [stage_ofRunLog]
    split <;> simp
  | start text =>
    rw [ofStartLog]
    split <;> simp
  | build text =>
    rw [ofBuildLog]
    split <;> simp
  | nothing => simp

/-- A task has failed if one of its logs says so. -/
theorem stage_ofLogs_eq_failed_iff : (ofLogs m logs).stage = .failed ↔ ¬ logs.Sound m := by
  constructor
  · intro hfailed hsound
    exact (decidedBy_of_sound hsound).stage_ne_failed hfailed
  · intro hfails
    obtain ⟨info, hinfo⟩ := Option.ne_none_iff_exists'.1 (mt failure?_eq_none_iff.1 hfails)
    have hstage : info.stage = .failed := by
      rw [failure?_eq] at hinfo
      obtain ⟨p, -, hp⟩ := List.exists_of_findSome?_eq_some hinfo
      rw [Option.ite_none_right_eq_some, Option.some.injEq] at hp
      rw [← hp.2, failure]
    rw [ofLogs, hinfo, hstage]

end StageInfo

/-! ### Directories -/

theorem inferStage_of_isDir {t : FileTree} {dir : String} (h : t.isDir dir = true)
    (s : MonitorSettings) :
    inferStage t s (some dir) = StageInfo.ofLogs s.markers (TaskLogs.read t s.logFiles dir) := by
  rw [inferStage, Option.filter, if_pos h]

theorem read?_eq_some_iff {t : FileTree} {path : String} {log : TaskLog} :
    TaskLog.read? t path = some log ↔
      ∃ bytes, t.readBytes path = .ok bytes ∧ log = ⟨path, Text.utf8Lossy bytes⟩ := by
  rw [TaskLog.read?]
  cases t.readBytes path <;> simp [eq_comm]

/-- A log that is there has been read from its path. -/
theorem TaskLogs.read?_of_mem_present {t : FileTree} {names : LogFileNames} {dir : String}
    {p : String × TaskLog} (h : p ∈ (TaskLogs.read t names dir).present) :
    TaskLog.read? t p.2.path = some p.2 := by
  have hread : ∀ path log, TaskLog.read? t path = some log →
      TaskLog.read? t log.path = some log := by
    intro path log hlog
    obtain ⟨bytes, -, rfl⟩ := read?_eq_some_iff.1 hlog
    exact hlog
  simp only [present, List.mem_filterMap, List.mem_cons, List.not_mem_nil, or_false,
    Option.map_eq_some_iff] at h
  obtain ⟨_, rfl | rfl | rfl, log, hlog, rfl⟩ := h
  all_goals exact hread _ _ hlog

theorem tailLines_of_read? {t : FileTree} {log : TaskLog}
    (h : TaskLog.read? t log.path = some log) (count : Nat) :
    tailLines t log.path count = lastLines count log.text := by
  obtain ⟨bytes, hbytes, hlog⟩ := read?_eq_some_iff.1 h
  rw [tailLines, hbytes, hlog]

/-- How a directory of logs is judged. -/
structure Judged (s : MonitorSettings) (t : FileTree) (dir : String) (info : StageInfo) : Prop where
  /-- The task has failed if a line of some log tells of a failure. -/
  failed_iff : info.stage = .failed ↔
    ∃ p ∈ (TaskLogs.read t s.logFiles dir).present, s.markers.Fails p.2.text
  /-- The first log with such a line is named, and its last lines are shown. -/
  failure : ∀ {before after label log},
    (TaskLogs.read t s.logFiles dir).present = before ++ (label, log) :: after →
      (∀ p ∈ before, ¬ s.markers.Fails p.2.text) → s.markers.Fails log.text →
        ∃ tail, info =
            { stage := .failed, detail := label ++ " failed", failedLog := some log.path,
              errorTail := some tail } ∧
          tail = tailLines t log.path s.markers.errorTailLines ∧
          tail <:+ Text.textLines log.text ∧
          tail.length = min s.markers.errorTailLines (Text.textLines log.text).length
  /-- Without a failure nothing counts but the most advanced log. -/
  advanced : ∀ {t' dir'}, t'.isDir dir' = true →
    (TaskLogs.read t s.logFiles dir).Sound s.markers →
      (TaskLogs.read t' s.logFiles dir').Sound s.markers →
        (TaskLogs.read t s.logFiles dir).mostAdvanced =
            (TaskLogs.read t' s.logFiles dir').mostAdvanced →
          inferStage t' s (some dir') = info
  /-- Whether a run is over, and how it ended, is told by the lines in the window. -/
  window : ∀ {t' dir' log log'}, t'.isDir dir' = true →
    (TaskLogs.read t s.logFiles dir).Sound s.markers →
      (TaskLogs.read t' s.logFiles dir').Sound s.markers →
        (TaskLogs.read t s.logFiles dir).run = some log →
          (TaskLogs.read t' s.logFiles dir').run = some log' →
            lastLines s.markers.window log.text = lastLines s.markers.window log'.text →
              (info.stage = .completed ∨ info.stage = .run) ∧
                (inferStage t' s (some dir')).stage = info.stage ∧
                (info.stage = .completed → (inferStage t' s (some dir')).detail = info.detail)
  /-- The iteration is the number on the last line that starts with one. -/
  iteration : ∀ {log}, (TaskLogs.read t s.logFiles dir).Sound s.markers →
    (TaskLogs.read t s.logFiles dir).run = some log →
      ∀ n, info.iteration = some n ↔ LastNumber log.text n

section Directories

open StageInfo

variable {m : StageMarkers} {logs : TaskLogs} {log : TaskLog}

theorem ofLogs_of_run (hsound : logs.Sound m) (hrun : logs.run = some log) :
    ofLogs m logs = ofRunLog m log.text := by
  rw [ofLogs, failure?_eq_none_iff.2 hsound, hrun]

theorem iteration_ofRunLog (m : StageMarkers) (text : String) :
    (ofRunLog m text).iteration = lastIteration? text := by
  rw [ofRunLog]
  cases runCompletion? m text <;> rfl

theorem detail_ofRunLog {m : StageMarkers} {text detail : String}
    (h : runCompletion? m text = some detail) : (ofRunLog m text).detail = detail := by
  rw [ofRunLog, h]

/-- Every directory of logs is judged by these rules. -/
theorem judged_inferStage (s : MonitorSettings) (t : FileTree) {dir : String}
    (hdir : t.isDir dir = true) : Judged s t dir (inferStage t s (some dir)) := by
  rw [inferStage_of_isDir hdir]
  constructor
  case failed_iff =>
    rw [stage_ofLogs_eq_failed_iff]
    simp only [TaskLogs.Sound, not_forall, not_not, exists_prop]
  case failure =>
    intro before after label log hlogs hbefore hlog
    have hmem : (label, log) ∈ (TaskLogs.read t s.logFiles dir).present := by simp [hlogs]
    refine ⟨lastLines s.markers.errorTailLines log.text, ?_,
      (tailLines_of_read? (TaskLogs.read?_of_mem_present hmem) _).symm, Text.lastOf_suffix _ _,
      Text.length_lastOf _ _⟩
    rw [ofLogs, failure?_of_first hlogs hbefore hlog]
    rfl
  case advanced =>
    intro t' dir' hdir' hsound hsound' hsame
    rw [inferStage_of_isDir hdir']
    exact (decidedBy_of_sound hsound').unique (decidedBy_of_sound hsound) hsame.symm
  case window =>
    intro t' dir' log log' hdir' hsound hsound' hrun hrun' hlines
    have hcompletion : runCompletion? s.markers log.text = runCompletion? s.markers log'.text :=
      runCompletion?_congr hlines
    rw [inferStage_of_isDir hdir', ofLogs_of_run hsound hrun, ofLogs_of_run hsound' hrun',
      stage_ofRunLog, stage_ofRunLog, ← hcompletion]
    refine ⟨?_, rfl, fun hstage => ?_⟩
    · split
      · exact .inl rfl
      · exact .inr rfl
    · cases hdetail : runCompletion? s.markers log.text with
      | none => simp [hdetail] at hstage
      | some detail => rw [detail_ofRunLog hdetail, detail_ofRunLog (hcompletion ▸ hdetail)]
  case iteration =>
    intro log hsound hrun n
    rw [ofLogs_of_run hsound hrun, iteration_ofRunLog, lastIteration?_eq_some_iff]

/-- A task that runs, and one whose build has failed. -/
def twoTasks : FileTree where
  entries :=
    [("logs", .dir
      [("a", .dir
        [("pc_run.log", .file "--it--t--\n   10  0.1\n\t20\t0.2\n  30\n".toUTF8 false),
         ("pc_start.log", .file "completed successfully\n".toUTF8 false)]),
       ("b", .dir
        [("pc_build.log", .file "compiling\nERROR: disk full\n".toUTF8 false)])])]

/-- The line that has nothing behind its number does not count, and the failed build is shown. -/
theorem judged_of_two_tasks :
    ∃ running failing, Judged {} twoTasks "logs/a" running ∧
      Judged {} twoTasks "logs/b" failing ∧
      running = { stage := .run, detail := "iteration 20", iteration := some 20 } ∧
      failing =
        { stage := .failed, detail := "build failed", failedLog := some "logs/b/pc_build.log",
          errorTail := some ["compiling", "ERROR: disk full"] } := by
  have hdirs : twoTasks.isDir "logs/a" = true ∧ twoTasks.isDir "logs/b" = true := by
    decide +kernel
  refine ⟨_, _, judged_inferStage {} twoTasks hdirs.1, judged_inferStage {} twoTasks hdirs.2, ?_⟩
  decide +kernel

end Directories

end ParamSweep
