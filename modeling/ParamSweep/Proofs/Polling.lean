import ParamSweep.Tasks.Wait
import ParamSweep.Proofs.Reconciliation

/-!
Which poll ends a wait, and how.

A `Watch` is everything that a wait depends on. What its polls learn is computed without the loop:
`before n` is the world after `n` polls and the sleeps between them, `reply p` is what poll `p`
learns there. The scheduler, the clock and whoever writes logs may do anything to the world while
they are asked or slept on, so the replies, the logs and the times are arbitrary sequences.

A poll `Finishes`, `Breaks` or is `Late`, and it is `Made` if none before it ended the wait. Only one
poll is made and ends the wait, so that what holds of it when the wait ends in some way is also what
makes the wait end in that way.
-/

namespace ParamSweep

variable {τ α β : Type}

/-! ### What an operation does without looking at the console -/

/-- The files and what lies beyond them. -/
def Site.world (s : Site τ) : FileTree × τ := (s.tree, s.outside)

/-- The answer of an operation and the world after it depend on nothing but the world before. -/
def Blind (x : Action τ α) : Prop :=
  ∀ s s', s.world = s'.world →
    (outcome x s).1 = (outcome x s').1 ∧ (outcome x s).2.world = (outcome x s').2.world

namespace Blind

theorem pure (a : α) : Blind (Pure.pure a : Action τ α) := fun _ _ h => ⟨rfl, h⟩

theorem throw (e : Error) : Blind (MonadExcept.throw e : Action τ α) := fun _ _ h => ⟨rfl, h⟩

theorem say (line : String) : Blind (Action.say line : Action τ Unit) := fun _ _ h => ⟨rfl, h⟩

theorem ask (q : Query τ) : Blind (Action.ask q) := by
  intro s s' h
  obtain ⟨ht, ho⟩ := Prod.mk.inj h
  have hq : q s.tree s.outside = q s'.tree s'.outside := by rw [ht, ho]
  constructor
  · show (q s.tree s.outside).1 = (q s'.tree s'.outside).1
    rw [hq]
  · show (s.tree, (q s.tree s.outside).2) = (s'.tree, (q s'.tree s'.outside).2)
    rw [hq, ht]

theorem bind {x : Action τ α} {f : α → Action τ β} (hx : Blind x) (hf : ∀ a, Blind (f a)) :
    Blind (x >>= f) := by
  intro s s' h
  obtain ⟨hanswer, hworld⟩ := hx s s' h
  rw [outcome_bind, outcome_bind]
  rcases hs : outcome x s with ⟨r, s₁⟩
  rcases hs' : outcome x s' with ⟨r', s₁'⟩
  rw [hs, hs'] at hanswer hworld
  cases hanswer
  cases r with
  | error e => exact ⟨rfl, hworld⟩
  | ok a => exact hf a s₁ s₁' hworld

theorem tryCatch {x : Action τ α} {f : Error → Action τ α} (hx : Blind x) (hf : ∀ e, Blind (f e)) :
    Blind (MonadExcept.tryCatch x f) := by
  intro s s' h
  obtain ⟨hanswer, hworld⟩ := hx s s' h
  rw [outcome_tryCatch, outcome_tryCatch]
  rcases hs : outcome x s with ⟨r, s₁⟩
  rcases hs' : outcome x s' with ⟨r', s₁'⟩
  rw [hs, hs'] at hanswer hworld
  cases hanswer
  cases r with
  | error e => exact hf e s₁ s₁' hworld
  | ok a => exact ⟨rfl, hworld⟩

end Blind

theorem blind_isQueued (sch : Scheduler τ) (batch : BatchHandle) : Blind (isQueued sch batch) := by
  unfold isQueued
  refine Blind.tryCatch ((Blind.ask _).bind fun answer => Blind.pure _) fun e => ?_
  cases e <;> first | exact Blind.throw _ | exact Blind.pure _

theorem blind_reconcile (sch : Scheduler τ) (batch : BatchHandle) (runs : List String) :
    Blind (reconcile sch batch runs) := by
  refine (Blind.ask _).bind fun accounting => ?_
  dsimp only
  split
  · exact Blind.pure _
  · refine (blind_isQueued sch batch).bind fun queued => ?_
    cases queued
    · exact (Blind.say _).bind fun _ => Blind.pure _
    · exact Blind.pure _

/-! ### One poll -/

/-- The operation finds something out about the world and changes nothing but the console. -/
def Finds (x : Action τ α) (f : FileTree × τ → α) : Prop :=
  ∀ s, ∃ s', outcome x s = (.ok (f s.world), s') ∧ s'.world = s.world

namespace Finds

variable {f : FileTree × τ → β}

theorem pure (a : α) : Finds (Pure.pure a : Action τ α) fun _ => a := fun s => ⟨s, rfl, rfl⟩

theorem bind {x : Action τ α} {a : α} {k : α → Action τ β} (hx : Finds x fun _ => a)
    (hk : Finds (k a) f) : Finds (x >>= k) f := by
  intro s
  obtain ⟨s₁, hs₁, hw₁⟩ := hx s
  obtain ⟨s₂, hs₂, hw₂⟩ := hk s₁
  refine ⟨s₂, ?_, hw₂.trans hw₁⟩
  rw [outcome_bind, hs₁, ← hw₁]
  exact hs₂

theorem after_say (line : String) (a : β) :
    Finds (do Action.say line; Pure.pure a : Action τ β) fun _ => a :=
  fun _ => ⟨_, rfl, rfl⟩

theorem showProgress (target : WaitTarget) (poll : Nat) :
    Finds (ParamSweep.showProgress target poll : Action τ Unit) fun _ => ⟨⟩ :=
  fun _ => ⟨_, rfl, rfl⟩

/-- What is only sometimes shown before something is found out. -/
theorem after_showProgress {k : Action τ β} (shown : Bool) (target : WaitTarget) (poll : Nat)
    (hk : Finds k f) :
    Finds (if shown then do ParamSweep.showProgress target poll; k else k) f := by
  cases shown
  · exact hk
  · exact (showProgress target poll).bind hk

end Finds

/-- What the report of a poll comes to in a world, where the logs are looked for. -/
def judged (target : WaitTarget) (o : WaitOptions) (poll : Nat) (report : StatusReport)
    (w : FileTree × τ) : PollResult :=
  if report.isFinished = true ∧ (o.guardPolls ≤ poll ∨
      (TaskLogIndex.discover w.1 target.logsRoot (some target.batch)).isEmpty = false) then
    .finished report
  else .goesOn report

theorem finds_settleReport (target : WaitTarget) (o : WaitOptions) (poll : Nat) (shown : Bool)
    (report : StatusReport) :
    Finds (settleReport target o poll shown report : Action τ PollResult)
      (judged target o poll report) := by
  intro s
  unfold settleReport
  by_cases hreport : report.isFinished = true
  · rw [if_pos hreport, outcome_bind, Action.outcome_tree]
    by_cases hlogs : o.guardPolls ≤ poll ∨
        (TaskLogIndex.discover s.world.1 target.logsRoot (some target.batch)).isEmpty = false
    · have hj : judged target o poll report s.world = .finished report :=
        if_pos ⟨hreport, hlogs⟩
      have hguard : ¬ ((TaskLogIndex.discover s.tree target.logsRoot (some target.batch)).isEmpty &&
          decide (poll < o.guardPolls)) = true := by
        rcases hlogs with h | h <;> simp_all [Site.world]
      rw [hj]
      simp only [if_neg hguard]
      exact Finds.after_showProgress (!shown) target poll (Finds.pure (PollResult.finished report)) s
    · have hj : judged target o poll report s.world = .goesOn report :=
        if_neg fun h => hlogs h.2
      have hguard : ((TaskLogIndex.discover s.tree target.logsRoot (some target.batch)).isEmpty &&
          decide (poll < o.guardPolls)) = true := by
        obtain ⟨hpoll, hempty⟩ := not_or.mp hlogs
        rw [Bool.and_eq_true, decide_eq_true_iff]
        exact ⟨eq_true_of_ne_false hempty, Nat.lt_of_not_le hpoll⟩
      rw [hj]
      simp only [if_pos hguard]
      exact Finds.after_say _ (PollResult.goesOn report) s
  · have hj : judged target o poll report s.world = .goesOn report :=
      if_neg fun h => hreport h.1
    rw [if_neg hreport, hj]
    exact Finds.after_say _ (PollResult.goesOn report) s

theorem finds_judgeReport (target : WaitTarget) (o : WaitOptions) (poll : Nat)
    (report : StatusReport) :
    Finds (judgeReport target o poll report : Action τ PollResult)
      (judged target o poll report) :=
  Finds.after_showProgress _ target poll (finds_settleReport target o poll _ report)

/-- The errors after which asking again makes no sense. -/
def Error.IsFatal (e : Error) : Prop :=
  (∃ command, e = .schedulerUnavailable command) ∨ (∃ path, e = .manifestMissing path) ∨
    ∃ path, e = .batchHandleMissing path

theorem Error.stopsPolling_iff (e : Error) : e.stopsPolling = true ↔ e.IsFatal := by
  cases e <;> simp [Error.stopsPolling, Error.IsFatal]

section PollOnce

variable {sch : Scheduler τ} {target : WaitTarget} {s s₁ : Site τ}

theorem pollOnce_of_report (o : WaitOptions) (poll : Nat) {report : StatusReport}
    (h : outcome (reconcile sch target.batch target.runs) s = (.ok report, s₁)) :
    ∃ s', outcome (pollOnce sch target o poll) s =
        (.ok (judged target o poll report s₁.world), s') ∧ s'.world = s₁.world := by
  have hreport : outcome (pollReport sch target poll) s = (.ok (some report), s₁) := by
    rw [pollReport, outcome_tryCatch, outcome_bind, h]
    rfl
  rw [pollOnce, outcome_bind, hreport]
  exact finds_judgeReport target o poll report s₁

theorem pollOnce_of_fatal (o : WaitOptions) (poll : Nat) {e : Error} (he : e.IsFatal)
    (h : outcome (reconcile sch target.batch target.runs) s = (.error e, s₁)) :
    outcome (pollOnce sch target o poll) s = (.error e, s₁) := by
  rw [pollOnce, outcome_bind, pollReport, outcome_tryCatch, outcome_bind, h]
  simp only [if_pos (e.stopsPolling_iff.mpr he)]
  rfl

theorem pollOnce_of_failure (o : WaitOptions) (poll : Nat) {e : Error} (he : ¬ e.IsFatal)
    (h : outcome (reconcile sch target.batch target.runs) s = (.error e, s₁)) :
    ∃ s', outcome (pollOnce sch target o poll) s = (.ok .unknown, s') ∧ s'.world = s₁.world := by
  rw [pollOnce, outcome_bind, pollReport, outcome_tryCatch, outcome_bind, h]
  simp only [if_neg (mt e.stopsPolling_iff.mp he)]
  exact ⟨_, rfl, rfl⟩

end PollOnce

/-! ### Reports of tasks that have come to an end -/

namespace WaitOutcome

variable {p : Nat} {report : StatusReport}

theorem ofReport_of_completed (hfin : report.isFinished = true)
    (h : ∀ t ∈ report.tasks, t.status = .completed) : ofReport p report = .succeeded p report := by
  refine if_neg fun hfailed => ?_
  obtain ⟨t, ht, hne⟩ := (StatusReport.count_failed_pos_iff hfin).mp hfailed
  exact hne (h t ht)

theorem ofReport_of_failed (hfin : report.isFinished = true)
    (h : ∃ t ∈ report.tasks, t.status ≠ .completed) :
    ofReport p report = .completedWithFailures p report :=
  if_pos ((StatusReport.count_failed_pos_iff hfin).mpr h)

/-- A finished report is either of tasks that all completed or of some that did not. -/
theorem ofReport_cases (p : Nat) (hfin : report.isFinished = true) :
    (ofReport p report = .succeeded p report ∧ ∀ t ∈ report.tasks, t.status = .completed) ∨
      (ofReport p report = .completedWithFailures p report ∧
        ∃ t ∈ report.tasks, t.status ≠ .completed) := by
  by_cases h : ∀ t ∈ report.tasks, t.status = .completed
  · exact .inl ⟨ofReport_of_completed hfin h, h⟩
  · have h' : ∃ t ∈ report.tasks, t.status ≠ .completed := by simpa using h
    exact .inr ⟨ofReport_of_failed hfin h', h'⟩

end WaitOutcome

/-! ### The polls of a wait -/

/-- Everything that a wait depends on. -/
structure Watch (τ : Type) where
  scheduler : Scheduler τ
  clock : Clock τ
  target : WaitTarget
  options : WaitOptions
  site : Site τ

namespace Watch

variable (v : Watch τ)

/-- How the wait ends. -/
def answer : Except Error WaitOutcome :=
  (outcome (waitForCompletion v.scheduler v.clock v.target v.options) v.site).1

/-- The status of the batch in a world, and the world after the scheduler was asked for it. -/
def asked (w : FileTree × τ) : Except Error StatusReport × FileTree × τ :=
  let r := outcome (reconcile v.scheduler v.target.batch v.target.runs)
    { tree := w.1, outside := w.2 }
  (r.1, r.2.world)

/-- The world when the wait starts to count the time: after the initial delay, if there is one. -/
def start : FileTree × τ :=
  if v.options.initialDelay = 0 then v.site.world
  else v.clock.sleep v.options.initialDelay v.site.world

/-- The world after so many polls, with a sleep after each. -/
def before : Nat → FileTree × τ
  | 0 => v.start
  | polls + 1 => v.clock.sleep v.options.pollInterval (v.asked (before polls)).2

/-- What a poll learns; polls are counted from one. -/
def reply (poll : Nat) : Except Error StatusReport := (v.asked (v.before (poll - 1))).1

/-- The world right after a poll. -/
def after (poll : Nat) : FileTree × τ := (v.asked (v.before (poll - 1))).2

/-- The report of the latest poll that got one, among so many. -/
def lastReport : Nat → Option StatusReport
  | 0 => none
  | polls + 1 =>
    match v.reply (polls + 1) with
    | .ok report => some report
    | .error _ => lastReport polls

/-- The poll learns that all tasks are done, and that is believed. -/
def Finishes (poll : Nat) (report : StatusReport) : Prop :=
  v.reply poll = .ok report ∧ report.isFinished = true ∧
    (v.options.guardPolls ≤ poll ∨
      (TaskLogIndex.discover (v.after poll).1 v.target.logsRoot
        (some v.target.batch)).isEmpty = false)

/-- The poll meets an error after which asking again makes no sense. -/
def Breaks (poll : Nat) (e : Error) : Prop := v.reply poll = .error e ∧ e.IsFatal

/-- After the poll more time has passed than is to be waited. -/
def Late (poll : Nat) : Prop :=
  ∃ limit, v.options.maxWait = some limit ∧
    limit < v.clock.elapsed (v.after poll).2 - v.clock.elapsed v.start.2

/-- The poll is a reason to end the wait. -/
def Ends (poll : Nat) : Prop :=
  (∃ report, v.Finishes poll report) ∨ (∃ e, v.Breaks poll e) ∨ v.Late poll

/-- The poll takes place: it can be counted, and none before it ends the wait. -/
structure Made (poll : Nat) : Prop where
  pos : 1 ≤ poll
  counted : poll ≤ maxPolls
  first : ∀ earlier, 1 ≤ earlier → earlier < poll → ¬ v.Ends earlier

variable {v}

theorem Finishes.ends {poll : Nat} {report : StatusReport} (h : v.Finishes poll report) :
    v.Ends poll := .inl ⟨report, h⟩

theorem Breaks.ends {poll : Nat} {e : Error} (h : v.Breaks poll e) : v.Ends poll :=
  .inr (.inl ⟨e, h⟩)

theorem Late.ends {poll : Nat} (h : v.Late poll) : v.Ends poll := .inr (.inr h)

theorem Made.unique {p p' : Nat} (hp : v.Made p) (hp' : v.Made p') (he : v.Ends p)
    (he' : v.Ends p') : p = p' := by
  rcases Nat.lt_trichotomy p p' with hlt | heq | hlt
  · exact absurd he (hp'.first p hp.pos hlt)
  · exact heq
  · exact absurd he' (hp.first p' hp'.pos hlt)

theorem Finishes.unique {p : Nat} {report report' : StatusReport} (h : v.Finishes p report)
    (h' : v.Finishes p report') : report = report' :=
  Except.ok.inj (h.1.symm.trans h'.1)

theorem Breaks.unique {p : Nat} {e e' : Error} (h : v.Breaks p e) (h' : v.Breaks p e') : e = e' :=
  Except.error.inj (h.1.symm.trans h'.1)

theorem Finishes.not_breaks {p : Nat} {report : StatusReport} {e : Error}
    (h : v.Finishes p report) : ¬ v.Breaks p e :=
  fun hb => nomatch h.1.symm.trans hb.1

/-! ### The loop -/

/-- The way in which a poll ends the wait, where it does. -/
inductive EndsWith (v : Watch τ) (p : Nat) : Except Error WaitOutcome → Prop
  | succeeded {report : StatusReport} (fin : v.Finishes p report)
      (all : ∀ t ∈ report.tasks, t.status = .completed) : EndsWith v p (.ok (.succeeded p report))
  | withFailures {report : StatusReport} (fin : v.Finishes p report)
      (notAll : ∃ t ∈ report.tasks, t.status ≠ .completed) :
      EndsWith v p (.ok (.completedWithFailures p report))
  | late (late : v.Late p) (unfinished : ∀ report, ¬ v.Finishes p report)
      (unbroken : ∀ e, ¬ v.Breaks p e) : EndsWith v p (.ok (.timedOut p (v.lastReport p)))
  | broken {e : Error} (broken : v.Breaks p e) : EndsWith v p (.error e)

namespace EndsWith

variable {p : Nat} {r r' : Except Error WaitOutcome}

theorem finished {report : StatusReport} (fin : v.Finishes p report) :
    v.EndsWith p (.ok (.ofReport p report)) := by
  rcases WaitOutcome.ofReport_cases p fin.2.1 with ⟨h, all⟩ | ⟨h, notAll⟩
  · rw [h]
    exact .succeeded fin all
  · rw [h]
    exact .withFailures fin notAll

theorem ends (h : v.EndsWith p r) : v.Ends p := by
  cases h with
  | succeeded fin _ => exact fin.ends
  | withFailures fin _ => exact fin.ends
  | late late _ _ => exact late.ends
  | broken broken => exact broken.ends

/-- What a finished poll ends the wait with is the outcome of its report. -/
theorem eq_ofReport (h : v.EndsWith p r) {report : StatusReport} (fin : v.Finishes p report) :
    r = .ok (.ofReport p report) := by
  cases h with
  | succeeded fin' all =>
    rw [fin.unique fin', WaitOutcome.ofReport_of_completed fin'.2.1 all]
  | withFailures fin' notAll =>
    rw [fin.unique fin', WaitOutcome.ofReport_of_failed fin'.2.1 notAll]
  | late _ unfinished _ => exact absurd fin (unfinished report)
  | broken broken => exact absurd broken fin.not_breaks

theorem unique (h : v.EndsWith p r) (h' : v.EndsWith p r') : r = r' := by
  cases h with
  | succeeded fin all => rw [h'.eq_ofReport fin, WaitOutcome.ofReport_of_completed fin.2.1 all]
  | withFailures fin notAll =>
    rw [h'.eq_ofReport fin, WaitOutcome.ofReport_of_failed fin.2.1 notAll]
  | late _ unfinished unbroken =>
    cases h' with
    | succeeded fin' _ => exact absurd fin' (unfinished _)
    | withFailures fin' _ => exact absurd fin' (unfinished _)
    | late _ _ _ => rfl
    | broken broken' => exact absurd broken' (unbroken _)
  | broken broken =>
    cases h' with
    | succeeded fin' _ => exact absurd broken fin'.not_breaks
    | withFailures fin' _ => exact absurd broken fin'.not_breaks
    | late _ _ unbroken' => exact absurd broken (unbroken' _)
    | broken broken' => rw [broken.unique broken']

end EndsWith

/-- No poll up to the given one is a reason to end the wait. -/
def OpenUpTo (v : Watch τ) (polls : Nat) : Prop := ∀ p, 1 ≤ p → p ≤ polls → ¬ v.Ends p

/-- How a wait ends: by a poll that is made, or because no poll that can be counted ends it. -/
inductive Verdict (v : Watch τ) (r : Except Error WaitOutcome) : Prop
  | byPoll (p : Nat) (made : v.Made p) (ends : v.EndsWith p r)
  | never (uncounted : v.OpenUpTo maxPolls) (broken : r = .error .tooManyPolls)

/-- A wait ends in one way only. -/
theorem Verdict.unique {r r' : Except Error WaitOutcome} (h : v.Verdict r) (h' : v.Verdict r') :
    r = r' := by
  cases h with
  | byPoll p made ends =>
    cases h' with
    | byPoll p' made' ends' =>
      obtain rfl := made.unique made' ends.ends ends'.ends
      exact ends.unique ends'
    | never uncounted' _ => exact absurd ends.ends (uncounted' p made.pos made.counted)
  | never uncounted broken =>
    cases h' with
    | byPoll p' made' ends' => exact absurd ends'.ends (uncounted p' made'.pos made'.counted)
    | never _ broken' => rw [broken, broken']

/-- How a wait ends, and in which world: the one right after the last poll that is made. -/
inductive Ran (v : Watch τ) (x : Except Error WaitOutcome × Site τ) : Prop
  | byPoll (p : Nat) (made : v.Made p) (ends : v.EndsWith p x.1) (world : x.2.world = v.after p)
  | never (uncounted : v.OpenUpTo maxPolls) (broken : x.1 = .error .tooManyPolls)

theorem Ran.verdict {x : Except Error WaitOutcome × Site τ} (h : v.Ran x) : v.Verdict x.1 := by
  cases h with
  | byPoll p made ends _ => exact .byPoll p made ends
  | never uncounted broken => exact .never uncounted broken

theorem asked_of_outcome {s s₁ : Site τ} {r : Except Error StatusReport}
    (h : outcome (reconcile v.scheduler v.target.batch v.target.runs) s = (r, s₁)) :
    v.asked s.world = (r, s₁.world) := by
  obtain ⟨hanswer, hworld⟩ := blind_reconcile v.scheduler v.target.batch v.target.runs
    { tree := s.world.1, outside := s.world.2 } s rfl
  rw [h] at hanswer hworld
  exact Prod.ext hanswer hworld

theorem OpenUpTo.succ {polls : Nat} (h : v.OpenUpTo polls) (hnext : ¬ v.Ends (polls + 1)) :
    v.OpenUpTo (polls + 1) := by
  intro p hpos hle
  rcases Nat.lt_or_eq_of_le hle with hlt | rfl
  · exact h p hpos (Nat.le_of_lt_succ hlt)
  · exact hnext

theorem OpenUpTo.made {polls : Nat} (h : v.OpenUpTo polls) (hcount : polls + 1 ≤ maxPolls) :
    v.Made (polls + 1) :=
  ⟨Nat.le_add_left 1 polls, hcount, fun p hpos hlt => h p hpos (Nat.le_of_lt_succ hlt)⟩

/-- What the loop does after a poll that does not finish: it gives up, or sleeps and goes on. -/
def goOn (v : Watch τ) (fuel poll : Nat) (last : Option StatusReport) : Action τ WaitOutcome := do
  if v.options.maxWait.any (· < (← v.clock.read) - v.clock.elapsed v.start.2) then
    return .timedOut poll last
  else
    v.clock.pause v.options.pollInterval
    pollLoop v.scheduler v.clock v.target v.options (v.clock.elapsed v.start.2) fuel poll last

/-- The wait from some poll on. -/
def loop (v : Watch τ) (fuel polls : Nat) (last : Option StatusReport) : Action τ WaitOutcome :=
  pollLoop v.scheduler v.clock v.target v.options (v.clock.elapsed v.start.2) fuel polls last

theorem outcome_loop_finished {fuel polls : Nat} {last : Option StatusReport} {s s' : Site τ}
    {report : StatusReport}
    (h : outcome (pollOnce v.scheduler v.target v.options (polls + 1)) s =
      (.ok (.finished report), s')) :
    outcome (v.loop (fuel + 1) polls last) s = (.ok (.ofReport (polls + 1) report), s') := by
  rw [loop, pollLoop, outcome_bind, h]
  rfl

theorem outcome_loop_goesOn {fuel polls : Nat} {last : Option StatusReport} {s s' : Site τ}
    {report : StatusReport}
    (h : outcome (pollOnce v.scheduler v.target v.options (polls + 1)) s =
      (.ok (.goesOn report), s')) :
    outcome (v.loop (fuel + 1) polls last) s =
      outcome (v.goOn fuel (polls + 1) (some report)) s' := by
  rw [loop, pollLoop, outcome_bind, h]
  rfl

theorem outcome_loop_unknown {fuel polls : Nat} {last : Option StatusReport} {s s' : Site τ}
    (h : outcome (pollOnce v.scheduler v.target v.options (polls + 1)) s = (.ok .unknown, s')) :
    outcome (v.loop (fuel + 1) polls last) s = outcome (v.goOn fuel (polls + 1) last) s' := by
  rw [loop, pollLoop, outcome_bind, h]
  rfl

theorem late_iff {poll : Nat} :
    v.Late poll ↔ (v.options.maxWait.any fun limit => decide (limit <
      v.clock.elapsed (v.after poll).2 - v.clock.elapsed v.start.2)) = true := by
  unfold Late
  cases v.options.maxWait <;> simp

/-- A poll that neither finishes nor breaks the wait leaves it to the time, and then to the rest. -/
theorem ran_goOn {fuel polls : Nat} {s : Site τ} (hs : s.world = v.after (polls + 1))
    (hopen : v.OpenUpTo polls) (hcount : polls + 1 ≤ maxPolls)
    (unfinished : ∀ report, ¬ v.Finishes (polls + 1) report)
    (unbroken : ∀ e, ¬ v.Breaks (polls + 1) e)
    (hrest : ∀ s', s'.world = v.before (polls + 1) → v.OpenUpTo (polls + 1) →
      v.Ran (outcome (v.loop fuel (polls + 1) (v.lastReport (polls + 1))) s')) :
    v.Ran (outcome (v.goOn fuel (polls + 1) (v.lastReport (polls + 1))) s) := by
  have helapsed : v.clock.elapsed s.outside = v.clock.elapsed (v.after (polls + 1)).2 := by
    rw [← hs, Site.world]
  have hread : outcome v.clock.read s = (.ok (v.clock.elapsed s.outside), s) := rfl
  rw [goOn, outcome_bind, hread, helapsed]
  by_cases hlate : v.Late (polls + 1)
  · simp only [if_pos (late_iff.mp hlate)]
    exact .byPoll (polls + 1) (hopen.made hcount) (.late hlate unfinished unbroken) hs
  · simp only [if_neg (mt late_iff.mpr hlate)]
    have hnext : ¬ v.Ends (polls + 1) := by
      rintro (⟨report, hfin⟩ | ⟨e, hbreaks⟩ | hlate')
      · exact unfinished report hfin
      · exact unbroken e hbreaks
      · exact hlate hlate'
    rw [outcome_bind]
    refine hrest _ ?_ (hopen.succ hnext)
    show v.clock.sleep v.options.pollInterval s.world = v.before (polls + 1)
    rw [hs]
    rfl

/-- The invariant of the loop: so far no poll was a reason to end the wait, the world is the one
after them, and the latest report is kept. -/
theorem ran_loop : ∀ {fuel polls : Nat} {s : Site τ}, polls + fuel = maxPolls →
    s.world = v.before polls → v.OpenUpTo polls →
    v.Ran (outcome (v.loop fuel polls (v.lastReport polls)) s)
  | 0, polls, s, hcount, _, hopen => by
    have hpolls : polls = maxPolls := hcount
    exact .never (hpolls ▸ hopen) rfl
  | fuel + 1, polls, s, hcount, hs, hopen => by
    have hcounted : polls + 1 ≤ maxPolls := by omega
    rcases hr : outcome (reconcile v.scheduler v.target.batch v.target.runs) s with ⟨r, s₁⟩
    have hasked : v.asked (v.before polls) = (r, s₁.world) := hs ▸ asked_of_outcome hr
    have hreply : v.reply (polls + 1) = r := congrArg Prod.fst hasked
    have hafter : v.after (polls + 1) = s₁.world := congrArg Prod.snd hasked
    have hrest : ∀ s', s'.world = v.before (polls + 1) → v.OpenUpTo (polls + 1) →
        v.Ran (outcome (v.loop fuel (polls + 1) (v.lastReport (polls + 1))) s') :=
      fun s' hs' hopen' => ran_loop (by omega) hs' hopen'
    cases r with
    | ok report =>
      have hlast : v.lastReport (polls + 1) = some report := by rw [lastReport, hreply]
      have unbroken : ∀ e, ¬ v.Breaks (polls + 1) e :=
        fun e hbreaks => nomatch hreply.symm.trans hbreaks.1
      obtain ⟨s', hpoll, hs'⟩ := pollOnce_of_report v.options (polls + 1) hr
      by_cases hfin : v.Finishes (polls + 1) report
      · have hj : judged v.target v.options (polls + 1) report s₁.world = .finished report :=
          if_pos ⟨hfin.2.1, hafter ▸ hfin.2.2⟩
        rw [outcome_loop_finished (hj ▸ hpoll)]
        exact .byPoll (polls + 1) (hopen.made hcounted) (.finished hfin) (hs'.trans hafter.symm)
      · have hj : judged v.target v.options (polls + 1) report s₁.world = .goesOn report :=
          if_neg fun h => hfin ⟨hreply, h.1, hafter.symm ▸ h.2⟩
        have unfinished : ∀ report', ¬ v.Finishes (polls + 1) report' := fun report' hfin' =>
          hfin (Except.ok.inj (hreply.symm.trans hfin'.1) ▸ hfin')
        rw [outcome_loop_goesOn (hj ▸ hpoll), ← hlast]
        exact ran_goOn (hs'.trans hafter.symm) hopen hcounted unfinished unbroken hrest
    | error e =>
      have unfinished : ∀ report, ¬ v.Finishes (polls + 1) report :=
        fun report hfin => nomatch hreply.symm.trans hfin.1
      by_cases he : e.IsFatal
      · have hloop : outcome (v.loop (fuel + 1) polls (v.lastReport polls)) s = (.error e, s₁) := by
          rw [loop, pollLoop, outcome_bind, pollOnce_of_fatal _ _ he hr]
        rw [hloop]
        exact .byPoll (polls + 1) (hopen.made hcounted) (.broken ⟨hreply, he⟩) hafter.symm
      · have hlast : v.lastReport (polls + 1) = v.lastReport polls := by rw [lastReport, hreply]
        have unbroken : ∀ e', ¬ v.Breaks (polls + 1) e' := fun e' hbreaks =>
          he (Except.error.inj (hreply.symm.trans hbreaks.1) ▸ hbreaks.2)
        obtain ⟨s', hpoll, hs'⟩ := pollOnce_of_failure v.options (polls + 1) he hr
        rw [outcome_loop_unknown hpoll, ← hlast]
        exact ran_goOn (hs'.trans hafter.symm) hopen hcounted unfinished unbroken hrest

/-- From the moment on in which the time starts to count. -/
theorem ran_start {fuel : Nat} {s : Site τ} (hfuel : 0 + fuel = maxPolls)
    (hs : s.world = v.start) :
    v.Ran (outcome (v.clock.read >>= fun started =>
      pollLoop v.scheduler v.clock v.target v.options started fuel 0 none) s) := by
  have hread : outcome v.clock.read s = (.ok (v.clock.elapsed v.start.2), s) := by
    rw [← hs]
    rfl
  rw [outcome_bind, hread]
  exact ran_loop hfuel hs fun p hpos hle => absurd hle (Nat.not_le_of_lt hpos)

theorem ran_wait (v : Watch τ) :
    v.Ran (outcome (waitForCompletion v.scheduler v.clock v.target v.options) v.site) := by
  rw [waitForCompletion, outcome_bind, Action.outcome_say]
  by_cases hdelay : v.options.initialDelay = 0
  · have hstart : v.start = v.site.world := if_pos hdelay
    simp only [hdelay, ne_eq, not_true_eq_false, if_false]
    exact ran_start (Nat.zero_add _) hstart.symm
  · have hstart : v.start = v.clock.sleep v.options.initialDelay v.site.world := if_neg hdelay
    simp only [hdelay, ne_eq, not_false_eq_true, if_true]
    rw [outcome_bind]
    exact ran_start (Nat.zero_add _) hstart.symm

theorem verdict_answer (v : Watch τ) : v.Verdict v.answer := v.ran_wait.verdict

/-! ### Exactly when a wait ends how -/

/-- A wait for a batch succeeds, ends with failures, times out or fails at a poll exactly when that
poll is the first to end the wait, and ends it in that way. A time-out carries the latest report.
Otherwise it goes on until no more polls can be counted. -/
theorem answer_eq_iff (v : Watch τ) :
    (∀ p report, v.answer = .ok (.succeeded p report) ↔
      v.Made p ∧ v.Finishes p report ∧ ∀ t ∈ report.tasks, t.status = .completed) ∧
    (∀ p report, v.answer = .ok (.completedWithFailures p report) ↔
      v.Made p ∧ v.Finishes p report ∧ ∃ t ∈ report.tasks, t.status ≠ .completed) ∧
    (∀ p last, v.answer = .ok (.timedOut p last) ↔
      v.Made p ∧ v.Late p ∧ (∀ report, ¬ v.Finishes p report) ∧ (∀ e, ¬ v.Breaks p e) ∧
        last = v.lastReport p) ∧
    ∀ e, v.answer = .error e ↔
      (∃ p, v.Made p ∧ v.Breaks p e) ∨ (e = .tooManyPolls ∧ v.OpenUpTo maxPolls) := by
  have hverdict := v.verdict_answer
  have hat : ∀ {p r}, v.Made p → v.EndsWith p r → v.answer = r :=
    fun made ends => hverdict.unique (.byPoll _ made ends)
  refine ⟨fun p report => ⟨fun h => ?_, fun ⟨made, fin, all⟩ => hat made (.succeeded fin all)⟩,
    fun p report => ⟨fun h => ?_, fun ⟨made, fin, notAll⟩ => hat made (.withFailures fin notAll)⟩,
    fun p last => ⟨fun h => ?_, ?_⟩, fun e => ⟨fun h => ?_, ?_⟩⟩
  · -- succeeded
    rw [h] at hverdict
    cases hverdict with
    | byPoll q made ends =>
      cases ends with
      | succeeded fin all => exact ⟨made, fin, all⟩
    | never _ broken => cases broken
  · -- completed with failures
    rw [h] at hverdict
    cases hverdict with
    | byPoll q made ends =>
      cases ends with
      | withFailures fin notAll => exact ⟨made, fin, notAll⟩
    | never _ broken => cases broken
  · -- timed out
    rw [h] at hverdict
    cases hverdict with
    | byPoll q made ends =>
      cases ends with
      | late late unfinished unbroken => exact ⟨made, late, unfinished, unbroken, rfl⟩
    | never _ broken => cases broken
  · rintro ⟨made, late, unfinished, unbroken, rfl⟩
    exact hat made (.late late unfinished unbroken)
  · -- failed
    rw [h] at hverdict
    cases hverdict with
    | byPoll q made ends =>
      cases ends with
      | broken broken => exact .inl ⟨q, made, broken⟩
    | never uncounted broken => exact .inr ⟨Except.error.inj broken, uncounted⟩
  · rintro (⟨p, made, broken⟩ | ⟨rfl, uncounted⟩)
    · exact hat made (.broken broken)
    · exact hverdict.unique (.never uncounted rfl)

end Watch

end ParamSweep
