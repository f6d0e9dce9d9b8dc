import ParamSweep.Proofs.GrowingTexts
import ParamSweep.Proofs.Place
import ParamSweep.Proofs.StageTable

/-!
The stage of a task over time.

Logs are only ever appended to. Whatever tells of a failure, or of a finished build or start, stands
in a log for good once it is there (`Fails.extends`, `containsAny_of_extends`), so a task that has
failed stays so and the others move on in their course. The end of a run is looked for near the end
of its log only, and there a task can go back: from completed to running, when more is written than
the window holds.
-/

namespace ParamSweep

/-! ### Markers that stay -/

namespace StageMarkers

variable {m : StageMarkers} {line line' text text' : String}

/-- The words by which the stages are told. -/
def words (m : StageMarkers) : List String :=
  m.error ++ m.failureWords ++ m.buildCompletion ++ m.startCompletion ++ m.runCompletion ++
    [m.standaloneDone]

/-- The words by which the stages are told are made of printable ASCII. -/
def Printable (m : StageMarkers) : Prop := ∀ word ∈ m.words, ∀ c ∈ word.toList, Text.Printable c

instance (m : StageMarkers) : Decidable m.Printable :=
  decidable_of_iff (m.words.all fun word => word.toList.all (Text.Printable ·))
    (by simp [Printable])

theorem Printable.error (h : m.Printable) {word : String} (hword : word ∈ m.error) :
    ∀ c ∈ word.toList, Text.Printable c := h word (by simp [words, hword])

theorem Printable.failureWords (h : m.Printable) {word : String} (hword : word ∈ m.failureWords) :
    ∀ c ∈ word.toList, Text.Printable c := h word (by simp [words, hword])

theorem Printable.startCompletion (h : m.Printable) :
    ∀ word ∈ m.startCompletion, ∀ c ∈ word.toList, Text.Printable c :=
  fun word hword => h word (by simp [words, hword])

theorem Printable.buildCompletion (h : m.Printable) :
    ∀ word ∈ m.buildCompletion, ∀ c ∈ word.toList, Text.Printable c :=
  fun word hword => h word (by simp [words, hword])

/-- A line that tells of a failure still does when it goes on. -/
theorem TellsOfFailure.grows (h : m.TellsOfFailure line) (hm : m.Printable)
    (hgrows : Text.Grows line.toList line'.toList) : m.TellsOfFailure line' := by
  rcases h with ⟨marker, hmarker, hline⟩ | ⟨word, hword, hline⟩
  · exact .inl ⟨marker, hmarker, Text.infix_of_grows (hm.error hmarker) hgrows hline⟩
  · exact .inr ⟨word, hword, Text.infix_lower_of_grows
      (Text.printable_lower (hm.failureWords hword)) hgrows hline⟩

/-- A text that tells of a failure still does when more is written to it. -/
theorem Fails.extends (h : m.Fails text) (hm : m.Printable)
    (hextends : Text.Extends text.toList text'.toList) : m.Fails text' := by
  obtain ⟨_, hline, htells⟩ := h
  obtain ⟨cs, hcs, rfl⟩ := List.mem_map.1 hline
  obtain ⟨cs', hcs', hgrows⟩ := Text.exists_line_of_extends hextends hcs
  refine ⟨String.ofList cs', List.mem_map_of_mem hcs', htells.grows hm ?_⟩
  rwa [String.toList_ofList, String.toList_ofList]

end StageMarkers

/-- A word that stands in a text still does when more is written to it. -/
theorem containsAny_of_extends {words : List String} {text text' : String}
    (hwords : ∀ word ∈ words, ∀ c ∈ word.toList, Text.Printable c)
    (h : Text.Extends text.toList text'.toList) (hold : containsAny words text = true) :
    containsAny words text' = true := by
  obtain ⟨word, hword, hinfix⟩ := containsAny_iff.1 hold
  exact containsAny_iff.2 ⟨word, hword, Text.infix_lower_of_grows
    (Text.printable_lower (hwords word hword)) h.grows hinfix⟩

/-! ### The course of a task -/

namespace Stage

/-- The stages of a task that goes well, in their order. -/
def course : List Stage :=
  [.initializing, .build, .buildComplete, .start, .startComplete, .run, .completed]

/-- A stage is not before another one in the course, or it is running after having seemed
completed. -/
def Follows (later earlier : Stage) : Prop :=
  earlier ∈ course ∧ later ∈ course ∧
    (course.idxOf earlier ≤ course.idxOf later ∨ earlier = .completed ∧ later = .run)

instance (later earlier : Stage) : Decidable (Follows later earlier) :=
  inferInstanceAs (Decidable (_ ∧ _))

/-- Whatever went before, a task can be running or completed. -/
theorem follows_of_mem_course :
    ∀ earlier ∈ course, Follows .run earlier ∧ Follows .completed earlier := by
  decide

/-- What the stages of one task can be, one later than the other. -/
structure GoesOn (earlier later : Stage) : Prop where
  /-- A task that has failed stays so. -/
  failed : earlier = .failed → later = .failed
  /-- A task that has not failed does not go back, except from completed to running. -/
  follows : later ≠ .failed → later.Follows earlier

end Stage

/-! ### Logs that grow -/

/-- A log later on: if it was there, it still is, and its text has been extended. -/
def LogGrows (log log' : Option TaskLog) : Prop :=
  ∀ l, log = some l → ∃ l', log' = some l' ∧ Text.Extends l.text.toList l'.text.toList

theorem LogGrows.eq_none {log : Option TaskLog} (h : LogGrows log none) : log = none := by
  rcases log with _ | l
  · rfl
  · obtain ⟨_, hl, -⟩ := h l rfl
    cases hl

/-- The logs of a task later on. -/
structure TaskLogs.Grow (logs logs' : TaskLogs) : Prop where
  run : LogGrows logs.run logs'.run
  start : LogGrows logs.start logs'.start
  build : LogGrows logs.build logs'.build

section Logs

variable {m : StageMarkers} {logs logs' : TaskLogs}

theorem TaskLogs.mem_present {p : String × TaskLog} :
    p ∈ logs.present ↔ (p.1 = "run" ∧ logs.run = some p.2) ∨
      (p.1 = "start" ∧ logs.start = some p.2) ∨ (p.1 = "build" ∧ logs.build = some p.2) := by
  obtain ⟨label, log⟩ := p
  simp [present, Option.map_eq_some_iff, eq_comm, and_comm]

/-- Logs that tell of no failure told of none before. -/
theorem TaskLogs.Grow.sound (h : logs.Grow logs') (hm : m.Printable) (hsound : logs'.Sound m) :
    logs.Sound m := by
  have hlog : ∀ {label : String} {log log' : Option TaskLog}, LogGrows log log' →
      (∀ l', log' = some l' → (label, l') ∈ logs'.present) →
        ∀ l, log = some l → ¬ m.Fails l.text := by
    intro label log log' hgrows hmem l hl hfails
    obtain ⟨l', hl', hextends⟩ := hgrows l hl
    exact hsound (label, l') (hmem l' hl') (hfails.extends hm hextends)
  rintro ⟨label, log⟩ hp
  rcases TaskLogs.mem_present.1 hp with ⟨-, hrun⟩ | ⟨-, hstart⟩ | ⟨-, hbuild⟩
  · exact hlog h.run (fun l' hl' => TaskLogs.mem_present.2 (.inl ⟨rfl, hl'⟩)) log hrun
  · exact hlog h.start (fun l' hl' => TaskLogs.mem_present.2 (.inr (.inl ⟨rfl, hl'⟩))) log hstart
  · exact hlog h.build (fun l' hl' => TaskLogs.mem_present.2 (.inr (.inr ⟨rfl, hl'⟩))) log hbuild

namespace StageInfo

/-- The stage of a task whose logs tell of no failure. -/
theorem stage_ofLogs_of_sound (h : logs.Sound m) :
    (ofLogs m logs).stage =
      match logs.run, logs.start, logs.build with
      | some log, _, _ => if (runCompletion? m log.text).isSome then .completed else .run
      | none, some log, _ =>
        if containsAny m.startCompletion log.text then .startComplete else .start
      | none, none, some log =>
        if containsAny m.buildCompletion log.text then .buildComplete else .build
      | none, none, none => .initializing := by
  rw [ofLogs, failure?_eq_none_iff.2 h]
  obtain ⟨_ | run, _ | start, _ | build⟩ := logs
  · rfl
  · simp only [ofBuildLog]
    split <;> rfl
  · simp only [ofStartLog]
    split <;> rfl
  · simp only [ofStartLog]
    split <;> rfl
  all_goals exact stage_ofRunLog m run.text

theorem mem_course_of_sound (h : logs.Sound m) : (ofLogs m logs).stage ∈ Stage.course := by
  rw [stage_ofLogs_of_sound h]
  split
  · split <;> decide
  · split <;> decide
  · split <;> decide
  · decide

/-- A step of the course that a word in a log tells the end of stays done. -/
theorem follows_of_extends {words : List String} {text text' : String}
    (hwords : ∀ word ∈ words, ∀ c ∈ word.toList, Text.Printable c)
    (hextends : Text.Extends text.toList text'.toList) {done going : Stage}
    (hcourse : done.Follows done ∧ done.Follows going ∧ going.Follows going) :
    (if containsAny words text' then done else going).Follows
      (if containsAny words text then done else going) := by
  by_cases hold : containsAny words text = true
  · rw [if_pos hold, if_pos (containsAny_of_extends hwords hextends hold)]
    exact hcourse.1
  · rw [if_neg hold]
    split
    · exact hcourse.2.1
    · exact hcourse.2.2

/-- As long as no log tells of a failure, a task moves on in its course. -/
theorem follows_of_sound (hm : m.Printable) (h : logs.Grow logs') (hsound : logs.Sound m)
    (hsound' : logs'.Sound m) :
    (ofLogs m logs').stage.Follows (ofLogs m logs).stage := by
  have hcourse : (ofLogs m logs).stage ∈ Stage.course := mem_course_of_sound hsound
  rw [stage_ofLogs_of_sound hsound']
  -- a log that is missing now was missing before, so the cases are those of the later logs
  rcases hrun' : logs'.run with _ | run'
  · have hrun : logs.run = none := (hrun' ▸ h.run).eq_none
    rw [stage_ofLogs_of_sound hsound, hrun]
    rcases hstart' : logs'.start with _ | start'
    · have hstart : logs.start = none := (hstart' ▸ h.start).eq_none
      rw [hstart]
      rcases hbuild : logs.build with _ | build
      · rcases logs'.build with _ | build'
        · dsimp only
          decide
        · dsimp only
          split <;> decide
      · obtain ⟨build', hbuild', hextends⟩ := h.build build hbuild
        rw [hbuild']
        exact follows_of_extends hm.buildCompletion hextends (by decide)
    · rcases hstart : logs.start with _ | start
      · rcases logs.build with _ | build
        · dsimp only
          split <;> decide
        · dsimp only
          split <;> split <;> decide
      · obtain ⟨l, hl, hextends⟩ := h.start start hstart
        cases hstart'.symm.trans hl
        exact follows_of_extends hm.startCompletion hextends (by decide)
  · dsimp only
    split
    · exact (Stage.follows_of_mem_course _ hcourse).2
    · exact (Stage.follows_of_mem_course _ hcourse).1

/-- When the logs of a task grow, its stage goes on. -/
theorem goesOn_ofLogs (hm : m.Printable) (h : logs.Grow logs') :
    (ofLogs m logs).stage.GoesOn (ofLogs m logs').stage := by
  refine ⟨fun hfailed => ?_, fun hlater => ?_⟩
  · rw [stage_ofLogs_eq_failed_iff] at hfailed ⊢
    exact fun hsound => hfailed (h.sound hm hsound)
  · have hsound' : logs'.Sound m := not_not.1 (mt stage_ofLogs_eq_failed_iff.2 hlater)
    have hsound : logs.Sound m := h.sound hm hsound'
    exact follows_of_sound hm h hsound hsound'

end StageInfo

end Logs

/-! ### Directories that grow -/

/-- The logs in a directory later on: the directory is still there, and every log that was there
still starts with the bytes that it had. -/
structure LogsGrow (names : LogFileNames) (dir : String) (t t' : FileTree) : Prop where
  isDir : t.isDir dir = true → t'.isDir dir = true
  grows : ∀ name ∈ [names.run, names.start, names.build], ∀ bytes,
    t.readBytes (Path.join dir name) = .ok bytes →
      ∃ more, t'.readBytes (Path.join dir name) = .ok (bytes ++ more)

namespace LogsGrow

variable {names : LogFileNames} {dir : String} {t t' t'' : FileTree}

theorem refl (names : LogFileNames) (dir : String) (t : FileTree) : LogsGrow names dir t t :=
  ⟨id, fun _ _ bytes h => ⟨ByteArray.empty, by rw [h, ByteArray.append_empty]⟩⟩

theorem trans (h : LogsGrow names dir t t') (h' : LogsGrow names dir t' t'') :
    LogsGrow names dir t t'' := by
  refine ⟨h'.isDir ∘ h.isDir, fun name hname bytes hbytes => ?_⟩
  obtain ⟨more, hmore⟩ := h.grows name hname bytes hbytes
  obtain ⟨more', hmore'⟩ := h'.grows name hname _ hmore
  exact ⟨more ++ more', by rw [hmore', ByteArray.append_assoc]⟩

/-- What holds from one moment to the next holds over any time. -/
theorem of_le {history : ℕ → FileTree}
    (h : ∀ n, LogsGrow names dir (history n) (history (n + 1))) {i j : ℕ} (hij : i ≤ j) :
    LogsGrow names dir (history i) (history j) := by
  induction j, hij using Nat.le_induction with
  | base => exact refl _ _ _
  | succ j _ ih => exact ih.trans (h j)

/-- The texts of growing files are extended. -/
theorem grow_read (h : LogsGrow names dir t t') :
    (TaskLogs.read t names dir).Grow (TaskLogs.read t' names dir) := by
  have hlog : ∀ name ∈ [names.run, names.start, names.build],
      LogGrows (TaskLog.read? t (Path.join dir name)) (TaskLog.read? t' (Path.join dir name)) := by
    intro name hname l hl
    obtain ⟨bytes, hbytes, rfl⟩ := read?_eq_some_iff.1 hl
    obtain ⟨more, hmore⟩ := h.grows name hname bytes hbytes
    exact ⟨_, read?_eq_some_iff.2 ⟨_, hmore, rfl⟩, Text.extends_utf8Lossy bytes more⟩
  exact ⟨hlog _ (by simp), hlog _ (by simp), hlog _ (by simp)⟩

end LogsGrow

/-- While the logs in a directory grow, the stage of the task goes on: once failed it stays failed,
and otherwise it never goes back in its course, except from completed to running. -/
theorem goesOn_of_logsGrow {s : MonitorSettings} (hmarkers : s.markers.Printable) {dir : String}
    {history : ℕ → FileTree} (hdir : (history 0).isDir dir = true)
    (hgrow : ∀ n, LogsGrow s.logFiles dir (history n) (history (n + 1))) {i j : ℕ} (hij : i ≤ j) :
    (inferStage (history i) s (some dir)).stage.GoesOn
      (inferStage (history j) s (some dir)).stage := by
  have hthere : ∀ n, (history n).isDir dir = true := fun n =>
    (LogsGrow.of_le hgrow (Nat.zero_le n)).isDir hdir
  rw [inferStage_of_isDir (hthere i), inferStage_of_isDir (hthere j)]
  exact StageInfo.goesOn_ofLogs hmarkers (LogsGrow.of_le hgrow hij).grow_read

/-- What is written to a log, piece by piece. A letter and a line are cut off in between. -/
def pieces : ℕ → ByteArray
  | 0 => ⟨#[0x20, 0x31, 0x20, 0xC3]⟩
  | 1 => ⟨#[0xA9, 0x0A]⟩ ++ "done".toUTF8
  | 2 => "\n 2 Fai".toUTF8
  | 3 => "LED\n".toUTF8
  | _ => ByteArray.empty

/-- The log after the first pieces. -/
def writtenLog : ℕ → ByteArray
  | 0 => ByteArray.empty
  | n + 1 => writtenLog n ++ pieces n

/-- A directory with the log of a run. -/
def runLogged (log : ByteArray) : FileTree where
  entries := [("a", .dir [("pc_run.log", .file log false)])]

/-- Markers that look at the last line only. -/
def lastLineOnly : MonitorSettings where
  markers := { completionWindow := 1, standaloneWindow := 1 }

/-- Whatever the log holds, the directory that it lies in is found. -/
theorem place_runLogged (log : ByteArray) :
    (runLogged log).place "a" = ["a"] ∧
      (runLogged log).Passable ((runLogged log).start "a") (Path.parts "a") := by
  have hparts : Path.parts "a" = ["a"] ∧ Path.isAbsolute "a" = false := by decide +kernel
  have hstart : (runLogged log).start "a" = [] := if_neg (by rw [hparts.2]; decide)
  rw [FileTree.place, hstart, hparts.1]
  exact ⟨rfl, rfl, .inr (.inr (by decide)), trivial⟩

theorem node_runLogged (log : ByteArray) :
    (runLogged log).node "a" = .ok (.dir [("pc_run.log", .file log false)]) := by
  have hpath : FileTree.pathFault? "a" = none ∧ "a".endsWith "/" = false := by decide +kernel
  obtain ⟨hplace, hpass⟩ := place_runLogged log
  refine FileTree.node_eq_ok_iff.2 ⟨⟨hpath.1, hpass, fun h => ?_⟩, by rw [hplace]; rfl⟩
  rw [hpath.2] at h
  cases h

theorem readBytes_runLogged_iff {log bytes : ByteArray} {name : String} (hname : Path.IsName name)
    (hpath : FileTree.pathFault? (Path.join "a" name) = none) :
    (runLogged log).readBytes (Path.join "a" name) = .ok bytes ↔
      name = "pc_run.log" ∧ bytes = log := by
  obtain ⟨hplace, hpass⟩ := place_runLogged log
  have hreach : (runLogged log).Reaches (Path.join "a" name) :=
    (FileTree.reaches_join_iff hname).2 ⟨hpath, hpass, by rw [hplace]; rfl⟩
  rw [FileTree.readBytes_eq_ok_iff, FileTree.place_join_name _ _ hname, hplace]
  simp only [hreach, true_and, FileTree.sight_eq_file_iff]
  by_cases hrun : "pc_run.log" = name
  · subst hrun
    simp [runLogged, FileTree.nodeAt?, Node.nodeAt?, Entries.find?, eq_comm]
  · simp [runLogged, FileTree.nodeAt?, Node.nodeAt?, Entries.find?, hrun, Ne.symm hrun]

theorem logsGrow_runLogged (log more : ByteArray) :
    LogsGrow lastLineOnly.logFiles "a" (runLogged log) (runLogged (log ++ more)) := by
  have hnames : ∀ name ∈ [lastLineOnly.logFiles.run, lastLineOnly.logFiles.start,
      lastLineOnly.logFiles.build], Path.IsName name ∧
        FileTree.pathFault? (Path.join "a" name) = none := by decide +kernel
  refine ⟨fun _ => by rw [FileTree.isDir, node_runLogged]; rfl, fun name hname bytes hbytes => ?_⟩
  obtain ⟨hisName, hpath⟩ := hnames name hname
  obtain ⟨rfl, rfl⟩ := (readBytes_runLogged_iff hisName hpath).1 hbytes
  exact ⟨more, (readBytes_runLogged_iff hisName hpath).2 ⟨rfl, rfl⟩⟩

/-- A run that seems completed goes on, and then fails for good. -/
theorem goesOn_of_run_log :
    (inferStage (runLogged (writtenLog 1)) lastLineOnly (some "a")).stage = .run ∧
      (inferStage (runLogged (writtenLog 2)) lastLineOnly (some "a")).stage = .completed ∧
      (inferStage (runLogged (writtenLog 3)) lastLineOnly (some "a")).stage = .run ∧
      ∀ n ≥ 4, (inferStage (runLogged (writtenLog n)) lastLineOnly (some "a")).stage = .failed := by
  have hmarkers : lastLineOnly.markers.Printable := by decide +kernel
  have hdir : (runLogged (writtenLog 0)).isDir "a" = true := by decide +kernel
  have hstages :
      (inferStage (runLogged (writtenLog 1)) lastLineOnly (some "a")).stage = .run ∧
      (inferStage (runLogged (writtenLog 2)) lastLineOnly (some "a")).stage = .completed ∧
      (inferStage (runLogged (writtenLog 3)) lastLineOnly (some "a")).stage = .run ∧
      (inferStage (runLogged (writtenLog 4)) lastLineOnly (some "a")).stage = .failed := by
    decide +kernel
  obtain ⟨hfirst, hsecond, hthird, hfourth⟩ := hstages
  refine ⟨hfirst, hsecond, hthird, fun n hn => ?_⟩
  have hgrow : ∀ n, LogsGrow lastLineOnly.logFiles "a" (runLogged (writtenLog n))
      (runLogged (writtenLog (n + 1))) := fun n => logsGrow_runLogged (writtenLog n) (pieces n)
  exact (goesOn_of_logsGrow hmarkers hdir hgrow hn).failed hfourth

end ParamSweep
