import Mathlib
import ParamSweep.Proofs.Compilation
import ParamSweep.Suite.Script

/-!
The commands of a plan as a shell reads them back from the job script.

The reader of this module divides a line into words and does nothing else: it goes through the
line from left to right and remembers which quotes it is in. What outside of quotes would mean more
than a character of a word is refused, and what stands for a value between double quotes is left as
it is written, since it does not divide a word. A command in single quotes is one word, whatever is
in it (`words_shellQuote`). The name of a log is pasted between double quotes as it is, so the line
of a stage is read as it was meant where that name does not end its word.
-/

namespace ParamSweep.Script

/-! ### Words of a line -/

/-- Where in a line a reader is. -/
inductive Mode where
  | between
  | bare
  /-- Behind a backslash outside of quotes. -/
  | escaped
  | single
  | double
  /-- Behind a backslash between double quotes. -/
  | doubleEscaped
  /-- Behind a dollar sign between double quotes. -/
  | dollar
  /-- In the name of a parameter between double quotes. -/
  | braced
  | refused
  deriving DecidableEq

/-- What a reader does with a character. -/
inductive Action where
  /-- Adds to the open word, and goes on in a mode. -/
  | add (cs : List Char) (mode : Mode)
  /-- Ends the open word. -/
  | close

/-- The characters that mean something outside of quotes. -/
def meaningful : List Char :=
  ['\n', '|', '&', ';', '<', '>', '(', ')', '$', '\x60', '*', '?', '[', ']', '\x7b', '\x7d']

/-- The characters that a backslash escapes between double quotes. -/
def escapable : List Char := ['$', '\x60', '"', '\\']

/-- A character of a word outside of quotes. -/
def onBare (c : Char) : Action :=
  if c = '\'' then .add [] .single
  else if c = '"' then .add [] .double
  else if c = '\\' then .add [] .escaped
  else if c ∈ meaningful then .add [] .refused
  else .add [c] .bare

/-- A character between double quotes. -/
def onDouble (c : Char) : Action :=
  if c = '"' then .add [] .bare
  else if c = '\\' then .add [] .doubleEscaped
  else if c = '\x60' then .add [] .refused
  else if c = '$' then .add [c] .dollar
  else .add [c] .double

/-- What a reader does with a character, by the rules for words and quotes of a shell. Comments,
patterns, operators and the results of commands are refused. -/
def act : Mode → Char → Action
  | .between, c =>
    if c = ' ' ∨ c = '\t' then .add [] .between
    else if c = '#' ∨ c = '~' then .add [] .refused
    else onBare c
  | .bare, c => if c = ' ' ∨ c = '\t' then .close else onBare c
  | .escaped, c => if c = '\n' then .add [] .bare else .add [c] .bare
  | .single, c => if c = '\'' then .add [] .bare else .add [c] .single
  | .double, c => onDouble c
  | .doubleEscaped, c =>
    if c ∈ escapable then .add [c] .double
    else if c = '\n' then .add [] .double
    else .add ['\\', c] .double
  | .dollar, c =>
    if c = '\x7b' then .add [c] .braced
    else if c = '$' then .add [c] .double
    else if c = '(' ∨ c = '[' ∨ c = '@' then .add [] .refused
    else onDouble c
  | .braced, c =>
    if c = '\x7d' then .add [c] .double
    else if c.isAlphanum ∨ c = '_' then .add [c] .braced
    else .add [] .refused
  | .refused, _ => .add [] .refused

/-- A line that is being read: the words that are complete, the one that is not, and where the
reader is. -/
structure Reading where
  complete : List String
  word : List Char
  mode : Mode
  deriving DecidableEq

/-- Reads a character. -/
def step (r : Reading) (c : Char) : Reading :=
  match act r.mode c with
  | .add cs mode => ⟨r.complete, r.word ++ cs, mode⟩
  | .close => ⟨r.complete ++ [String.ofList r.word], [], .between⟩

/-- Reads a text. -/
def reading (r : Reading) (cs : List Char) : Reading := cs.foldl step r

/-- The words of what has been read; `none` in the middle of quotes. -/
def Reading.words? (r : Reading) : Option (List String) :=
  match r.mode with
  | .between => some r.complete
  | .bare => some (r.complete ++ [String.ofList r.word])
  | _ => none

/-- The words of a line. -/
def words (line : String) : Option (List String) := (reading ⟨[], [], .between⟩ line.toList).words?

variable {complete : List String} {word : List Char} {r : Reading} {cs : List Char}

@[simp]
theorem reading_nil (r : Reading) : reading r [] = r := rfl

@[simp]
theorem reading_cons (r : Reading) (c : Char) (cs : List Char) :
    reading r (c :: cs) = reading (step r c) cs := rfl

theorem reading_append (r : Reading) (cs ds : List Char) :
    reading r (cs ++ ds) = reading (reading r cs) ds := List.foldl_append

/-! ### A command in quotes -/

/-- Inside single quotes the escaped text of a command adds the command, and leaves the reader
inside. -/
theorem reading_escaped (complete : List String) (command word : List Char) :
    reading ⟨complete, word, .single⟩
        (command.flatMap fun c => if c = '\'' then ['\'', '\\', '\'', '\''] else [c]) =
      ⟨complete, word ++ command, .single⟩ := by
  induction command generalizing word with
  | nil => simp
  | cons c rest ih =>
    rw [List.flatMap_cons, reading_append]
    by_cases hc : c = '\''
    · -- out of the quotes, past an escaped quote, and in again
      have hquote : reading ⟨complete, word, .single⟩ ['\'', '\\', '\'', '\''] =
          ⟨complete, word ++ ['\''], .single⟩ := by
        simp [step, act, onBare]
      rw [if_pos hc, hquote, ih, hc, List.append_assoc, List.singleton_append]
    · have hplain : reading ⟨complete, word, .single⟩ [c] = ⟨complete, word ++ [c], .single⟩ := by
        simp [step, act, hc]
      rw [if_neg hc, hplain, ih, List.append_assoc, List.singleton_append]

/-- Between two words a command in quotes is a word. -/
theorem reading_shellQuote (complete : List String) (command : String) :
    reading ⟨complete, [], .between⟩ (shellQuote command).toList =
      ⟨complete, command.toList, .bare⟩ := by
  have hopen : step ⟨complete, [], .between⟩ '\'' = ⟨complete, [], .single⟩ := rfl
  have hclose : reading ⟨complete, command.toList, .single⟩ ['\''] =
      ⟨complete, command.toList, .bare⟩ := by
    simp [step, act]
  rw [shellQuote, String.toList_ofList, List.cons_append, reading_cons, hopen, reading_append,
    reading_escaped, List.nil_append, hclose]

theorem words_shellQuote (command : String) : words (shellQuote command) = some [command] := by
  rw [words, reading_shellQuote, Reading.words?, List.nil_append, String.ofList_toList]

/-! ### A text inside the open word -/

/-- The complete words stay. -/
theorem complete_prefix_reading : ∀ (r : Reading) (cs : List Char),
    r.complete <+: (reading r cs).complete
  | _, [] => List.prefix_rfl
  | r, c :: cs => by
    have hstep : r.complete <+: (step r c).complete := by
      rw [step]
      split
      · exact List.prefix_rfl
      · exact List.prefix_append _ _
    exact hstep.trans (complete_prefix_reading (step r c) cs)

/-- A text that ends no word is read in the same way behind other words and another start of the
open one. -/
theorem reading_of_complete_eq (done : List String) (front : List Char) :
    ∀ (r : Reading) (cs : List Char), (reading r cs).complete = r.complete →
      reading ⟨done, front ++ r.word, r.mode⟩ cs =
        ⟨done, front ++ (reading r cs).word, (reading r cs).mode⟩
  | _, [], _ => rfl
  | r, c :: cs, h => by
    have hrest := complete_prefix_reading (step r c) cs
    rw [reading_cons] at h
    cases hact : act r.mode c with
    | close =>
      -- a word that has ended would still be there
      rw [h] at hrest
      have hlength := hrest.length_le
      simp [step, hact] at hlength
    | add ds mode =>
      have hstep : step r c = ⟨r.complete, r.word ++ ds, mode⟩ := by rw [step, hact]
      have hfront : step ⟨done, front ++ r.word, r.mode⟩ c =
          ⟨done, front ++ (step r c).word, (step r c).mode⟩ := by
        simp only [step, hact, List.append_assoc]
      rw [reading_cons, hfront, reading_cons]
      refine reading_of_complete_eq done front (step r c) cs ?_
      rw [h, hstep]

/-! ### The lines of the stages -/

/-- A stage of a task: its name, the name of its log and its command. -/
structure StageCall where
  stage : String
  log : String
  command : String

/-- The stages that a script runs. -/
def calls (i : Inputs) : List StageCall :=
  (if i.rebuild then [⟨"build", i.logFiles.build, i.hpc.buildCommand.getD "pc_build"⟩] else []) ++
    [⟨"start", i.logFiles.start, i.hpc.startCommand.getD "pc_start"⟩,
     ⟨"run", i.logFiles.run, i.hpc.runCommand.getD "pc_run"⟩]

/-- The line of a stage. -/
def StageCall.line (call : StageCall) : String := stageLine call.stage call.log call.command

/-- What the function of the script hands to `eval`: the words behind the name of the stage and its
log, with blanks in between. -/
def evalText (words : List String) : String := Text.joined " " (words.drop 3)

/-- Between double quotes the name of a log does not end its word, and stands for `value`. -/
def Enclosed (log value : String) : Prop :=
  reading ⟨[], [], .double⟩ (log.toList ++ ['"']) = ⟨[], value.toList, .bare⟩

/-- A name in which nothing has a meaning between double quotes stands for itself. -/
theorem enclosed_self {log : String} (h : ∀ c ∈ log.toList, c ∉ escapable) : Enclosed log log := by
  have hplain : ∀ (cs word : List Char), (∀ c ∈ cs, c ∉ escapable) →
      reading ⟨[], word, .double⟩ cs = ⟨[], word ++ cs, .double⟩ := by
    intro cs
    induction cs with
    | nil => simp
    | cons c rest ih =>
      intro word hcs
      obtain ⟨hc, hrest⟩ := List.forall_mem_cons.1 hcs
      simp only [escapable, List.mem_cons, List.not_mem_nil, or_false, not_or] at hc
      have hstep : step ⟨[], word, .double⟩ c = ⟨[], word ++ [c], .double⟩ := by
        simp_all [step, act, onDouble]
      rw [reading_cons, hstep, ih _ hrest, List.append_assoc, List.singleton_append]
  have hclose : reading ⟨[], log.toList, .double⟩ ['"'] = ⟨[], log.toList, .bare⟩ := by
    simp [step, act, onDouble]
  rw [Enclosed, reading_append, hplain log.toList [] h, List.nil_append, hclose]

theorem stages_eq (i : Inputs) : stages i = (calls i).map StageCall.line := by
  rw [stages, calls]
  split <;> rfl

/-- A script ends in the lines of its stages. -/
theorem stages_of_build {i : Inputs} {script : String} (h : build i = .ok script) :
    ∃ front, script = front ++ String.join ((calls i).map fun call => call.line ++ "\n") := by
  obtain ⟨ls, hlines, rfl⟩ := except_map_ok h
  rw [lines] at hlines
  split at hlines
  · cases hlines
  · obtain ⟨ds, -, hlines⟩ := except_bind_ok hlines
    cases hlines
    rw [stages_eq, List.map_append, String.join_append, List.map_map]
    exact ⟨_, rfl⟩

theorem reading_stage {call : StageCall} {i : Inputs} (h : call ∈ calls i) :
    reading ⟨[], [], .between⟩
        ("run_stage " ++ call.stage ++ " \"" ++ expand "TASK_LOG_DIR" ++ "/").toList =
      ⟨["run_stage", call.stage], (expand "TASK_LOG_DIR" ++ "/").toList, .double⟩ := by
  have hstage : call.stage = "build" ∨ call.stage = "start" ∨ call.stage = "run" := by
    rw [calls] at h
    rcases List.mem_append.1 h with h | h
    · split at h
      · exact .inl (List.mem_singleton.1 h ▸ rfl)
      · cases h
    · simp only [List.mem_cons, List.not_mem_nil, or_false] at h
      rcases h with rfl | rfl
      · exact .inr (.inl rfl)
      · exact .inr (.inr rfl)
  rcases hstage with h | h | h <;> rw [h] <;> decide +kernel

/-- The line of a stage whose log is enclosed has four words, and the last is the command. -/
theorem words_line {call : StageCall} {i : Inputs} (h : call ∈ calls i) {value : String}
    (hlog : Enclosed call.log value) :
    words call.line =
      some ["run_stage", call.stage, expand "TASK_LOG_DIR" ++ "/" ++ value, call.command] := by
  have hline : call.line.toList =
      ("run_stage " ++ call.stage ++ " \"" ++ expand "TASK_LOG_DIR" ++ "/").toList ++
        ((call.log.toList ++ ['"']) ++ (' ' :: (shellQuote call.command).toList)) := by
    simp [StageCall.line, stageLine, String.toList_append]
  have hread := reading_of_complete_eq ["run_stage", call.stage]
    (expand "TASK_LOG_DIR" ++ "/").toList ⟨[], [], .double⟩ (call.log.toList ++ ['"'])
  rw [hlog] at hread
  have hblank : ∀ (complete : List String) (word : List Char),
      step ⟨complete, word, .bare⟩ ' ' = ⟨complete ++ [String.ofList word], [], .between⟩ := by
    intro complete word
    rfl
  rw [words, hline, reading_append, reading_stage h, reading_append]
  rw [List.append_nil] at hread
  rw [hread rfl, reading_cons, hblank, reading_shellQuote, Reading.words?]
  simp [String.ofList_append, String.append_assoc]

/-- A shell reads every quoted command as one word, and the line of every stage whose log stays
between its quotes hands the stage's command to `eval` as it is. -/
theorem commands_unchanged (i : Inputs) {script : String} (h : build i = .ok script) :
    (∀ command, words (shellQuote command) = some [command]) ∧
      (∃ front, script = front ++ String.join ((calls i).map fun call => call.line ++ "\n")) ∧
      ∀ call ∈ calls i,
        (∀ value, Enclosed call.log value →
          words call.line = some
              ["run_stage", call.stage, expand "TASK_LOG_DIR" ++ "/" ++ value, call.command] ∧
            (words call.line).map evalText = some call.command) ∧
        ((∀ c ∈ call.log.toList, c ∉ escapable) → Enclosed call.log call.log) := by
  refine ⟨words_shellQuote, stages_of_build h, fun call hcall => ⟨fun value hlog => ?_,
    enclosed_self⟩⟩
  have hwords := words_line hcall hlog
  refine ⟨hwords, ?_⟩
  rw [hwords]
  simp [evalText, Text.joined]

/-- A suite of one run whose first stage has the given log and command. -/
def oneRun (log : String) (command : Option String) : Inputs where
  experiment := "e"
  experimentDir := "runs/e"
  logsDir := "runs/e/slurm_logs"
  hpc := { startCommand := command }
  logFiles := { start := log }
  numRuns := 1
  rebuild := false

theorem command_unchanged_of_quotes :
    ∃ script, build (oneRun "start log.txt" (some "'echo' \\'a\n''")) = .ok script ∧
      words (stageLine "start" "start log.txt" "'echo' \\'a\n''") =
        some ["run_stage", "start", expand "TASK_LOG_DIR" ++ "/" ++ "start log.txt",
          "'echo' \\'a\n''"] := by
  refine ⟨_, rfl, ?_⟩
  have hcalls := (commands_unchanged (oneRun "start log.txt" (some "'echo' \\'a\n''")) rfl).2.2
  have hcall := hcalls ⟨"start", "start log.txt", "'echo' \\'a\n''"⟩ List.mem_cons_self
  exact (hcall.1 _ (hcall.2 (by simp [escapable]))).1

/-- A log whose name leaves the quotes gives `eval` more than the command. -/
theorem command_changed_by_log :
    ∃ script, build (oneRun "a\" b \"c" none) = .ok script ∧
      ⟨"start", "a\" b \"c", "pc_start"⟩ ∈ calls (oneRun "a\" b \"c" none) ∧
      (words (stageLine "start" "a\" b \"c" "pc_start")).map evalText = some "b c pc_start" :=
  ⟨_, rfl, List.mem_cons_self, by decide +kernel⟩

end ParamSweep.Script
