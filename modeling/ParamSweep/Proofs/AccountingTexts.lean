import Mathlib.Data.List.Sort
import Mathlib.Logic.Relation
import ParamSweep.Proofs.Accounting
import ParamSweep.Proofs.ManifestLines
import ParamSweep.Proofs.Trimming

/-!
Which accountings say the same.

What an accounting comes to depends, for each task, on the lines that tell of it and on their order,
and on nothing else. `Rearranged` is the relation that this allows: lines that tell of no task may be
put in and taken out, and two lines may change places unless both tell of one task. `rearranged_iff`
says that it relates exactly those lists that agree task by task, and `accountedStates_spec` what
all this means for the table of states.
-/

namespace ParamSweep

variable {batch : BatchHandle} {line : List Char} {lines lines' : List (List Char)} {task : Nat}
  {state : String}

/-! ### A line as it stands -/

/-- What a line tells of can be read from it untrimmed: its first two columns are what stands before
the first bar and between that and the next. -/
theorem tellsOf_iff :
    TellsOf batch line task state ↔
      ∃ column behind digits, line = column ++ '|' :: behind ∧ '|' ∉ column ∧
        Text.trim column = batch.id.toList ++ ['_'] ++ digits ∧
        digits ≠ [] ∧ (∀ d ∈ digits, d.isDigit = true) ∧ Decimal.natural digits = task ∧
        task ≤ Decimal.wordLimit ∧
        state = String.ofList (Text.trim (behind.takeWhile (· ≠ '|'))) := by
  have hbar : Text.isBlank '|' = false := by decide
  constructor
  · rintro ⟨column, behind, digits, hline, hcolumn, hdigits, hne, hall, hnatural, hlimit, rfl⟩
    have hmem : '|' ∈ line := Text.mem_of_mem_trim (by rw [hline]; simp)
    obtain ⟨column', behind', rfl, hcolumn'⟩ := List.eq_append_cons_of_mem hmem
    have hstart : '|' ∉ Text.trimStart column' := fun h => hcolumn' (Text.mem_of_mem_trimStart h)
    have hsplit : Text.splitOnce '|' (Text.trim (column' ++ '|' :: behind')) =
        some (column, behind) := Text.splitOnce_eq_some_iff.2 ⟨hline, hcolumn⟩
    rw [Text.trim_append_cons hbar, Text.splitOnce_eq_some_iff.2 ⟨rfl, hstart⟩] at hsplit
    cases hsplit
    refine ⟨column', behind', digits, rfl, hcolumn', ?_, hne, hall, hnatural, hlimit, ?_⟩
    · rw [← hdigits, Text.trim_trimStart]
    · rw [Text.trim_takeWhile_trimEnd hbar]
  · rintro ⟨column, behind, digits, rfl, hcolumn, hdigits, hne, hall, hnatural, hlimit, rfl⟩
    refine ⟨Text.trimStart column, Text.trimEnd behind, digits, Text.trim_append_cons hbar,
      fun h => hcolumn (Text.mem_of_mem_trimStart h), ?_, hne, hall, hnatural, hlimit, ?_⟩
    · rw [Text.trim_trimStart, hdigits]
    · rw [Text.trim_takeWhile_trimEnd hbar]

/-! ### Lines and the pieces between line feeds -/

theorem accountedState?_congr {line' : List Char} (h : Text.trim line = Text.trim line') :
    accountedState? batch line = accountedState? batch line' := by
  rw [accountedState?, accountedState?, h]

/-- Neither a carriage return at the end of a line nor an empty line at the end of the text
matters. -/
theorem filterMap_linesOf (pieces : List (List Char)) :
    (Text.linesOf pieces).filterMap (accountedState? batch) =
      pieces.filterMap (accountedState? batch) := by
  induction pieces using Text.linesOf.induct with
  | case1 => rfl
  | case2 last hempty =>
    rw [Text.linesOf, if_pos hempty, List.isEmpty_iff.1 hempty]
    rfl
  | case3 last hlast =>
    rw [Text.linesOf, if_neg hlast]
  | case4 piece rest hrest ih =>
    rw [Text.linesOf, List.filterMap_cons, List.filterMap_cons, ih,
      accountedState?_congr (Text.trim_dropReturn piece)]
    exact hrest

theorem statesIn_lines (cs : List Char) :
    statesIn batch (Text.lines cs) = statesIn batch (Text.splitOn '\n' cs) := by
  rw [statesIn, Text.lines, filterMap_linesOf, statesIn]

/-- A character behind a text belongs to its last piece. -/
theorem Text.splitOn_concat {c d : Char} (hd : d ≠ c) :
    ∀ cs : List Char, ∃ front last, splitOn c cs = front ++ [last] ∧
      splitOn c (cs ++ [d]) = front ++ [last ++ [d]]
  | [] => ⟨[], [], rfl, by simp [splitOn, hd]⟩
  | e :: rest => by
    obtain ⟨front, last, hrest, hconcat⟩ := splitOn_concat hd rest
    by_cases he : e = c
    · exact ⟨[] :: front, last, by simp [splitOn, he, hrest], by simp [splitOn, he, hconcat]⟩
    · cases front with
      | nil =>
        exact ⟨[], e :: last, by simp [splitOn, he, hrest], by simp [splitOn, he, hconcat]⟩
      | cons piece pieces =>
        exact ⟨(e :: piece) :: pieces, last, by simp [splitOn, he, hrest],
          by simp [splitOn, he, hconcat]⟩

/-- A carriage return at the end of a text says nothing. -/
theorem statesIn_lines_concat_return (cs : List Char) :
    statesIn batch (Text.splitOn '\n' (cs ++ ['\r'])) = statesIn batch (Text.splitOn '\n' cs) := by
  obtain ⟨front, last, hcs, hconcat⟩ := Text.splitOn_concat (c := '\n') (d := '\r') (by decide) cs
  have hreturn : Text.trim (last ++ ['\r']) = Text.trim last :=
    Text.trim_append_blanks (by simp; decide)
  rw [hcs, hconcat, statesIn_concat, statesIn_concat, accountedState?_congr hreturn]

/-! ### Tables in the order of their tasks -/

namespace TaskStates

/-- The tasks ascend, so none of them is there twice. -/
def Ascending (states : TaskStates) : Prop := states.Pairwise fun p q => p.1 < q.1

variable {states states' : TaskStates}

theorem mem_of_mem_insert {p : Nat × String} (h : p ∈ states.insert task state) :
    p = (task, state) ∨ p ∈ states := by
  induction states with
  | nil => exact Or.inl (List.mem_singleton.1 h)
  | cons q rest ih =>
    rw [insert] at h
    split at h
    · exact List.mem_cons.1 h
    · split at h
      · exact (List.mem_cons.1 h).imp_right (List.mem_cons_of_mem _)
      · rcases List.mem_cons.1 h with rfl | hbelow
        · exact Or.inr List.mem_cons_self
        · exact (ih hbelow).imp_right (List.mem_cons_of_mem _)

theorem Ascending.insert (h : states.Ascending) : (states.insert task state).Ascending := by
  induction states with
  | nil => exact List.pairwise_singleton _ _
  | cons q rest ih =>
    obtain ⟨hfirst, hrest⟩ := List.pairwise_cons.1 h
    rw [TaskStates.insert]
    split
    next hlt =>
      refine List.pairwise_cons.2 ⟨fun p hp => ?_, h⟩
      rcases List.mem_cons.1 hp with rfl | hp
      · exact hlt
      · exact Nat.lt_trans hlt (hfirst p hp)
    · split
      next hsame =>
        exact List.pairwise_cons.2 ⟨fun p hp => hsame ▸ hfirst p hp, hrest⟩
      next hlt hne =>
        refine List.pairwise_cons.2 ⟨fun p hp => ?_, ih hrest⟩
        rcases mem_of_mem_insert hp with rfl | hp
        · exact Nat.lt_of_le_of_ne (Nat.not_lt.1 hlt) (Ne.symm hne)
        · exact hfirst p hp

/-- What stands in an ascending table is found there. -/
theorem Ascending.mem_iff (h : states.Ascending) :
    (task, state) ∈ states ↔ states.state? task = some state := by
  induction states with
  | nil => exact ⟨nofun, nofun⟩
  | cons q rest ih =>
    obtain ⟨t, s⟩ := q
    obtain ⟨hfirst, hrest⟩ := List.pairwise_cons.1 h
    rw [state?_cons, List.mem_cons, Prod.mk.injEq, ih hrest]
    split
    next hsame =>
      subst hsame
      have habsent : ¬ state? task rest = some state := fun hstate =>
        Nat.lt_irrefl task (hfirst _ ((ih hrest).2 hstate))
      simp [habsent, eq_comm]
    next hne => simp [hne]

/-- Ascending tables that agree on every task are equal. -/
theorem Ascending.ext (h : states.Ascending) (h' : states'.Ascending)
    (hstate : ∀ task, states.state? task = states'.state? task) : states = states' := by
  have hirrefl : Std.Irrefl fun p q : Nat × String => p.1 < q.1 := ⟨fun p => Nat.lt_irrefl p.1⟩
  have hantisymm : Std.Antisymm fun p q : Nat × String => p.1 < q.1 :=
    ⟨fun p q hpq hqp => absurd hqp (Nat.lt_asymm hpq)⟩
  refine List.Pairwise.eq_of_mem_iff h h' fun p => ?_
  rw [h.mem_iff, h'.mem_iff, hstate]

end TaskStates

theorem ascending_statesIn (batch : BatchHandle) (lines : List (List Char)) :
    (statesIn batch lines).Ascending := by
  induction lines using List.reverseRecOn with
  | nil => exact List.Pairwise.nil
  | append_singleton lines line ih =>
    rw [statesIn_concat]
    split
    · exact ih.insert
    · exact ih

/-! ### Lines behind lines -/

/-- What lines say goes before what the lines above them say. -/
theorem state?_statesIn_append :
    (statesIn batch (lines ++ lines')).state? task =
      ((statesIn batch lines').state? task).or ((statesIn batch lines).state? task) := by
  induction lines' using List.reverseRecOn with
  | nil => rw [List.append_nil]; rfl
  | append_singleton lines' line ih =>
    rw [← List.append_assoc, statesIn_concat, statesIn_concat]
    cases accountedState? batch line with
    | none => exact ih
    | some p =>
      dsimp only
      rw [TaskStates.state?_insert, TaskStates.state?_insert, ih]
      split <;> rfl

/-! ### Lines that change places -/

/-- Two lines tell of one task. -/
def SameTask (batch : BatchHandle) (line line' : List Char) : Prop :=
  ∃ task state state', TellsOf batch line task state ∧ TellsOf batch line' task state'

/-- An edit of an accounting that does not change what it says: a line that tells of no task of the
batch is put in, or two lines that stand together, and do not tell of one task, change places. -/
inductive Edit (batch : BatchHandle) : List (List Char) → List (List Char) → Prop
  | insert (before after : List (List Char)) {line : List Char}
      (h : ∀ task state, ¬ TellsOf batch line task state) :
      Edit batch (before ++ after) (before ++ line :: after)
  | swap (before after : List (List Char)) {line line' : List Char}
      (h : ¬ SameTask batch line line') :
      Edit batch (before ++ line :: line' :: after) (before ++ line' :: line :: after)

/-- One list of lines comes from another by such edits, made or taken back. -/
def Rearranged (batch : BatchHandle) : List (List Char) → List (List Char) → Prop :=
  Relation.EqvGen (Edit batch)

theorem state?_statesIn_singleton (h : ∀ state, ¬ TellsOf batch line task state) :
    (statesIn batch [line]).state? task = none :=
  state?_statesIn_eq_none_iff.2 fun _ hl => List.mem_singleton.1 hl ▸ h

/-- One edit leaves every task as it was. -/
theorem Edit.state?_statesIn (h : Edit batch lines lines') (task : Nat) :
    (statesIn batch lines).state? task = (statesIn batch lines').state? task := by
  cases h with
  | @insert before after line h =>
    rw [← List.singleton_append, state?_statesIn_append, state?_statesIn_append,
      state?_statesIn_append, state?_statesIn_singleton (h task), Option.or_none]
  | @swap before after line line' h =>
    have hsplit : ∀ l l' : List Char, (statesIn batch (before ++ l :: l' :: after)).state? task =
        (((statesIn batch after).state? task).or (((statesIn batch [l']).state? task).or
          ((statesIn batch [l]).state? task))).or ((statesIn batch before).state? task) := by
      intro l l'
      rw [← List.singleton_append (l := l' :: after), ← List.singleton_append (l := after),
        state?_statesIn_append, state?_statesIn_append, state?_statesIn_append]
      simp only [Option.or_assoc]
    rw [hsplit, hsplit]
    -- at most one of the two lines tells of this task, and then it does not matter which is first
    by_cases hline : ∃ state, TellsOf batch line task state
    · obtain ⟨state, hstate⟩ := hline
      have hother : ∀ state', ¬ TellsOf batch line' task state' := fun state' hstate' =>
        h ⟨task, state, state', hstate, hstate'⟩
      rw [state?_statesIn_singleton hother, Option.or_none, Option.none_or]
    · rw [state?_statesIn_singleton (not_exists.1 hline), Option.or_none, Option.none_or]

/-- Rearranged lines come to the same table. -/
theorem Rearranged.statesIn_eq (h : Rearranged batch lines lines') :
    statesIn batch lines = statesIn batch lines' := by
  induction h with
  | rel _ _ hedit =>
    exact (ascending_statesIn _ _).ext (ascending_statesIn _ _) hedit.state?_statesIn
  | refl _ => rfl
  | symm _ _ _ ih => exact ih.symm
  | trans _ _ _ _ _ ih ih' => exact ih.trans ih'

/-! ### Lists that agree task by task -/

/-- Whether a line tells of a task. -/
def tells (batch : BatchHandle) (task : Nat) (line : List Char) : Bool :=
  (accountedState? batch line).any (·.1 == task)

/-- The lines that tell of a task, in their order. -/
def linesOn (batch : BatchHandle) (task : Nat) (lines : List (List Char)) : List (List Char) :=
  lines.filter (tells batch task)

theorem tells_iff : tells batch task line = true ↔ ∃ state, TellsOf batch line task state := by
  simp [tells, Option.any_eq_true, accountedState?_eq_some_iff]

theorem tells_unique {task' : Nat} (h : tells batch task line = true)
    (h' : tells batch task' line = true) : task = task' := by
  obtain ⟨state, hstate⟩ := tells_iff.1 h
  obtain ⟨state', hstate'⟩ := tells_iff.1 h'
  exact (hstate.unique hstate').1

theorem sameTask_iff {line' : List Char} :
    SameTask batch line line' ↔
      ∃ task, tells batch task line = true ∧ tells batch task line' = true := by
  simp only [SameTask, tells_iff, exists_and_left, exists_and_right]

theorem Edit.linesOn_eq (h : Edit batch lines lines') (task : Nat) :
    linesOn batch task lines = linesOn batch task lines' := by
  cases h with
  | @insert before after line h =>
    have hline : ¬ tells batch task line = true := fun htells =>
      have ⟨state, hstate⟩ := tells_iff.1 htells
      h task state hstate
    rw [linesOn, linesOn, List.filter_append, List.filter_append, List.filter_cons_of_neg hline]
  | @swap before after line line' h =>
    rw [linesOn, linesOn, List.filter_append, List.filter_append]
    congr 1
    by_cases hline : tells batch task line = true
    · have hother : ¬ tells batch task line' = true := fun htells =>
        h (sameTask_iff.2 ⟨task, hline, htells⟩)
      simp only [List.filter_cons, if_neg hother]
    · simp only [List.filter_cons, if_neg hline]

namespace Rearranged

theorem refl (lines : List (List Char)) : Rearranged batch lines lines := Relation.EqvGen.refl _

theorem trans {lines'' : List (List Char)} (h : Rearranged batch lines lines')
    (h' : Rearranged batch lines' lines'') : Rearranged batch lines lines'' :=
  Relation.EqvGen.trans _ _ _ h h'

theorem symm (h : Rearranged batch lines lines') : Rearranged batch lines' lines :=
  Relation.EqvGen.symm _ _ h

theorem of_edit (h : Edit batch lines lines') : Rearranged batch lines lines' :=
  Relation.EqvGen.rel _ _ h

theorem cons (line : List Char) (h : Rearranged batch lines lines') :
    Rearranged batch (line :: lines) (line :: lines') := by
  induction h with
  | rel _ _ hedit =>
    cases hedit with
    | insert before after h => exact of_edit (Edit.insert (line :: before) after h)
    | swap before after h => exact of_edit (Edit.swap (line :: before) after h)
  | refl _ => exact refl _
  | symm _ _ _ ih => exact ih.symm
  | trans _ _ _ _ _ ih ih' => exact ih.trans ih'

/-- A line can move past lines none of which tells of the same task. -/
theorem move {front after : List (List Char)} (h : ∀ l ∈ front, ¬ SameTask batch line l) :
    Rearranged batch (line :: (front ++ after)) (front ++ line :: after) := by
  induction front with
  | nil => exact refl _
  | cons l rest ih =>
    obtain ⟨hl, hrest⟩ := List.forall_mem_cons.1 h
    exact (of_edit (Edit.swap [] (rest ++ after) hl)).trans ((ih hrest).cons l)

theorem linesOn_eq (h : Rearranged batch lines lines') (task : Nat) :
    linesOn batch task lines = linesOn batch task lines' := by
  induction h with
  | rel _ _ hedit => exact hedit.linesOn_eq task
  | refl _ => rfl
  | symm _ _ _ ih => exact ih.symm
  | trans _ _ _ _ _ ih ih' => exact ih.trans ih'

end Rearranged

/-- Lines are rearranged exactly when, task by task, the lines that tell of it are the same in the
same order. -/
theorem rearranged_iff :
    Rearranged batch lines lines' ↔
      ∀ task, linesOn batch task lines = linesOn batch task lines' := by
  refine ⟨fun h => h.linesOn_eq, fun h => ?_⟩
  induction lines generalizing lines' with
  | nil =>
    -- no line of the other list tells of anything
    induction lines' with
    | nil => exact Rearranged.refl _
    | cons line rest ih =>
      have hline : ∀ task, ¬ tells batch task line = true := fun task htells => by
        have hnil := (h task).symm
        rw [linesOn, List.filter_cons_of_pos htells] at hnil
        cases hnil
      have hrest : ∀ task, linesOn batch task [] = linesOn batch task rest := fun task => by
        rw [h task, linesOn, List.filter_cons_of_neg (hline task), linesOn]
      have hsilent : ∀ task state, ¬ TellsOf batch line task state := fun task state hstate =>
        hline task (tells_iff.2 ⟨state, hstate⟩)
      exact (ih hrest).trans (Rearranged.of_edit (Edit.insert [] rest hsilent))
  | cons line rest ih =>
    by_cases hsilent : ∀ task, ¬ tells batch task line = true
    · have hrest : Rearranged batch rest lines' := ih fun task => by
        rw [← h task, linesOn, linesOn, List.filter_cons_of_neg (hsilent task)]
      refine (Rearranged.of_edit (Edit.insert [] rest fun task state hstate => ?_)).symm.trans hrest
      exact hsilent task (tells_iff.2 ⟨state, hstate⟩)
    · obtain ⟨task, htask⟩ := Classical.not_forall_not.1 hsilent
      -- the other list has this line as the first that tells of its task
      have hfirst := (h task).symm
      rw [linesOn, linesOn, List.filter_cons_of_pos htask] at hfirst
      obtain ⟨front, after, rfl, hfront, -, -⟩ := List.filter_eq_cons_iff.1 hfirst
      have hother : ∀ l ∈ front, ¬ SameTask batch line l := by
        intro l hl hsame
        obtain ⟨task', hline, hl'⟩ := sameTask_iff.1 hsame
        exact hfront l hl (tells_unique htask hline ▸ hl')
      refine (Rearranged.cons line (ih fun task' => ?_)).trans (Rearranged.move hother)
      have h' := h task'
      rw [linesOn, linesOn, List.filter_append] at h'
      rw [linesOn, linesOn, List.filter_append]
      by_cases htells : tells batch task' line = true
      · have hnone : front.filter (tells batch task') = [] :=
          List.filter_eq_nil_iff.2 fun l hl hl' => hother l hl (sameTask_iff.2 ⟨task', htells, hl'⟩)
        rw [List.filter_cons_of_pos htells, List.filter_cons_of_pos htells, hnone] at h'
        rw [hnone]
        exact (List.cons.inj h').2
      · rw [List.filter_cons_of_neg htells, List.filter_cons_of_neg htells] at h'
        exact h'

/-! ### Accountings -/

/-- Of two texts with a line break between them the second goes before the first. -/
theorem state?_statesIn_joined (cs cs' : List Char) :
    (statesIn batch (Text.lines (cs ++ '\n' :: cs'))).state? task =
      ((statesIn batch (Text.lines cs')).state? task).or
        ((statesIn batch (Text.splitOn '\n' cs)).state? task) := by
  rw [statesIn_lines, statesIn_lines, Text.splitOn_append_cons, state?_statesIn_append]

/-- What an accounting comes to. A task is in the state that the latest of the lines that tell of it
says. Texts whose lines are rearranged come to the same table. Two texts with a line break between
them come to the states of the second and, where it is silent, those of the first. -/
theorem accountedStates_spec (batch : BatchHandle) (text : String) :
    (∀ task state, (accountedStates batch text).state? task = some state ↔
      Latest batch (Text.lines text.toList) task state) ∧
    (∀ other : String, Rearranged batch (Text.lines text.toList) (Text.lines other.toList) →
      accountedStates batch other = accountedStates batch text) ∧
    (∀ other : String, ∀ lineBreak ∈ ["\n", "\r\n"], ∀ task,
      (accountedStates batch (text ++ lineBreak ++ other)).state? task =
        ((accountedStates batch other).state? task).or
          ((accountedStates batch text).state? task)) := by
  have haccounted : ∀ t : String,
      accountedStates batch t = statesIn batch (Text.lines t.toList) := fun _ => rfl
  simp only [haccounted]
  refine ⟨fun task state => state?_statesIn_iff, fun other h => h.symm.statesIn_eq, ?_⟩
  intro other lineBreak hbreak task
  rcases List.mem_cons.1 hbreak with rfl | hbreak
  · have htext : (text ++ "\n" ++ other).toList = text.toList ++ '\n' :: other.toList := by simp
    rw [htext, state?_statesIn_joined, statesIn_lines text.toList]
  · obtain rfl := List.mem_singleton.1 hbreak
    have htext : (text ++ "\r\n" ++ other).toList =
        (text.toList ++ ['\r']) ++ '\n' :: other.toList := by simp
    rw [htext, state?_statesIn_joined, statesIn_lines_concat_return, statesIn_lines text.toList]

/-- An accounting with lines for a step and for the array comes to the same table as one without
them in which the tasks stand the other way round. -/
theorem accountedStates_of_step_lines :
    let text := "12_1|FAILED\n12_1.batch|COMPLETED\n12_[1-4]|PENDING\n12_2|RUNNING\n"
    let other := "12_2|RUNNING\n12_1|FAILED\n"
    Rearranged ⟨"12", by decide⟩ (Text.lines text.toList) (Text.lines other.toList) ∧
      accountedStates ⟨"12", by decide⟩ other = accountedStates ⟨"12", by decide⟩ text := by
  intro text other
  have hlines : Text.lines text.toList = ["12_1|FAILED".toList, "12_1.batch|COMPLETED".toList,
      "12_[1-4]|PENDING".toList, "12_2|RUNNING".toList] ∧
      Text.lines other.toList = ["12_2|RUNNING".toList, "12_1|FAILED".toList] := by
    decide
  have hstep := accountedState?_eq_none_iff.1
    (show accountedState? ⟨"12", by decide⟩ "12_1.batch|COMPLETED".toList = none by decide)
  have harray := accountedState?_eq_none_iff.1
    (show accountedState? ⟨"12", by decide⟩ "12_[1-4]|PENDING".toList = none by decide)
  have hfirst := accountedState?_eq_some_iff.1
    (show accountedState? ⟨"12", by decide⟩ "12_1|FAILED".toList = some (1, "FAILED") by decide)
  have hsecond := accountedState?_eq_some_iff.1
    (show accountedState? ⟨"12", by decide⟩ "12_2|RUNNING".toList = some (2, "RUNNING") by decide)
  have hdiffer : ¬ SameTask ⟨"12", by decide⟩ "12_1|FAILED".toList "12_2|RUNNING".toList := by
    rintro ⟨task, state, state', h, h'⟩
    obtain rfl := (hfirst.unique h).1
    exact absurd (hsecond.unique h').1 (by decide)
  have hrearranged : Rearranged ⟨"12", by decide⟩ (Text.lines text.toList)
      (Text.lines other.toList) := by
    rw [hlines.1, hlines.2]
    have hone := Rearranged.of_edit (Edit.insert ["12_1|FAILED".toList]
      ["12_[1-4]|PENDING".toList, "12_2|RUNNING".toList] hstep)
    have htwo := Rearranged.of_edit (Edit.insert ["12_1|FAILED".toList]
      ["12_2|RUNNING".toList] harray)
    exact hone.symm.trans (htwo.symm.trans (Rearranged.of_edit (Edit.swap [] [] hdiffer)))
  exact ⟨hrearranged, (accountedStates_spec ⟨"12", by decide⟩ text).2.1 other hrearranged⟩

end ParamSweep
