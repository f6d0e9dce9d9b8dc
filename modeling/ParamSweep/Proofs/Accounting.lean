import Mathlib.Data.List.Induction
import ParamSweep.Batch.Status

/-!
What the lines of an accounting say.

A line tells of a task of a batch when its first column is the batch, an underscore and the digits
of the task. Of several lines for one task the latest counts: `state?_statesIn_iff`.
-/

namespace ParamSweep

namespace Text

theorem splitOnce_cons (c d : Char) (rest : List Char) :
    splitOnce c (d :: rest) =
      if d = c then some ([], rest) else (splitOnce c rest).map fun p => (d :: p.1, p.2) := by
  unfold splitOnce
  by_cases h : d = c
  · simp [h]
  · simp only [List.dropWhile_cons, List.takeWhile_cons, ne_eq, h, not_false_eq_true,
      decide_true, if_true, if_false]
    split <;> rfl

/-- A text is split at the first separator. -/
theorem splitOnce_eq_some_iff {c : Char} {cs before behind : List Char} :
    splitOnce c cs = some (before, behind) ↔ cs = before ++ c :: behind ∧ c ∉ before := by
  induction cs generalizing before with
  | nil => simp [splitOnce]
  | cons d rest ih =>
    rw [splitOnce_cons]
    split
    next h =>
      subst h
      cases before with
      | nil => simp [eq_comm]
      | cons b bs =>
        simp only [Option.some.injEq, Prod.mk.injEq, List.cons_append, List.cons.injEq,
          List.mem_cons, not_or]
        exact ⟨nofun, fun h => absurd h.1.1 h.2.1⟩
    next h =>
      cases before with
      | nil => simp [h]
      | cons b bs =>
        simp only [Option.map_eq_some_iff, Prod.exists, Prod.mk.injEq, List.cons.injEq,
          List.cons_append, List.mem_cons, not_or]
        constructor
        · rintro ⟨before', behind', hrest, ⟨rfl, rfl⟩, rfl⟩
          obtain ⟨hrest, hc⟩ := ih.1 hrest
          exact ⟨⟨rfl, hrest⟩, Ne.symm h, hc⟩
        · rintro ⟨⟨rfl, hrest⟩, -, hc⟩
          exact ⟨bs, behind, ih.2 ⟨hrest, hc⟩, ⟨rfl, rfl⟩, rfl⟩

theorem startsWith_iff {part cs : List Char} :
    startsWith part cs = true ↔ ∃ rest, cs = part ++ rest := by
  rw [startsWith, List.isPrefixOf_iff_prefix]
  exact ⟨fun ⟨rest, h⟩ => ⟨rest, h.symm⟩, fun ⟨rest, h⟩ => ⟨rest, h.symm⟩⟩

end Text

theorem dropStart?_eq_some_iff {part cs rest : List Char} :
    dropStart? part cs = some rest ↔ cs = part ++ rest := by
  unfold dropStart?
  split
  · rename_i h
    obtain ⟨rest', rfl⟩ := Text.startsWith_iff.1 h
    simp
  · rename_i h
    refine ⟨nofun, fun hcs => absurd (Text.startsWith_iff.2 ⟨rest, hcs⟩) h⟩

theorem wordOfDigits?_eq_some_iff {digits : List Char} {n : Nat} :
    wordOfDigits? digits = some n ↔
      digits ≠ [] ∧ (∀ d ∈ digits, d.isDigit = true) ∧ Decimal.natural digits = n ∧
        n ≤ Decimal.wordLimit := by
  unfold wordOfDigits?
  split
  next h =>
    have hbad : digits = [] ∨ ∃ d ∈ digits, d.isDigit = false := by simpa using h
    refine ⟨nofun, ?_⟩
    rintro ⟨hne, hall, -⟩
    rcases hbad with rfl | ⟨d, hd, hfalse⟩
    · exact absurd rfl hne
    · exact absurd (hall d hd) (by rw [hfalse]; decide)
  next h =>
    have hgood : digits ≠ [] ∧ ∀ d ∈ digits, d.isDigit = true := by simpa using h
    simp only [Option.ite_none_right_eq_some, Option.some.injEq]
    constructor
    · rintro ⟨hlimit, rfl⟩
      exact ⟨hgood.1, hgood.2, rfl, hlimit⟩
    · rintro ⟨-, -, rfl, hlimit⟩
      exact ⟨hlimit, rfl⟩

/-! ### Lines -/

/-- A line says that a task of a batch is in a state: its first column is the batch, an underscore
and the digits of the task, and its second column is the state, both with or without blanks. -/
def TellsOf (batch : BatchHandle) (line : List Char) (task : Nat) (state : String) : Prop :=
  ∃ column behind digits, Text.trim line = column ++ '|' :: behind ∧ '|' ∉ column ∧
    Text.trim column = batch.id.toList ++ ['_'] ++ digits ∧
    digits ≠ [] ∧ (∀ d ∈ digits, d.isDigit = true) ∧ Decimal.natural digits = task ∧
    task ≤ Decimal.wordLimit ∧
    state = String.ofList (Text.trim (behind.takeWhile (· ≠ '|')))

variable {batch : BatchHandle} {line : List Char} {lines : List (List Char)} {task : Nat}
  {state : String}

theorem accountedState?_eq_some_iff :
    accountedState? batch line = some (task, state) ↔ TellsOf batch line task state := by
  unfold accountedState?
  simp only [Option.bind_eq_bind, Option.bind_eq_some_iff, Prod.exists, Option.some.injEq,
    Prod.mk.injEq, Text.splitOnce_eq_some_iff, dropStart?_eq_some_iff, wordOfDigits?_eq_some_iff]
  constructor
  · rintro ⟨column, behind, ⟨hline, hcolumn⟩, digits, hdigits, n, ⟨hne, hall, hn, hlimit⟩, rfl, rfl⟩
    exact ⟨column, behind, digits, hline, hcolumn, hdigits, hne, hall, hn, hlimit, rfl⟩
  · rintro ⟨column, behind, digits, hline, hcolumn, hdigits, hne, hall, hn, hlimit, rfl⟩
    exact ⟨column, behind, ⟨hline, hcolumn⟩, digits, hdigits, task, ⟨hne, hall, hn, hlimit⟩, rfl,
      rfl⟩

theorem accountedState?_eq_none_iff :
    accountedState? batch line = none ↔ ∀ task state, ¬ TellsOf batch line task state := by
  rw [Option.eq_none_iff_forall_ne_some, Prod.forall]
  simp only [Ne, accountedState?_eq_some_iff]

/-- A line tells of one task at most, and one state of it. -/
theorem TellsOf.unique {task' : Nat} {state' : String} (h : TellsOf batch line task state)
    (h' : TellsOf batch line task' state') : task = task' ∧ state = state' := by
  rw [← accountedState?_eq_some_iff] at h h'
  exact Prod.mk.inj (Option.some.inj (h.symm.trans h'))

/-- The latest of some lines that tells of a task says that it is in a state. -/
def Latest (batch : BatchHandle) (lines : List (List Char)) (task : Nat) (state : String) : Prop :=
  ∃ before line after, lines = before ++ line :: after ∧ TellsOf batch line task state ∧
    ∀ l ∈ after, ∀ s, ¬ TellsOf batch l task s

/-- None of some lines tells of a task. -/
def SilentOn (batch : BatchHandle) (lines : List (List Char)) (task : Nat) : Prop :=
  ∀ line ∈ lines, ∀ state, ¬ TellsOf batch line task state

/-- The last line tells of the task, or it does not and the lines before it decide. -/
theorem latest_concat_iff :
    Latest batch (lines ++ [line]) task state ↔
      TellsOf batch line task state ∨
        (∀ s, ¬ TellsOf batch line task s) ∧ Latest batch lines task state := by
  constructor
  · rintro ⟨before, l, after, hlines, hl, hafter⟩
    rcases List.eq_nil_or_concat after with rfl | ⟨after', l', rfl⟩
    · obtain ⟨-, hlast⟩ := List.append_inj' hlines rfl
      obtain rfl := List.singleton_inj.1 hlast
      exact Or.inl hl
    · rw [List.concat_eq_append, ← List.cons_append, ← List.append_assoc] at hlines
      obtain ⟨hfront, hlast⟩ := List.append_inj' hlines rfl
      obtain rfl := List.singleton_inj.1 hlast
      exact Or.inr ⟨hafter line (by simp), before, l, after', hfront, hl,
        fun l' hl' => hafter l' (by simp [hl'])⟩
  · rintro (h | ⟨h, before, l, after, rfl, hl, hafter⟩)
    · exact ⟨lines, line, [], rfl, h, nofun⟩
    · refine ⟨before, l, after ++ [line], by simp, hl, fun l' hl' => ?_⟩
      rcases List.mem_append.1 hl' with hl' | hl'
      · exact hafter l' hl'
      · obtain rfl := List.mem_singleton.1 hl'
        exact h

theorem latest_concat_of_tellsOf {state' : String} (h : TellsOf batch line task state') :
    Latest batch (lines ++ [line]) task state ↔ state' = state := by
  rw [latest_concat_iff, or_iff_left fun hsilent => hsilent.1 state' h]
  refine ⟨fun hs => (h.unique hs).2, ?_⟩
  rintro rfl
  exact h

theorem latest_concat_of_not_tellsOf (h : ∀ s, ¬ TellsOf batch line task s) :
    Latest batch (lines ++ [line]) task state ↔ Latest batch lines task state := by
  rw [latest_concat_iff, or_iff_right (h state)]
  exact and_iff_right h

/-! ### The table of states -/

namespace TaskStates

theorem state?_cons (t : Nat) (s : String) (rest : TaskStates) (task : Nat) :
    state? task ((t, s) :: rest) = if task = t then some s else state? task rest := by
  unfold state?
  rw [List.lookup_cons]
  by_cases h : task = t
  · simp [h]
  · simp [h, beq_eq_false_iff_ne.2 h]

theorem state?_insert (states : TaskStates) (task other : Nat) (state : String) :
    (states.insert task state).state? other =
      if other = task then some state else states.state? other := by
  induction states with
  | nil => exact state?_cons task state [] other
  | cons p rest ih =>
    obtain ⟨t, s⟩ := p
    rw [insert]
    split
    · rw [state?_cons]
    · split
      next heq =>
        subst heq
        rw [state?_cons, state?_cons]
        split <;> rfl
      next hne =>
        rw [state?_cons, state?_cons, ih]
        by_cases h : other = t
        · subst h
          simp [Ne.symm hne]
        · simp [h]

end TaskStates

/-- The states that some lines tell of. -/
def statesIn (batch : BatchHandle) (lines : List (List Char)) : TaskStates :=
  (lines.filterMap (accountedState? batch)).foldl (fun states p => states.insert p.1 p.2) []

theorem statesIn_concat (batch : BatchHandle) (lines : List (List Char)) (line : List Char) :
    statesIn batch (lines ++ [line]) =
      match accountedState? batch line with
      | some (task, state) => (statesIn batch lines).insert task state
      | none => statesIn batch lines := by
  unfold statesIn
  rw [List.filterMap_append, List.foldl_append]
  cases h : accountedState? batch line <;> simp [h]

/-- In the table a task is in the state that its latest line says. -/
theorem state?_statesIn_iff :
    (statesIn batch lines).state? task = some state ↔ Latest batch lines task state := by
  induction lines using List.reverseRecOn with
  | nil =>
    refine ⟨nofun, ?_⟩
    rintro ⟨before, line, after, hlines, -⟩
    exact absurd hlines.symm (by simp)
  | append_singleton lines line ih =>
    rw [statesIn_concat]
    cases h : accountedState? batch line with
    | none =>
      rw [latest_concat_of_not_tellsOf (accountedState?_eq_none_iff.1 h task), ← ih]
    | some p =>
      obtain ⟨task', state'⟩ := p
      have htells := accountedState?_eq_some_iff.1 h
      dsimp only
      rw [TaskStates.state?_insert]
      split
      next heq =>
        subst heq
        rw [latest_concat_of_tellsOf htells, Option.some.injEq]
      next hne =>
        rw [latest_concat_of_not_tellsOf fun s hs => hne (hs.unique htells).1, ih]

/-- A task is not in the table exactly when no line tells of it. -/
theorem state?_statesIn_eq_none_iff :
    (statesIn batch lines).state? task = none ↔ SilentOn batch lines task := by
  induction lines using List.reverseRecOn with
  | nil => exact ⟨fun _ => nofun, fun _ => rfl⟩
  | append_singleton lines line ih =>
    rw [statesIn_concat, SilentOn, List.forall_mem_append, List.forall_mem_singleton, ← SilentOn,
      ← ih]
    cases h : accountedState? batch line with
    | none =>
      exact ⟨fun hnone => ⟨hnone, accountedState?_eq_none_iff.1 h task⟩, And.left⟩
    | some p =>
      obtain ⟨task', state'⟩ := p
      have htells := accountedState?_eq_some_iff.1 h
      dsimp only
      rw [TaskStates.state?_insert]
      split
      next heq =>
        subst heq
        exact ⟨nofun, fun hnone => absurd htells (hnone.2 state')⟩
      next hne =>
        exact ⟨fun hnone => ⟨hnone, fun s hs => hne (hs.unique htells).1⟩, And.left⟩

end ParamSweep
