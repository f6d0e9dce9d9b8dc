import ParamSweep.Pattern.Basic

/-!
How a pattern runs over a text.

A greedy repetition of characters tries the longest stretch first and gives characters back as long
as what follows cannot go on. Where what follows never begins with a character of the set, nothing
is given back: the repetition goes past all characters of the set (`run_star`), and a pattern of such
repetitions reads a text without turning around.
-/

namespace ParamSweep.Pattern

variable {β : Type} {set : CharSet} {a : Regex} {k : Next β} {p : Place} {c : Char}
variable {text rest : List Char}

/-! ### Going past characters -/

/-- The place behind the characters at the start of a text that are in a set. -/
def skip (inSet : Char → Bool) (groups : List (Nat × Nat × Nat)) :
    Nat → Option Char → List Char → Place
  | position, previous, [] => ⟨position, previous, [], groups⟩
  | position, previous, c :: rest =>
    if inSet c then skip inSet groups (position + 1) (some c) rest
    else ⟨position, previous, c :: rest, groups⟩

/-- The place behind the characters that come next and are in a set. -/
def Place.past (inSet : Char → Bool) (p : Place) : Place :=
  skip inSet p.groups p.position p.previous p.rest

theorem rest_skip (inSet : Char → Bool) (groups : List (Nat × Nat × Nat)) (position : Nat)
    (previous : Option Char) (cs : List Char) :
    (skip inSet groups position previous cs).rest = cs.dropWhile inSet := by
  induction cs generalizing position previous with
  | nil => rfl
  | cons c rest ih =>
    rw [skip, List.dropWhile_cons]
    split
    · exact ih _ _
    · rfl

theorem position_skip (inSet : Char → Bool) (groups : List (Nat × Nat × Nat)) (position : Nat)
    (previous : Option Char) (cs : List Char) :
    (skip inSet groups position previous cs).position =
      position + (cs.takeWhile inSet).length := by
  induction cs generalizing position previous with
  | nil => rfl
  | cons c rest ih =>
    rw [skip, List.takeWhile_cons]
    split
    · rw [ih, List.length_cons]
      omega
    · rfl

theorem groups_skip (inSet : Char → Bool) (groups : List (Nat × Nat × Nat)) (position : Nat)
    (previous : Option Char) (cs : List Char) :
    (skip inSet groups position previous cs).groups = groups := by
  induction cs generalizing position previous with
  | nil => rfl
  | cons c rest ih =>
    rw [skip]
    split
    · exact ih _ _
    · rfl

@[simp] theorem rest_past (inSet : Char → Bool) (p : Place) :
    (p.past inSet).rest = p.rest.dropWhile inSet := rest_skip ..

@[simp] theorem position_past (inSet : Char → Bool) (p : Place) :
    (p.past inSet).position = p.position + (p.rest.takeWhile inSet).length := position_skip ..

@[simp] theorem groups_past (inSet : Char → Bool) (p : Place) :
    (p.past inSet).groups = p.groups := groups_skip ..

theorem past_of_head {inSet : Char → Bool} (h : p.rest.head?.any inSet = false) :
    p.past inSet = p := by
  obtain ⟨position, previous, rest, groups⟩ := p
  cases rest with
  | nil => rfl
  | cons c rest =>
    rw [List.head?_cons, Option.any_some] at h
    rw [Place.past, skip, h]
    rfl

/-! ### Places in a text -/

/-- The place is one of a text. -/
def Place.On (text : List Char) (p : Place) : Prop :=
  text.drop p.position = p.rest ∧ p.position ≤ text.length

/-- The place behind the next character. -/
def Place.step (p : Place) (c : Char) (rest : List Char) : Place :=
  ⟨p.position + 1, some c, rest, p.groups⟩

theorem Place.On.step (h : p.On text) (hp : p.rest = c :: rest) : (p.step c rest).On text := by
  obtain ⟨hrest, -⟩ := h
  rw [hp] at hrest
  have hlength := congrArg List.length hrest
  rw [List.length_drop, List.length_cons] at hlength
  constructor
  · rw [Place.step, ← List.drop_drop, hrest, List.drop_succ_cons, List.drop_zero]
  · show p.position + 1 ≤ text.length
    omega

/-- The place with a group that began at `start` and ends there. -/
def Place.close (p : Place) (index start : Nat) : Place :=
  { p with groups := (index, start, p.position) :: p.groups }

@[simp] theorem rest_close (p : Place) (index start : Nat) : (p.close index start).rest = p.rest :=
  rfl

/-- What a group has matched of a text. -/
def captured (text : List Char) (groups : List (Nat × Nat × Nat)) (index : Nat) : Option String :=
  (groups.lookup index).map fun (start, stop) =>
    String.ofList ((text.drop start).take (stop - start))

theorem Place.On.past (h : p.On text) (inSet : Char → Bool) : (p.past inSet).On text := by
  obtain ⟨hrest, hle⟩ := h
  have hsplit := List.takeWhile_append_dropWhile (p := inSet) (l := p.rest)
  have hlength : p.rest.length = text.length - p.position := by rw [← hrest, List.length_drop]
  constructor
  · rw [position_past, rest_past, ← List.drop_drop, hrest]
    exact List.append_cancel_left
      ((List.prefix_iff_eq_append.1 (List.takeWhile_prefix inSet)).trans hsplit.symm)
  · have hshorter := (List.takeWhile_prefix (p := inSet) (l := p.rest)).length_le
    rw [position_past]
    omega

theorem Place.On.close (h : p.On text) (index start : Nat) : (p.close index start).On text := h

theorem captured_first (h : p.On text) (index n : Nat) (groups : List (Nat × Nat × Nat)) :
    captured text ((index, p.position, p.position + n) :: groups) index =
      some (String.ofList (p.rest.take n)) := by
  rw [captured, List.lookup_cons_self, Option.map_some, ← h.1]
  simp only [Nat.add_sub_cancel_left]

theorem captured_past (h : p.On text) (index : Nat) (inSet : Char → Bool) :
    captured text ((p.past inSet).close index p.position).groups index =
      some (String.ofList (p.rest.takeWhile inSet)) := by
  rw [Place.close, groups_past, position_past, captured_first h]
  rw [← List.prefix_iff_eq_take.1 (List.takeWhile_prefix inSet)]

theorem captured_close_of_ne {index other : Nat} (hne : other ≠ index) (start : Nat) :
    captured text (p.close index start).groups other = captured text p.groups other := by
  rw [captured, captured, Place.close, List.lookup_cons, beq_eq_false_iff_ne.2 hne]

/-! ### Characters -/

theorem run_char_cons (hp : p.rest = c :: rest) :
    (Regex.char set).run p k = if set.contains c then k (p.step c rest) else none := by
  rw [Regex.run, hp]
  rfl

theorem run_char_nil (hp : p.rest = []) : (Regex.char set).run p k = none := by
  rw [Regex.run, hp]

/-! ### Repetitions -/

theorem past_cons {c : Char} {rest : List Char} {previous : Option Char} {position : Nat}
    {groups : List (Nat × Nat × Nat)} (inSet : Char → Bool) :
    Place.past inSet ⟨position, previous, c :: rest, groups⟩ =
      if inSet c then Place.past inSet ⟨position + 1, some c, rest, groups⟩
      else ⟨position, previous, c :: rest, groups⟩ := rfl

/-- A repetition goes as far as it can where what follows cannot begin with its characters. -/
theorem upTo_char (hk : ∀ q : Place, q.rest.head?.any set.contains = true → k q = none)
    {limit : Nat} (hlimit : p.rest.length ≤ limit) :
    upTo true (Regex.char set).run limit k p = k (p.past set.contains) := by
  induction limit generalizing p with
  | zero =>
    obtain ⟨position, previous, rest, groups⟩ := p
    obtain rfl := List.length_eq_zero_iff.1 (Nat.le_zero.1 hlimit)
    rfl
  | succ limit ih =>
    obtain ⟨position, previous, rest, groups⟩ := p
    cases rest with
    | nil => rfl
    | cons c rest =>
      rw [upTo, if_pos rfl, Regex.run, past_cons]
      by_cases hc : set.contains c = true
      · have hback : k ⟨position, previous, c :: rest, groups⟩ = none := hk _ (by simpa using hc)
        have hstep : position + 1 ≠ position := Nat.succ_ne_self position
        have hmore := ih (p := ⟨position + 1, some c, rest, groups⟩)
          (Nat.le_of_succ_le_succ hlimit)
        simp only [if_pos hc, if_neg hstep, hmore, hback]
        cases k (Place.past set.contains ⟨position + 1, some c, rest, groups⟩) <;> rfl
      · simp only [if_neg hc]
        rfl

theorem run_star (hk : ∀ q : Place, q.rest.head?.any set.contains = true → k q = none) :
    (Regex.repeated true 0 none (.char set)).run p k = k (p.past set.contains) :=
  upTo_char hk (Nat.le_succ _)

theorem run_plus (hk : ∀ q : Place, q.rest.head?.any set.contains = true → k q = none) :
    (Regex.repeated true 1 none (.char set)).run p k =
      if p.rest.head?.any set.contains then k (p.past set.contains) else none := by
  obtain ⟨position, previous, rest, groups⟩ := p
  cases rest with
  | nil => rfl
  | cons c rest =>
    rw [Regex.run, times, Regex.run, past_cons]
    by_cases hc : set.contains c = true
    · simp only [if_pos hc, times, List.head?_cons, Option.any_some]
      exact upTo_char hk (Nat.le_succ _)
    · simp only [if_neg hc, List.head?_cons, Option.any_some]

theorem run_optional :
    (Regex.repeated true 0 (some 1) a).run p k = (a.run p k).orElse fun _ => k p := by
  have hagain : (fun q : Place => if q.position = p.position then k q else upTo true a.run 0 k q) =
      k := by
    funext q
    split <;> rfl
  rw [Regex.run, times]
  show (a.run p fun q => if q.position = p.position then k q else upTo true a.run 0 k q).orElse
    (fun _ => k p) = _
  rw [hagain]

end ParamSweep.Pattern
