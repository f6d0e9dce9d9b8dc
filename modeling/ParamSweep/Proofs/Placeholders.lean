import ParamSweep.Naming.Template
import ParamSweep.Pattern.Reader
import ParamSweep.Proofs.PatternRuns

/-!
Placeholders and their pattern.

The pieces of a template are those between the matches of a pattern: at each place the pattern is
tried, a match is a placeholder and the next place is behind it, and where there is none a character
is literal (`Splits`). The reader of placeholders takes no other pieces (`splits_iff`): no part of
the pattern can begin with what the part before it repeats, so that nothing is ever given back.
-/

namespace ParamSweep.Naming

open Pattern

variable {text : List Char} {p q : Place} {c : Char} {rest : List Char}

/-! ### The pattern -/

/-- What a placeholder looks like. -/
def placeholderPattern : String :=
  "\\\x7b\\\x7b\\s*([A-Za-z_][A-Za-z0-9_.]*)\\s*(?:\\|\\s*([A-Za-z_]+)\\s*)?\\\x7d\\\x7d"

/-- The characters that may start a path. -/
def startSet : CharSet :=
  .union (.union (.union .none (.range 'A' 'Z')) (.range 'a' 'z')) (.single '_')

/-- The characters that may continue a path. -/
def continueSet : CharSet :=
  .union (.union (.union (.union (.union .none (.range 'A' 'Z')) (.range 'a' 'z'))
    (.range '0' '9')) (.single '_')) (.single '.')

/-- Any number of blanks. -/
def blanks : Regex := .repeated true 0 none (.char .blank)

/-- The path, which is the first group. -/
def pathGroup : Regex :=
  .group 1 (.seq (.seq .empty (.char startSet)) (.repeated true 0 none (.char continueSet)))

/-- The name of the filter, which is the second group. -/
def filterGroup : Regex := .group 2 (.seq .empty (.repeated true 1 none (.char startSet)))

/-- The filter with the bar before it. -/
def filterRegex : Regex :=
  .seq (.seq (.seq (.seq .empty (.char (.single '|'))) blanks) filterGroup) blanks

/-- A placeholder. -/
def placeholderRegex : Regex :=
  .seq (.seq (.seq (.seq (.seq (.seq (.seq (.seq .empty (.char (.single '\x7b')))
    (.char (.single '\x7b'))) blanks) pathGroup) blanks) (.repeated true 0 (some 1) filterRegex))
    (.char (.single '\x7d'))) (.char (.single '\x7d'))

theorem read?_placeholderPattern : read? placeholderPattern = some (placeholderRegex, 2) := by
  decide +kernel

/-! ### Sets of characters -/

theorem contains_range {low high : Char} :
    (CharSet.range low high).contains c = true ↔
      low.toNat ≤ c.toNat ∧ c.toNat ≤ high.toNat := by
  simp only [CharSet.contains, Bool.and_eq_true, decide_eq_true_eq, Char.le_def,
    UInt32.le_iff_toNat_le, Char.toNat_val]

theorem contains_single {d : Char} : (CharSet.single d).contains c = decide (c = d) := by
  rw [Bool.eq_iff_iff, CharSet.single, contains_range, decide_eq_true_iff, ← Char.toNat_inj]
  omega

theorem contains_union {s t : CharSet} :
    (s.union t).contains c = true ↔ s.contains c = true ∨ t.contains c = true := by
  rw [CharSet.contains, Bool.or_eq_true]

theorem contains_none : CharSet.none.contains c = false := rfl

theorem contains_upper : (CharSet.range 'A' 'Z').contains c = c.isUpper :=
  (Bool.decide_and _ _).symm

theorem contains_startSet : startSet.contains = startsPath := by
  funext c
  show (((false || (CharSet.range 'A' 'Z').contains c) || (CharSet.range 'a' 'z').contains c) ||
    (CharSet.single '_').contains c) = startsPath c
  rw [Bool.false_or, contains_upper, contains_single]
  rfl

theorem contains_continueSet : continueSet.contains = continuesPath := by
  funext c
  show (((((false || (CharSet.range 'A' 'Z').contains c) || (CharSet.range 'a' 'z').contains c) ||
    (CharSet.range '0' '9').contains c) || (CharSet.single '_').contains c) ||
    (CharSet.single '.').contains c) = continuesPath c
  rw [Bool.false_or, contains_upper, contains_single, contains_single]
  rfl

theorem continuesPath_iff : continuesPath c = true ↔
    65 ≤ c.toNat ∧ c.toNat ≤ 90 ∨ 97 ≤ c.toNat ∧ c.toNat ≤ 122 ∨ 48 ≤ c.toNat ∧ c.toNat ≤ 57 ∨
      c.toNat = 95 ∨ c.toNat = 46 := by
  rw [← contains_continueSet]
  simp only [continueSet, contains_union, contains_none, contains_range, contains_single,
    Char.reduceToNat, decide_eq_true_eq, ← Char.toNat_inj, Bool.false_eq_true, false_or, or_assoc]

theorem continuesPath_of_startsPath (h : startsPath c = true) : continuesPath c = true := by
  rw [startsPath, Bool.or_eq_true] at h
  show (((c.isAlpha || c.isDigit) || decide (c = '_')) || decide (c = '.')) = true
  rw [Bool.or_eq_true, Bool.or_eq_true, Bool.or_eq_true]
  exact h.elim (fun h => .inl (.inl (.inl h))) fun h => .inl (.inr h)

theorem not_blank_of_continuesPath (h : continuesPath c = true) : Text.isBlank c = false := by
  rw [continuesPath_iff] at h
  rw [← Bool.not_eq_true]
  simp only [Text.isBlank, Bool.or_eq_true, Bool.and_eq_true, decide_eq_true_eq]
  omega

theorem not_blank_of_startsPath (h : startsPath c = true) : Text.isBlank c = false :=
  not_blank_of_continuesPath (continuesPath_of_startsPath h)

theorem not_startsPath_of_blank (h : Text.isBlank c = true) : startsPath c = false := by
  rw [← Bool.not_eq_true]
  exact fun hstarts => Bool.false_ne_true ((not_blank_of_startsPath hstarts).symm.trans h)

theorem head_any_of_disjoint {inSet other : Char → Bool} {cs : List Char}
    (hdisjoint : ∀ c, inSet c = true → other c = false) (h : cs.head?.any inSet = true) :
    cs.head?.any other = false := by
  cases cs with
  | nil => rfl
  | cons c cs => exact hdisjoint c h

/-! ### Runs of the pattern -/

variable {β : Type} {k : Next β}

theorem run_single {d : Char} (hp : p.rest = c :: rest) :
    (Regex.char (.single d)).run p k = if c = d then k (p.step c rest) else none := by
  rw [run_char_cons hp, contains_single]
  by_cases h : c = d <;> simp [h]

/-- The two braces at the end of a placeholder, and nothing behind them. -/
def closing : Next Place := fun q =>
  (Regex.char (.single '\x7d')).run q fun q' => (Regex.char (.single '\x7d')).run q' some

theorem closingBraces?_eq_none {cs : List Char}
    (h : ∀ rest, cs ≠ '\x7d' :: '\x7d' :: rest) : closingBraces? cs = none := by
  unfold closingBraces?
  split
  · exact absurd rfl (h _)
  · rfl

theorem closing_eq (q : Place) :
    closing q = (closingBraces? q.rest).map
      fun rest => ⟨q.position + 2, some '\x7d', rest, q.groups⟩ := by
  rw [closing]
  match hq : q.rest with
  | [] =>
    rw [run_char_nil hq]
    rfl
  | [c] =>
    rw [run_single hq, run_char_nil rfl, ite_self, closingBraces?_eq_none (by simp)]
    rfl
  | c :: d :: rest =>
    rw [run_single hq, run_single rfl]
    by_cases hbraces : c = '\x7d' ∧ d = '\x7d'
    · obtain ⟨rfl, rfl⟩ := hbraces
      rfl
    · rw [closingBraces?_eq_none fun rest' heq => hbraces (by simp_all)]
      by_cases hc : c = '\x7d'
      · rw [if_pos hc, if_neg fun hd => hbraces ⟨hc, hd⟩]
        rfl
      · rw [if_neg hc]
        rfl

theorem closing_eq_none {q : Place} (h : q.rest.head? ≠ some '\x7d') : closing q = none := by
  rw [closing_eq, closingBraces?_eq_none fun rest heq => h (by rw [heq]; rfl)]
  rfl

theorem run_blanks (hk : ∀ q : Place, q.rest.head?.any Text.isBlank = true → k q = none) :
    blanks.run p k = k (p.past Text.isBlank) :=
  run_star hk

theorem run_filterGroup
    (hk : ∀ q : Place, q.rest.head?.any startsPath = true → k q = none) :
    filterGroup.run p k =
      if p.rest.head?.any startsPath then k ((p.past startsPath).close 2 p.position) else none := by
  have hplus : (Regex.repeated true 1 none (.char startSet)).run p
      (fun q => k (q.close 2 p.position)) = _ :=
    run_plus fun q hq => hk _ (by rwa [contains_startSet] at hq)
  rwa [contains_startSet] at hplus

theorem run_pathGroup (hp : p.rest = c :: rest)
    (hk : ∀ q : Place, q.rest.head?.any continuesPath = true → k q = none) :
    pathGroup.run p k =
      if startsPath c then k (((p.step c rest).past continuesPath).close 1 p.position)
      else none := by
  have hstar : (Regex.repeated true 0 none (.char continueSet)).run (p.step c rest)
      (fun q => k (q.close 1 p.position)) = _ :=
    run_star fun q hq => hk _ (by rwa [contains_continueSet] at hq)
  rw [contains_continueSet] at hstar
  show (Regex.char startSet).run p (fun q => (Regex.repeated true 0 none (.char continueSet)).run q
    fun q => k (q.close 1 p.position)) = _
  rw [run_char_cons hp, contains_startSet, hstar]

theorem closing_of_head {inSet : Char → Bool} (hbrace : inSet '\x7d' = false) {q : Place}
    (hq : q.rest.head?.any inSet = true) : closing q = none := by
  refine closing_eq_none fun h => ?_
  rw [h, Option.any_some, hbrace] at hq
  cases hq

theorem blanks_closing (q : Place) : blanks.run q closing = closing (q.past Text.isBlank) :=
  run_blanks fun _ hq => closing_of_head (by decide) hq

/-- The name of a filter and the braces behind it. -/
def named : Next Place := fun q => filterGroup.run q fun q' => blanks.run q' closing

theorem named_eq (q : Place) :
    named q =
      if q.rest.head?.any startsPath then
        closing (((q.past startsPath).close 2 q.position).past Text.isBlank)
      else none := by
  have hback : ∀ q : Place, q.rest.head?.any startsPath = true → blanks.run q closing = none := by
    intro q hq
    rw [blanks_closing, past_of_head (head_any_of_disjoint (fun _ => not_blank_of_startsPath) hq)]
    exact closing_of_head (by decide) hq
  rw [named, run_filterGroup hback, blanks_closing]

/-- The filter with its bar, and the braces behind it. -/
theorem run_filterRegex (hp : p.rest = '|' :: rest) :
    filterRegex.run p closing = named ((p.step '|' rest).past Text.isBlank) := by
  show (Regex.char (.single '|')).run p (fun q => blanks.run q named) = _
  rw [run_single hp, if_pos rfl, run_blanks fun q hq => ?_]
  have hnot : q.rest.head?.any startsPath = false :=
    head_any_of_disjoint (fun _ => not_startsPath_of_blank) hq
  rw [named_eq, hnot]
  rfl

theorem run_filterRegex_of_ne (hp : p.rest.head? ≠ some '|') :
    filterRegex.run p closing = none := by
  show (Regex.char (.single '|')).run p (fun q => blanks.run q named) = _
  match hrest : p.rest with
  | [] => exact run_char_nil hrest
  | c :: rest => rw [run_single hrest, if_neg fun hc => hp (by rw [hrest, hc]; rfl)]

/-- The filter, if there is one, and the braces behind it. -/
def ending : Next Place := fun q => (Regex.repeated true 0 (some 1) filterRegex).run q closing

theorem ending_eq (q : Place) :
    ending q =
      match q.rest with
      | '|' :: rest => named ((q.step '|' rest).past Text.isBlank)
      | _ => closing q := by
  rw [ending, run_optional]
  split
  · rename_i rest hrest
    rw [run_filterRegex hrest, closing_eq_none (by simp [hrest])]
    cases named ((q.step '|' rest).past Text.isBlank) <;> rfl
  · rename_i hnot
    rw [run_filterRegex_of_ne]
    · rfl
    · intro h
      obtain ⟨rest, hrest⟩ := List.head?_eq_some_iff.1 h
      exact hnot _ hrest

theorem ending_of_head {inSet : Char → Bool} (hbrace : inSet '\x7d' = false)
    (hbar : inSet '|' = false) {q : Place} (hq : q.rest.head?.any inSet = true) :
    ending q = none := by
  rw [ending_eq]
  split
  · rename_i hrest
    rw [hrest, List.head?_cons, Option.any_some, hbar] at hq
    cases hq
  · exact closing_of_head hbrace hq

/-- What follows a path. -/
def behindPath : Next Place := fun q => blanks.run q ending

theorem behindPath_eq (q : Place) : behindPath q = ending (q.past Text.isBlank) :=
  run_blanks fun _ hq => ending_of_head (by decide) (by decide) hq

theorem behindPath_of_head (hq : q.rest.head?.any continuesPath = true) : behindPath q = none := by
  rw [behindPath_eq, past_of_head (head_any_of_disjoint (fun _ => not_blank_of_continuesPath) hq)]
  exact ending_of_head (by decide) (by decide) hq

/-- The path of a placeholder, what follows it, and the braces. -/
def path : Next Place := fun q => pathGroup.run q behindPath

theorem path_cons (hp : p.rest = c :: rest) :
    path p =
      if startsPath c then behindPath (((p.step c rest).past continuesPath).close 1 p.position)
      else none :=
  run_pathGroup hp fun _ => behindPath_of_head

theorem path_nil (hp : p.rest = []) : path p = none := run_char_nil hp

theorem run_placeholder (hp : p.rest = '\x7b' :: '\x7b' :: rest) :
    placeholderRegex.run p some =
      path (((p.step '\x7b' ('\x7b' :: rest)).step '\x7b' rest).past Text.isBlank) := by
  show (Regex.char (.single '\x7b')).run p (fun q => (Regex.char (.single '\x7b')).run q
    fun q => blanks.run q path) = _
  rw [run_single hp, if_pos rfl, run_single rfl, if_pos rfl, run_blanks fun q hq => ?_]
  match hrest : q.rest with
  | [] => exact path_nil hrest
  | c :: cs =>
    rw [hrest] at hq
    rw [path_cons hrest, not_startsPath_of_blank hq]
    rfl

theorem run_placeholder_of_ne (hp : ∀ rest, p.rest ≠ '\x7b' :: '\x7b' :: rest) :
    placeholderRegex.run p some = none := by
  show (Regex.char (.single '\x7b')).run p (fun q => (Regex.char (.single '\x7b')).run q
    fun q => blanks.run q path) = _
  match hrest : p.rest with
  | [] => exact run_char_nil hrest
  | [c] => rw [run_single hrest, run_char_nil rfl, ite_self]
  | c :: d :: rest =>
    rw [run_single hrest, run_single rfl]
    by_cases hc : c = '\x7b'
    · have hd : d ≠ '\x7b' := fun hd => hp rest (by rw [hrest, hc, hd])
      rw [if_pos hc, if_neg hd]
    · rw [if_neg hc]

/-! ### What the groups show -/

/-- The place is in the text, and its second group and what is left are what was found. -/
def Found (text : List Char) (path : Option String) (q : Place)
    (found : Option String × List Char) : Prop :=
  q.On text ∧ q.rest = found.2 ∧ captured text q.groups 2 = found.1 ∧
    captured text q.groups 1 = path

theorem closingBraces?_eq_some {cs : List Char} (h : closingBraces? cs = some rest) :
    cs = '\x7d' :: '\x7d' :: rest := by
  unfold closingBraces? at h
  split at h
  · rw [Option.some.inj h]
  · cases h

theorem rel_closing (h : q.On text) :
    Option.Rel (Found text (captured text q.groups 1)) (closing q)
      ((closingBraces? q.rest).map fun rest => (captured text q.groups 2, rest)) := by
  rw [closing_eq]
  cases hbraces : closingBraces? q.rest with
  | none => exact .none
  | some rest =>
    have hrest := closingBraces?_eq_some hbraces
    exact .some ⟨(h.step hrest).step rfl, rfl, rfl, rfl⟩

theorem rel_named (h : q.On text) :
    Option.Rel (Found text (captured text q.groups 1)) (named q)
      (if (q.rest.takeWhile startsPath).isEmpty then none
        else (closingBraces? (Text.trimStart (q.rest.dropWhile startsPath))).map fun rest' =>
          (some (String.ofList (q.rest.takeWhile startsPath)), rest')) := by
  have hempty : (q.rest.takeWhile startsPath).isEmpty = !q.rest.head?.any startsPath := by
    cases q.rest with
    | nil => rfl
    | cons c rest =>
      rw [List.takeWhile_cons, List.head?_cons, Option.any_some]
      split <;> simp [*]
  rw [named_eq, hempty]
  cases q.rest.head?.any startsPath with
  | true =>
    have hclosing := rel_closing (((h.past startsPath).close 2 q.position).past Text.isBlank)
    rw [groups_past, captured_past h, captured_close_of_ne (by decide), groups_past, rest_past,
      rest_close, rest_past] at hclosing
    exact hclosing
  | false => exact .none

theorem filterPart?_bar {cs : List Char} (h : Text.trimStart cs = '|' :: rest) :
    filterPart? cs =
      if ((Text.trimStart rest).takeWhile startsPath).isEmpty then none
      else (closingBraces?
          (Text.trimStart ((Text.trimStart rest).dropWhile startsPath))).map fun rest' =>
        (some (String.ofList ((Text.trimStart rest).takeWhile startsPath)), rest') := by
  rw [filterPart?, h]
  rfl

theorem filterPart?_of_ne {cs : List Char} (h : ∀ rest, Text.trimStart cs ≠ '|' :: rest) :
    filterPart? cs = (closingBraces? (Text.trimStart cs)).map fun rest' => (none, rest') := by
  rw [filterPart?]
  split
  · exact absurd ‹_› (h _)
  · rfl

/-- What follows a path, with the filter that is found there. -/
theorem rel_behindPath (h : q.On text) (hfilter : captured text q.groups 2 = none) :
    Option.Rel (Found text (captured text q.groups 1)) (behindPath q) (filterPart? q.rest) := by
  have htrim : (q.past Text.isBlank).rest = Text.trimStart q.rest := rest_past ..
  rw [behindPath_eq, ending_eq]
  split
  · rename_i rest hrest
    have hnamed := rel_named (((h.past Text.isBlank).step hrest).past Text.isBlank)
    rw [groups_past, rest_past] at hnamed
    rw [filterPart?_bar (htrim.symm.trans hrest), ← groups_past Text.isBlank q]
    exact hnamed
  · rename_i hnot
    have hclosing := rel_closing (h.past Text.isBlank)
    rw [groups_past, hfilter, htrim] at hclosing
    rw [filterPart?_of_ne fun rest hrest => hnot rest (htrim.trans hrest)]
    exact hclosing

/-- The place is behind a placeholder: its groups are the path and the filter. -/
def Matched (text : List Char) (q : Place) (found : Piece × List Char) : Prop :=
  q.On text ∧ q.rest = found.2 ∧ ∃ path, captured text q.groups 1 = some path ∧
    found.1 = .placeholder path (captured text q.groups 2)

theorem placeholder?_cons {cs : List Char} (h : Text.trimStart rest = c :: cs) :
    placeholder? ('\x7b' :: '\x7b' :: rest) =
      if startsPath c then
        (filterPart? (cs.dropWhile continuesPath)).map fun found =>
          (.placeholder (String.ofList (c :: cs.takeWhile continuesPath)) found.1, found.2)
      else none := by
  rw [placeholder?, h]

theorem placeholder?_nil (h : Text.trimStart rest = []) :
    placeholder? ('\x7b' :: '\x7b' :: rest) = none := by
  rw [placeholder?, h]

theorem placeholder?_of_ne {cs : List Char} (h : ∀ rest, cs ≠ '\x7b' :: '\x7b' :: rest) :
    placeholder? cs = none := by
  unfold placeholder?
  split
  · exact absurd rfl (h _)
  · rfl

/-- The path is what its group has matched. -/
theorem captured_path (h : p.On text) (hp : p.rest = c :: rest) :
    captured text (((p.step c rest).past continuesPath).close 1 p.position).groups 1 =
      some (String.ofList (c :: rest.takeWhile continuesPath)) := by
  have htake := List.prefix_iff_eq_take.1 (List.takeWhile_prefix continuesPath (l := rest))
  have hposition : ((p.step c rest).past continuesPath).position =
      p.position + ((rest.takeWhile continuesPath).length + 1) := by
    rw [position_past]
    show p.position + 1 + (rest.takeWhile continuesPath).length = _
    omega
  rw [Place.close, hposition, captured_first h, hp, List.take_succ_cons, ← htake]

theorem rel_map {α β γ : Type} {R : α → β → Prop} {S : α → γ → Prop} {f : β → γ} {x : Option α}
    {y : Option β} (h : Option.Rel R x y) (hf : ∀ a b, R a b → S a (f b)) :
    Option.Rel S x (y.map f) := by
  cases h with
  | none => exact .none
  | some hr => exact .some (hf _ _ hr)

theorem eq_none_of_rel {α β : Type} {R : α → β → Prop} {x : Option α}
    (h : Option.Rel R x none) : x = none := by
  cases h
  rfl

theorem exists_of_rel {α β : Type} {R : α → β → Prop} {x : Option α} {b : β}
    (h : Option.Rel R x (some b)) : ∃ a, x = some a ∧ R a b := by
  cases h with
  | some hr => exact ⟨_, rfl, hr⟩

/-- A path with what follows it. -/
theorem rel_path (h : p.On text) (hgroups : p.groups = []) (hp : p.rest = c :: rest) :
    Option.Rel (Matched text) (path p)
      (if startsPath c then
        (filterPart? (rest.dropWhile continuesPath)).map fun found =>
          (.placeholder (String.ofList (c :: rest.takeWhile continuesPath)) found.1, found.2)
      else none) := by
  rw [path_cons hp]
  split
  · have hfilter : captured text
        (((p.step c rest).past continuesPath).close 1 p.position).groups 2 = none := by
      rw [captured_close_of_ne (by decide), groups_past, Place.step, hgroups]
      rfl
    have hbehind := rel_behindPath
      (((h.step hp).past continuesPath).close 1 p.position) hfilter
    rw [captured_path h hp, rest_close, rest_past] at hbehind
    refine rel_map hbehind fun q found hfound => ?_
    obtain ⟨hon, hrest, hname, hpath⟩ := hfound
    exact ⟨hon, hrest, _, hpath, by rw [hname]⟩
  · exact .none

/-- The pattern matches where a placeholder is read, and its groups are what is read. -/
theorem rel_placeholder (h : p.On text) (hgroups : p.groups = []) :
    Option.Rel (Matched text) (placeholderRegex.run p some) (placeholder? p.rest) := by
  by_cases hbraces : ∃ rest, p.rest = '\x7b' :: '\x7b' :: rest
  · obtain ⟨rest, hrest⟩ := hbraces
    let q := (((p.step '\x7b' ('\x7b' :: rest)).step '\x7b' rest).past Text.isBlank)
    have hq : q.On text := ((h.step hrest).step rfl).past _
    have hqrest : q.rest = Text.trimStart rest := rest_past ..
    have hqgroups : q.groups = [] := (groups_past ..).trans hgroups
    rw [run_placeholder hrest, hrest]
    match htrim : Text.trimStart rest with
    | [] =>
      rw [path_nil (hqrest.trans htrim), placeholder?_nil htrim]
      exact .none
    | c :: cs =>
      rw [placeholder?_cons htrim]
      exact rel_path hq hqgroups (hqrest.trans htrim)
  · rw [run_placeholder_of_ne fun rest hrest => hbraces ⟨rest, hrest⟩,
      placeholder?_of_ne fun rest hrest => hbraces ⟨rest, hrest⟩]
    exact .none

/-! ### Pieces -/

/-- The place of a text at a position. -/
def placeAt (text : List Char) (n : Nat) : Place :=
  ⟨n, if n = 0 then none else text[n - 1]?, text.drop n, []⟩

/-- The pieces of a text from a position on. Where the pattern matches there is a placeholder, whose
path is the first group and whose filter is the second, and the next piece begins behind the match;
where it does not match the next character is literal. -/
inductive Splits (r : Regex) (text : List Char) : Nat → List Piece → Prop
  | stop : Splits r text text.length []
  | literal {n : Nat} {c : Char} {ps : List Piece} (hchar : text[n]? = some c)
    (hrun : r.run (placeAt text n) some = none) (htail : Splits r text (n + 1) ps) :
    Splits r text n (.literal c :: ps)
  | placeholder {n : Nat} {q : Place} {path : String} {ps : List Piece}
    (hrun : r.run (placeAt text n) some = some q) (hpath : captured text q.groups 1 = some path)
    (htail : Splits r text q.position ps) :
    Splits r text n (.placeholder path (captured text q.groups 2) :: ps)

theorem trimStart_suffix (cs : List Char) : Text.trimStart cs <:+ cs := List.dropWhile_suffix _

theorem closingBraces?_suffix {cs : List Char} (h : closingBraces? cs = some rest) : rest <:+ cs :=
  closingBraces?_eq_some h ▸ ⟨['\x7d', '\x7d'], rfl⟩

theorem filterPart?_suffix {cs : List Char} {found : Option String × List Char}
    (h : filterPart? cs = some found) : found.2 <:+ cs := by
  by_cases hbar : ∃ rest, Text.trimStart cs = '|' :: rest
  · obtain ⟨rest, hrest⟩ := hbar
    have hbehind : rest <:+ cs := by
      have hsuffix := trimStart_suffix cs
      rw [hrest] at hsuffix
      exact (List.suffix_cons '|' rest).trans hsuffix
    rw [filterPart?_bar hrest] at h
    split at h
    · cases h
    · obtain ⟨rest', hrest', rfl⟩ := Option.map_eq_some_iff.1 h
      have hname : (Text.trimStart rest).dropWhile startsPath <:+ rest :=
        (List.dropWhile_suffix _).trans (trimStart_suffix rest)
      exact ((closingBraces?_suffix hrest').trans (trimStart_suffix _)).trans (hname.trans hbehind)
  · rw [filterPart?_of_ne fun rest hrest => hbar ⟨rest, hrest⟩] at h
    obtain ⟨rest', hrest', rfl⟩ := Option.map_eq_some_iff.1 h
    exact (closingBraces?_suffix hrest').trans (trimStart_suffix cs)

/-- A placeholder uses a character. -/
theorem placeholder?_shorter {cs : List Char} {found : Piece × List Char}
    (h : placeholder? cs = some found) : found.2.length < cs.length := by
  by_cases hbraces : ∃ rest, cs = '\x7b' :: '\x7b' :: rest
  · obtain ⟨rest, rfl⟩ := hbraces
    match htrim : Text.trimStart rest with
    | [] =>
      rw [placeholder?_nil htrim] at h
      cases h
    | c :: cs =>
      rw [placeholder?_cons htrim] at h
      split at h
      · obtain ⟨part, hpart, rfl⟩ := Option.map_eq_some_iff.1 h
        have hpath := ((filterPart?_suffix hpart).trans (List.dropWhile_suffix _)).length_le
        have hblanks := (trimStart_suffix rest).length_le
        rw [htrim] at hblanks
        simp only [List.length_cons] at hblanks ⊢
        omega
      · cases h
  · rw [placeholder?_of_ne fun rest hrest => hbraces ⟨rest, hrest⟩] at h
    cases h

variable {n : Nat} {ps : List Piece}

theorem rel_placeAt (hn : n ≤ text.length) :
    Option.Rel (Matched text) (placeholderRegex.run (placeAt text n) some)
      (placeholder? (text.drop n)) :=
  rel_placeholder ⟨rfl, hn⟩ rfl

theorem run_placeAt_eq_none (hn : n ≤ text.length) (h : placeholder? (text.drop n) = none) :
    placeholderRegex.run (placeAt text n) some = none := by
  have hrel := rel_placeAt hn
  rw [h] at hrel
  exact eq_none_of_rel hrel

/-- Nothing is left at the end of a text. -/
theorem splits_end : Splits placeholderRegex text text.length ps ↔ ps = [] := by
  have hrun : placeholderRegex.run (placeAt text text.length) some = none :=
    run_placeAt_eq_none (Nat.le_refl _) (by rw [List.drop_length]; rfl)
  constructor
  · intro h
    cases h with
    | stop => rfl
    | literal hchar => exact absurd hchar (by simp)
    | placeholder hmatch => exact absurd (hrun.symm.trans hmatch) (by simp)
  · rintro rfl
    exact .stop

/-- A character where no placeholder is read is a piece. -/
theorem splits_literal (hn : n < text.length) (h : placeholder? (text.drop n) = none) :
    Splits placeholderRegex text n ps ↔
      ∃ ps', ps = .literal text[n] :: ps' ∧ Splits placeholderRegex text (n + 1) ps' := by
  have hrun := run_placeAt_eq_none (Nat.le_of_lt hn) h
  have hchar : text[n]? = some text[n] := List.getElem?_eq_getElem hn
  constructor
  · intro h
    cases h with
    | stop => exact absurd hn (Nat.lt_irrefl _)
    | literal hchar' _ htail =>
      cases hchar.symm.trans hchar'
      exact ⟨_, rfl, htail⟩
    | placeholder hmatch => exact absurd (hrun.symm.trans hmatch) (by simp)
  · rintro ⟨ps', rfl, htail⟩
    exact .literal hchar hrun htail

/-- A placeholder is a piece, and the next piece begins behind it. -/
theorem splits_placeholder (hn : n < text.length) {piece : Piece}
    (h : placeholder? (text.drop n) = some (piece, rest)) :
    ∃ m, n < m ∧ m ≤ text.length ∧ text.drop m = rest ∧
      ∀ ps, Splits placeholderRegex text n ps ↔
        ∃ ps', ps = piece :: ps' ∧ Splits placeholderRegex text m ps' := by
  have hrel := rel_placeAt (Nat.le_of_lt hn)
  rw [h] at hrel
  obtain ⟨q, hrun, ⟨hdrop, hle⟩, hrest, path, hpath, hpiece⟩ := exists_of_rel hrel
  have hshorter := placeholder?_shorter h
  rw [← show q.rest = rest from hrest, ← hdrop, List.length_drop, List.length_drop] at hshorter
  refine ⟨q.position, by omega, hle, hdrop.trans hrest, fun ps => ⟨fun hsplits => ?_, ?_⟩⟩
  · cases hsplits with
    | stop => exact absurd hn (Nat.lt_irrefl _)
    | literal _ hfails => exact absurd (hrun.symm.trans hfails) (by simp)
    | placeholder hmatch hpath' htail =>
      cases hrun.symm.trans hmatch
      cases hpath.symm.trans hpath'
      exact ⟨_, by rw [← hpiece], htail⟩
  · rintro ⟨ps', rfl, htail⟩
    rw [show piece = _ from hpiece]
    exact .placeholder hrun hpath htail

/-- The pieces of a text are those between the matches of the pattern, and no others. -/
theorem splits_iff {fuel : Nat} (hn : n ≤ text.length) (hfuel : text.length ≤ n + fuel) :
    Splits placeholderRegex text n ps ↔ ps = pieces fuel (text.drop n) := by
  induction fuel generalizing n ps with
  | zero =>
    obtain rfl : n = text.length := by omega
    rw [splits_end, List.drop_length, pieces]
  | succ fuel ih =>
    by_cases hend : n = text.length
    · rw [hend, splits_end, List.drop_length, pieces]
    · have hlt : n < text.length := by omega
      have hdrop : text.drop n = text[n] :: text.drop (n + 1) := List.drop_eq_getElem_cons hlt
      cases hfound : placeholder? (text.drop n) with
      | none =>
        rw [splits_literal hlt hfound, hdrop, pieces, ← hdrop, hfound]
        simp only [ih (n := n + 1) hlt (by omega), exists_eq_right]
      | some found =>
        obtain ⟨piece, rest⟩ := found
        obtain ⟨m, hlater, hm, rfl, hsplits⟩ := splits_placeholder hlt hfound
        rw [hsplits, hdrop, pieces, ← hdrop, hfound]
        simp only [ih hm (by omega), exists_eq_right]

end ParamSweep.Naming
