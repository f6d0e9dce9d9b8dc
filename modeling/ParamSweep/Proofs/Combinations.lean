import Mathlib.Algebra.BigOperators.Group.List.Basic
import Mathlib.Data.List.Induction
import ParamSweep.Proofs.Outcome
import ParamSweep.Sweep.Combination

/-!
The combinations of a sweep as the numbers below its size.

A sweep is expanded group by group: each combination so far is followed by as many as the next group
has values. So the combination at position `k` is `k` read with one digit for each group, the first
group having the most significant one (`reads_concat`, `exists_reads`). A variable has the value at
the digit of the last group that it is in, and stands where it was first seen.
-/

namespace ParamSweep

/-! ### Lists -/

section

variable {α β γ : Type}

/-- Where the entry in row `i` and column `j` of a grid stands, row by row. -/
theorem getElem?_grid {f : α → β → γ} {ys : List β} {j : Nat} {y : β} (hj : ys[j]? = some y) :
    ∀ {xs : List α} {i : Nat} {x : α}, xs[i]? = some x →
      (xs.flatMap fun x => ys.map (f x))[i * ys.length + j]? = some (f x y)
  | [], _, _, hi => by simp at hi
  | x' :: rest, 0, x, hi => by
    obtain rfl : x' = x := by simpa using hi
    have hlt : j < ys.length := (List.getElem?_eq_some_iff.1 hj).1
    rw [List.flatMap_cons, Nat.zero_mul, Nat.zero_add,
      List.getElem?_append_left (by simpa using hlt), List.getElem?_map, hj]
    rfl
  | x' :: rest, i + 1, x, hi => by
    rw [List.getElem?_cons_succ] at hi
    have hpast : (i + 1) * ys.length + j = ys.length + (i * ys.length + j) := by
      rw [Nat.add_mul, Nat.one_mul]
      omega
    rw [List.flatMap_cons, List.getElem?_append_right (by simp [hpast]), hpast, List.length_map,
      Nat.add_sub_cancel_left]
    exact getElem?_grid hj hi

theorem eraseDups_concat [DecidableEq α] (xs : List α) (x : α) :
    (xs ++ [x]).eraseDups = if x ∈ xs then xs.eraseDups else xs.eraseDups ++ [x] := by
  rw [List.eraseDups_append]
  split
  next hmem => simp [List.removeAll, hmem]
  next hnew => simp [List.removeAll, hnew, List.eraseDups_cons]

theorem nodup_eraseDups [DecidableEq α] (xs : List α) : xs.eraseDups.Nodup := by
  induction xs using List.reverseRecOn with
  | nil => exact List.nodup_nil
  | append_singleton xs x ih =>
    rw [eraseDups_concat]
    split
    next => exact ih
    next hnew =>
      refine List.nodup_append.2 ⟨ih, List.nodup_cons.2 ⟨List.not_mem_nil, List.nodup_nil⟩, ?_⟩
      rintro y hy _ hx rfl
      rw [List.mem_singleton] at hx
      exact hnew (hx ▸ List.mem_eraseDups.1 hy)

/-- What is seen again later makes no difference. -/
theorem eraseDups_append_eraseDups [DecidableEq α] (xs ys : List α) :
    (xs ++ ys.eraseDups).eraseDups = (xs ++ ys).eraseDups := by
  induction ys using List.reverseRecOn with
  | nil => rfl
  | append_singleton ys y ih =>
    rw [eraseDups_concat, ← List.append_assoc, eraseDups_concat]
    split
    next hmem => rw [ih, if_pos (List.mem_append_right _ hmem)]
    next hnew =>
      rw [← List.append_assoc, eraseDups_concat, ih]
      simp only [List.mem_append, List.mem_eraseDups]

end

/-! ### Setting variables -/

namespace Combination

variable {c d : Combination} {name key : String} {value : Value}

theorem keys_set : (c.set key value).keys = if key ∈ c.keys then c.keys else c.keys ++ [key] := by
  have hentries : ∀ entries : List (String × Value),
      (setEntry key value entries).map (·.1) =
        if key ∈ entries.map (·.1) then entries.map (·.1) else entries.map (·.1) ++ [key] := by
    intro entries
    induction entries with
    | nil => simp [setEntry]
    | cons p rest ih =>
      obtain ⟨k, v⟩ := p
      rw [setEntry]
      by_cases hk : k = key
      · simp [hk]
      · simp only [if_neg hk, List.map_cons, ih, List.mem_cons, Ne.symm hk, false_or]
        split <;> rfl
  exact hentries c.entries

theorem get?_set : (c.set key value).get? name = if key = name then some value else c.get? name := by
  have hentries : ∀ entries : List (String × Value),
      ((setEntry key value entries).find? (·.1 == name)).map (·.2) =
        if key = name then some value else (entries.find? (·.1 == name)).map (·.2) := by
    intro entries
    induction entries with
    | nil => by_cases hname : key = name <;> simp [setEntry, hname]
    | cons p rest ih =>
      obtain ⟨k, v⟩ := p
      rw [setEntry]
      by_cases hk : k = key
      · subst hk
        by_cases hname : k = name <;> simp [hname]
      · by_cases hname : k = name
        · subst hname
          simp [hk, Ne.symm hk]
        · simpa [List.find?_cons, hk, hname] using ih
  exact hentries c.entries

/-- Set one after the other, variables stand in the order in which they were first seen. -/
theorem keys_foldl_set {seen : List String} (pairs : List (String × Value))
    (h : c.keys = seen.eraseDups) :
    (pairs.foldl (fun acc p => acc.set p.1 p.2) c).keys = (seen ++ pairs.map (·.1)).eraseDups := by
  induction pairs generalizing c seen with
  | nil => simpa using h
  | cons p rest ih =>
    have hset : (c.set p.1 p.2).keys = (seen ++ [p.1]).eraseDups := by
      rw [keys_set, eraseDups_concat, h]
      simp only [List.mem_eraseDups]
    rw [List.foldl_cons, ih hset, List.map_cons, List.append_assoc, List.singleton_append]

theorem keys_extend {seen : List String} (h : c.keys = seen.eraseDups) (d : Combination) :
    (c.extend d).keys = (seen ++ d.keys).eraseDups := keys_foldl_set d.entries h

theorem get?_eq_none_iff : c.get? name = none ↔ name ∉ c.keys := by
  simp only [get?, keys, Option.map_eq_none_iff, List.find?_eq_none, beq_iff_eq, List.mem_map,
    not_exists, not_and]

/-- A variable that the second combination sets has its value there. -/
theorem get?_extend (h : d.keys.Nodup) :
    (c.extend d).get? name = (d.get? name).or (c.get? name) := by
  obtain ⟨entries⟩ := d
  rw [extend]
  induction entries generalizing c with
  | nil => rfl
  | cons p rest ih =>
    obtain ⟨hnew, hrest⟩ := List.nodup_cons.1 h
    rw [List.foldl_cons, ih hrest, get?_set]
    by_cases hname : p.1 = name
    · subst hname
      have habsent : get? p.1 ⟨rest⟩ = none := get?_eq_none_iff.2 hnew
      have hfirst : get? p.1 ⟨p :: rest⟩ = some p.2 := by simp [get?]
      rw [if_pos rfl, habsent, hfirst, Option.none_or, Option.some_or]
    · have hskip : get? name ⟨p :: rest⟩ = get? name ⟨rest⟩ := by simp [get?, hname]
      rw [if_neg hname, hskip]

end Combination

namespace SweepGroup

variable {vars : List String} {value : Value} {name : String}

theorem choice_eq (vars : List String) (value : Value) :
    choice vars value =
      (vars.map fun k => (k, value)).foldl (fun acc p => acc.set p.1 p.2) {} := by
  rw [choice, List.foldl_map]

theorem keys_choice : (choice vars value).keys = vars.eraseDups := by
  have hseen : Combination.keys {} = ([] : List String).eraseDups := rfl
  rw [choice_eq, Combination.keys_foldl_set _ hseen]
  simp [Function.comp_def]

theorem get?_choice : (choice vars value).get? name = if name ∈ vars then some value else none := by
  have hfold : ∀ (c : Combination), (vars.foldl (fun acc k => acc.set k value) c).get? name =
      if name ∈ vars then some value else c.get? name := by
    induction vars with
    | nil => simp
    | cons k rest ih =>
      intro c
      rw [List.foldl_cons, ih, Combination.get?_set]
      by_cases hrest : name ∈ rest
      · simp [hrest]
      · simp [hrest, eq_comm]
  exact hfold {}

end SweepGroup

namespace Sweep

variable {specs : List GroupSpec} {s : Sweep} {groups : List SweepGroup} {g : SweepGroup}
  {c : Combination} {k : Nat}

/-! ### Counting combinations -/

theorem length_refine (acc : List Combination) (g : SweepGroup) :
    (refine acc g).length = acc.length * g.values.length := by
  simp [refine, SweepGroup.combinations, List.length_flatMap]

theorem size_eq_prod (s : Sweep) : s.size = (s.groups.map fun g => g.values.length).prod :=
  List.prod_eq_foldl_nat.symm

/-- A sweep has a combination for every choice of one value from each group. -/
theorem length_expand (s : Sweep) :
    s.expand.length = (s.groups.map fun g => g.values.length).prod := by
  have hfold : ∀ (groups : List SweepGroup) (acc : List Combination),
      (groups.foldl refine acc).length =
        acc.length * (groups.map fun g => g.values.length).prod := by
    intro groups
    induction groups with
    | nil => simp
    | cons g rest ih =>
      intro acc
      rw [List.foldl_cons, ih, length_refine, List.map_cons, List.prod_cons, Nat.mul_assoc]
  rw [expand, hfold, List.length_singleton, Nat.one_mul]

theorem size_concat (groups : List SweepGroup) (g : SweepGroup) :
    size ⟨groups ++ [g]⟩ = size ⟨groups⟩ * g.values.length := by
  simp only [size, List.map_append, List.map_cons, List.map_nil, List.foldl_concat]

theorem size_append (groups more : List SweepGroup) :
    size ⟨groups ++ more⟩ = size ⟨groups⟩ * size ⟨more⟩ := by
  simp only [size_eq_prod, List.map_append, List.prod_append]

theorem size_pos (h : ∀ g ∈ groups, g.values ≠ []) : 0 < size ⟨groups⟩ := by
  rw [size_eq_prod]
  induction groups with
  | nil => exact Nat.one_pos
  | cons g rest ih =>
    obtain ⟨hfirst, hrest⟩ := List.forall_mem_cons.1 h
    rw [List.map_cons, List.prod_cons]
    exact Nat.mul_pos (List.length_pos_of_ne_nil hfirst) (ih hrest)

/-! ### Reading an index -/

/-- The digit of the group `g` at position `i` when `k` is read with one digit for each group. A
group has as many digits as it has values, and the groups after it are less significant. -/
def digit (s : Sweep) (i : Nat) (g : SweepGroup) (k : Nat) : Nat :=
  k / size ⟨s.groups.drop (i + 1)⟩ % g.values.length

/-- The combination that the digits of `k` stand for. -/
structure Reads (s : Sweep) (k : Nat) (c : Combination) : Prop where
  /-- The variables are those of all groups, in the order in which they are first seen. -/
  keys : c.keys = s.names.eraseDups
  /-- None of them is there twice. -/
  nodup : c.keys.Nodup
  /-- A variable has the value at the digit of the last group that it is in. -/
  value : ∀ {i g name}, s.groups[i]? = some g → name ∈ g.names →
    (∀ j later, i < j → s.groups[j]? = some later → name ∉ later.names) →
      ∃ v, g.values[s.digit i g k]? = some v ∧ c.get? name = some v

theorem reads_nil : Reads ⟨[]⟩ 0 {} where
  keys := rfl
  nodup := List.nodup_nil
  value h := by simp at h

/-- The digits of the groups before the last one are those of the quotient. -/
theorem digit_concat {i : Nat} (hi : i < groups.length) (g g' : SweepGroup) (k : Nat) :
    digit ⟨groups ++ [g']⟩ i g k = digit ⟨groups⟩ i g (k / g'.values.length) := by
  rw [digit, digit, List.drop_append_of_le_length hi, size_concat, Nat.mul_comm,
    Nat.div_div_eq_div_mul]

/-- One more group takes off the last digit and sets its variables to the value there. -/
theorem reads_concat {value : Value} (h : Reads ⟨groups⟩ (k / g.values.length) c)
    (hvalue : g.values[k % g.values.length]? = some value) :
    Reads ⟨groups ++ [g]⟩ k (c.extend (SweepGroup.choice g.names value)) := by
  have hnodup : (SweepGroup.choice g.names value).keys.Nodup := by
    rw [SweepGroup.keys_choice]
    exact nodup_eraseDups g.names
  have hkeys : (c.extend (SweepGroup.choice g.names value)).keys =
      (names ⟨groups ++ [g]⟩).eraseDups := by
    rw [Combination.keys_extend h.keys, SweepGroup.keys_choice, eraseDups_append_eraseDups]
    simp only [names, List.flatMap_append, List.flatMap_singleton]
  refine ⟨hkeys, hkeys ▸ nodup_eraseDups _, fun {i g' name} hi hname hlater => ?_⟩
  rw [Combination.get?_extend hnodup, SweepGroup.get?_choice]
  by_cases hbefore : i < groups.length
  · -- an earlier group: the new one does not have the variable, or it would be the last that has
    have hother : name ∉ g.names := hlater groups.length g hbefore (by simp)
    rw [List.getElem?_append_left hbefore] at hi
    obtain ⟨v, hv, hc⟩ := h.value hi hname fun j later hj hlookup => by
      refine hlater j later hj ?_
      rw [List.getElem?_append_left (List.getElem?_eq_some_iff.1 hlookup).1, hlookup]
    refine ⟨v, ?_, ?_⟩
    · rw [digit_concat hbefore, hv]
    · rw [if_neg hother, Option.none_or, hc]
  · obtain ⟨hlt, hlast⟩ := List.getElem?_eq_some_iff.1 hi
    obtain rfl : i = groups.length := by
      rw [List.length_append, List.length_singleton] at hlt
      omega
    obtain rfl : g = g' := by simpa using hlast
    refine ⟨value, ?_, by rw [if_pos hname, Option.some_or]⟩
    rw [digit, List.drop_of_length_le (by simp), show size ⟨[]⟩ = 1 from rfl, Nat.div_one, hvalue]

/-- Every number below the size of a sweep is read as the combination at that position. -/
theorem exists_reads (groups : List SweepGroup) :
    ∀ k < size ⟨groups⟩, ∃ c, (groups.foldl refine [{}])[k]? = some c ∧ Reads ⟨groups⟩ k c := by
  induction groups using List.reverseRecOn with
  | nil =>
    intro k hk
    obtain rfl : k = 0 := Nat.lt_one_iff.1 hk
    exact ⟨{}, rfl, reads_nil⟩
  | append_singleton groups g ih =>
    intro k hk
    rw [size_concat] at hk
    have hcount : 0 < g.values.length := Nat.pos_of_mul_pos_left (Nat.zero_lt_of_lt hk)
    have hquotient : k / g.values.length < size ⟨groups⟩ :=
      Nat.div_lt_of_lt_mul (Nat.mul_comm _ _ ▸ hk)
    obtain ⟨c, hc, hreads⟩ := ih _ hquotient
    obtain ⟨value, hvalue⟩ : ∃ value, g.values[k % g.values.length]? = some value :=
      ⟨_, List.getElem?_eq_getElem (Nat.mod_lt k hcount)⟩
    refine ⟨_, ?_, reads_concat hreads hvalue⟩
    have hlength : g.combinations.length = g.values.length := List.length_map _
    have hchoice : g.combinations[k % g.values.length]? =
        some (SweepGroup.choice g.names value) := by
      rw [SweepGroup.combinations, List.getElem?_map, hvalue, Option.map_some]
    have hgrid := getElem?_grid (f := Combination.extend) hchoice hc
    rw [hlength, Nat.div_add_mod'] at hgrid
    rw [List.foldl_concat]
    exact hgrid

/-! ### Accepted sweeps -/

theorem values_ne_nil_of_ofSpec {index : Nat} {spec : GroupSpec}
    (h : SweepGroup.ofSpec index spec = .ok g) : g.values ≠ [] := by
  obtain ⟨group, -, h⟩ := except_bind_ok h
  split at h
  · cases h
  next hvalues =>
    cases h
    rwa [List.isEmpty_iff] at hvalues

theorem values_ne_nil_of_groupsFrom :
    ∀ {specs : List GroupSpec} {index : Nat} {groups : List SweepGroup},
      groupsFrom index specs = .ok groups → ∀ g ∈ groups, g.values ≠ []
  | [], _, _, h => by
    cases h
    exact nofun
  | spec :: rest, index, groups, h => by
    obtain ⟨group, hgroup, h⟩ := except_bind_ok h
    obtain ⟨others, hothers, h⟩ := except_bind_ok h
    cases h
    exact List.forall_mem_cons.2
      ⟨values_ne_nil_of_ofSpec hgroup, values_ne_nil_of_groupsFrom hothers⟩

/-- Every group of an accepted sweep has values. -/
theorem values_ne_nil_of_ofSpecs (h : ofSpecs specs = .ok s) : ∀ g ∈ s.groups, g.values ≠ [] := by
  obtain ⟨groups, hgroups, h⟩ := except_bind_ok h
  cases h
  exact values_ne_nil_of_groupsFrom hgroups

/-- An accepted sweep has as many combinations as its size says, and none of the products on the way
to the size is greater. The combination at position `k` is the one that the digits of `k` stand for:
its variables stand where they are first seen, and each has the value at the digit of the last group
that it is in. -/
theorem reads_of_ofSpecs (h : ofSpecs specs = .ok s) :
    s.expand.length = s.size ∧ (∀ n, size ⟨s.groups.take n⟩ ≤ s.expand.length) ∧
      ∀ k < s.size, ∃ c, s.expand[k]? = some c ∧ s.Reads k c := by
  have hlength : s.expand.length = s.size := (length_expand s).trans (size_eq_prod s).symm
  refine ⟨hlength, fun n => ?_, exists_reads s.groups⟩
  have hrest : 0 < size ⟨s.groups.drop n⟩ :=
    size_pos fun g hg => values_ne_nil_of_ofSpecs h g (List.mem_of_mem_drop hg)
  calc size ⟨s.groups.take n⟩
      ≤ size ⟨s.groups.take n⟩ * size ⟨s.groups.drop n⟩ := Nat.le_mul_of_pos_right _ hrest
    _ = s.size := by rw [← size_append, List.take_append_drop]
    _ = s.expand.length := hlength.symm

/-- Two variables with the same values, a variable of its own, and one of the first two again. -/
def sharedSpecs : List GroupSpec :=
  [{ kind := "linked", vars := some ["a", "b", "a"], values := [.int 1, .int 2] },
   { kind := "product", var := some "c", values := [.int 10, .int 20, .int 30] },
   { kind := "product", var := some "a", values := [.int 5, .int 6] }]

/-- The groups that they describe. -/
def sharedGroups : List SweepGroup :=
  [.linked ["a", "b", "a"] [.int 1, .int 2], .product "c" [.int 10, .int 20, .int 30],
   .product "a" [.int 5, .int 6]]

/-- The combination at position 7 of 12 has the digits 1, 0 and 1. -/
theorem reads_of_shared_variable :
    ∃ s c, ofSpecs sharedSpecs = .ok s ∧ s.expand.length = 12 ∧ s.expand[7]? = some c ∧
      c.keys = ["a", "b", "c"] ∧ c.get? "a" = some (.int 6) ∧ c.get? "b" = some (.int 2) := by
  have hspecs : ofSpecs sharedSpecs = .ok ⟨sharedGroups⟩ := rfl
  obtain ⟨hlength, -, hreads⟩ := reads_of_ofSpecs hspecs
  obtain ⟨c, hc, hread⟩ := hreads 7 (by decide)
  have hlast : ∀ j later, 2 < j → sharedGroups[j]? = some later → "a" ∉ later.names := by
    intro j later hj hlookup
    have hlt : j < 3 := (List.getElem?_eq_some_iff.1 hlookup).1
    omega
  have honly : ∀ j later, 0 < j → sharedGroups[j]? = some later → "b" ∉ later.names := by
    intro j later hj hlookup
    have hlt : j < 3 := (List.getElem?_eq_some_iff.1 hlookup).1
    obtain rfl | rfl : j = 1 ∨ j = 2 := by omega
    all_goals
      cases hlookup
      decide
  obtain ⟨v, hv, hget⟩ := hread.value rfl (List.mem_singleton_self "a") hlast
  obtain ⟨w, hw, hget'⟩ := hread.value rfl (.tail _ (.head _)) honly
  cases hv
  cases hw
  exact ⟨_, c, hspecs, hlength, hc, hread.keys, hget, hget'⟩

end Sweep

end ParamSweep
