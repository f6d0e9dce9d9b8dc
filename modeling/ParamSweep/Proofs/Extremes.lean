import ParamSweep.Proofs.ClosestDouble
import ParamSweep.Proofs.IntegerArithmetic

/-!
The functions `min`, `max` and `abs` of integers.

The arguments of `min` and `max` are compared as doubles, and of several that are equal there the
first one is taken (`FirstHighest`). So the greatest integer is found where no argument before it
has the same closest double, as it is up to a magnitude of `2 ^ 53`. The least integer of 64 bits has
no magnitude of 64 bits, and is given the greatest integer.
-/

namespace ParamSweep.Expression

variable {score : Int → Int} {xs : List Int} {a x m : Int}

/-- The first of the numbers with the highest score. -/
def FirstHighest (score : Int → Int) (xs : List Int) (m : Int) : Prop :=
  ∃ before after, xs = before ++ m :: after ∧ (∀ x ∈ before, score x < score m) ∧
    ∀ x ∈ after, score x ≤ score m

namespace FirstHighest

theorem mem (h : FirstHighest score xs m) : m ∈ xs := by
  obtain ⟨before, after, rfl, -, -⟩ := h
  exact List.mem_append_right _ List.mem_cons_self

theorem le (h : FirstHighest score xs m) (hx : x ∈ xs) : score x ≤ score m := by
  obtain ⟨before, after, rfl, hbefore, hafter⟩ := h
  obtain hx | hx := List.mem_append.1 hx
  · exact Int.le_of_lt (hbefore x hx)
  · obtain rfl | hx := List.mem_cons.1 hx
    · exact Int.le_refl _
    · exact hafter x hx

/-- A number that the next one beats is left behind. -/
theorem cons (h : FirstHighest score (x :: xs) m) (hlt : score a < score x) :
    FirstHighest score (a :: x :: xs) m := by
  have hle := h.le List.mem_cons_self
  obtain ⟨before, after, heq, hbefore, hafter⟩ := h
  refine ⟨a :: before, after, by rw [heq, List.cons_append], fun y hy => ?_, hafter⟩
  obtain rfl | hy := List.mem_cons.1 hy
  · exact Int.lt_of_lt_of_le hlt hle
  · exact hbefore y hy

/-- A number that does not beat the one before it is passed over. -/
theorem skip (h : FirstHighest score (a :: xs) m) (hle : score x ≤ score a) :
    FirstHighest score (a :: x :: xs) m := by
  obtain ⟨before, after, heq, hbefore, hafter⟩ := h
  cases before with
  | nil =>
    obtain ⟨rfl, rfl⟩ := List.cons.inj heq
    refine ⟨[], x :: xs, rfl, nofun, fun y hy => ?_⟩
    obtain rfl | hy := List.mem_cons.1 hy
    · exact hle
    · exact hafter y hy
  | cons b before =>
    obtain ⟨rfl, rfl⟩ := List.cons.inj heq
    have hlt := hbefore a List.mem_cons_self
    refine ⟨a :: x :: before, after, rfl, fun y hy => ?_, hafter⟩
    obtain rfl | hy := List.mem_cons.1 hy
    · exact hlt
    · obtain rfl | hy := List.mem_cons.1 hy
      · exact Int.lt_of_le_of_lt hle hlt
      · exact hbefore y (List.mem_cons_of_mem _ hy)

/-- A number with the highest score is the first one of them where all before it have lower
scores. -/
theorem eq_iff {M : Int} (h : FirstHighest score xs m) (hM : M ∈ xs)
    (hhighest : ∀ x ∈ xs, score x ≤ score M) :
    m = M ↔ ∀ x ∈ xs.takeWhile (· ≠ M), score x < score M := by
  have hle := h.le hM
  have hge := hhighest m h.mem
  obtain ⟨before, after, rfl, hbefore, hafter⟩ := h
  constructor
  · rintro rfl x hx
    refine hbefore x ?_
    rw [List.takeWhile_append] at hx
    split at hx
    · simpa using hx
    · exact (List.takeWhile_prefix _).subset hx
  · intro hbelow
    by_contra hne
    -- the first one with the highest score stands before `M`
    have hbeforeM : ∀ x ∈ before, decide (x ≠ M) = true := fun x hx => by
      rw [decide_eq_true_iff]
      rintro rfl
      exact absurd (hbefore x hx) (by omega)
    have hmem : m ∈ (before ++ m :: after).takeWhile (· ≠ M) := by
      rw [List.takeWhile_append_of_pos hbeforeM, List.takeWhile_cons_of_pos (by simpa using hne)]
      exact List.mem_append_right _ List.mem_cons_self
    exact absurd (hbelow m hmem) (by omega)

end FirstHighest

/-- A comparison of doubles that goes by the scores of integers picks the first highest one. -/
theorem best_int (beats : Float → Float → Bool) (score : Int → Int)
    (hbeats : ∀ x y, fits x = true → fits y = true →
      (beats (closest x) (closest y) = true ↔ score y < score x)) (a : Int) (xs : List Int)
    (hfits : ∀ x ∈ a :: xs, fits x = true) :
    ∃ m, best beats (.int a) (xs.map .int) = .int m ∧ FirstHighest score (a :: xs) m := by
  induction xs generalizing a with
  | nil => exact ⟨a, rfl, [], [], rfl, nofun, nofun⟩
  | cons x xs ih =>
    have ha := hfits a List.mem_cons_self
    have hx := hfits x (List.mem_cons_of_mem _ List.mem_cons_self)
    have hrest : ∀ y ∈ xs, fits y = true := fun y hy =>
      hfits y (List.mem_cons_of_mem _ (List.mem_cons_of_mem _ hy))
    rw [List.map_cons, best]
    by_cases hlt : score a < score x
    · obtain ⟨m, hm, hfirst⟩ := ih x (List.forall_mem_cons.2 ⟨hx, hrest⟩)
      refine ⟨m, ?_, hfirst.cons hlt⟩
      rw [toDouble, toDouble, if_pos ((hbeats x a hx ha).2 hlt), hm]
    · obtain ⟨m, hm, hfirst⟩ := ih a (List.forall_mem_cons.2 ⟨ha, hrest⟩)
      refine ⟨m, ?_, hfirst.skip (by omega)⟩
      rw [toDouble, toDouble, if_neg (fun h => hlt ((hbeats x a hx ha).1 h)), hm]

theorem natAbs_lt_of_fits (h : fits x = true) : x.natAbs < 2 ^ 64 := by
  obtain ⟨hlow, hhigh⟩ := fits_iff.1 h
  rw [minInt] at hlow
  rw [maxInt] at hhigh
  omega

theorem closest_lt_of_fits (ha : fits a = true) (hx : fits x = true) :
    closest a < closest x ↔ nearest a < nearest x :=
  closest_lt_iff (natAbs_lt_of_fits ha) (natAbs_lt_of_fits hx)

/-- What `max` gives is the first argument with the greatest double. -/
theorem max_int (hfits : ∀ x ∈ a :: xs, fits x = true) :
    ∃ m, applyFunction "max" ((a :: xs).map .int) = .ok (.int m) ∧
      FirstHighest nearest (a :: xs) m := by
  obtain ⟨m, hm, hfirst⟩ := best_int (fun x y => decide (y < x)) nearest
    (fun x y hx hy => by rw [decide_eq_true_iff, closest_lt_of_fits hy hx]) a xs hfits
  refine ⟨m, ?_, hfirst⟩
  rw [← hm]
  rfl

/-- What `min` gives is the first argument with the least double. -/
theorem min_int (hfits : ∀ x ∈ a :: xs, fits x = true) :
    ∃ m, applyFunction "min" ((a :: xs).map .int) = .ok (.int m) ∧
      FirstHighest (fun x => -nearest x) (a :: xs) m := by
  obtain ⟨m, hm, hfirst⟩ := best_int (fun x y => decide (x < y)) (fun x => -nearest x)
    (fun x y hx hy => by rw [decide_eq_true_iff, closest_lt_of_fits hx hy, Int.neg_lt_neg_iff])
    a xs hfits
  refine ⟨m, ?_, hfirst⟩
  rw [← hm]
  rfl

theorem magnitude_int (hlow : minInt ≤ x) (hhigh : x ≤ maxInt) :
    magnitude (.int x) = .int (if x = minInt then maxInt else (x.natAbs : Int)) := by
  rw [minInt] at hlow
  rw [maxInt] at hhigh
  rw [magnitude, minInt, maxInt]
  congr 1
  split_ifs <;> omega

/-- Of integer arguments `max` and `min` give the first one whose double no other one beats. That is
the greatest or least one exactly where all arguments before it have a smaller or greater double,
and always up to a magnitude of `2 ^ 53`. The magnitude of an integer is exact but for the least one,
which is given the greatest integer. -/
theorem extremes_of_integers (hne : xs ≠ []) (hfits : ∀ x ∈ xs, minInt ≤ x ∧ x ≤ maxInt) :
    (∃ m ∈ xs, applyFunction "max" (xs.map .int) = .ok (.int m) ∧
      (∀ x ∈ xs, ¬ closest m < closest x) ∧
      (∀ M ∈ xs, (∀ x ∈ xs, x ≤ M) →
        (m = M ↔ ∀ x ∈ xs.takeWhile (· ≠ M), closest x < closest M)) ∧
      ((∀ x ∈ xs, x.natAbs ≤ 2 ^ 53) → ∀ x ∈ xs, x ≤ m)) ∧
    (∃ m ∈ xs, applyFunction "min" (xs.map .int) = .ok (.int m) ∧
      (∀ x ∈ xs, ¬ closest x < closest m) ∧
      (∀ M ∈ xs, (∀ x ∈ xs, M ≤ x) →
        (m = M ↔ ∀ x ∈ xs.takeWhile (· ≠ M), closest M < closest x)) ∧
      ((∀ x ∈ xs, x.natAbs ≤ 2 ^ 53) → ∀ x ∈ xs, m ≤ x)) ∧
    ∀ x, minInt ≤ x → x ≤ maxInt → applyFunction "abs" [.int x] =
      .ok (.int (if x = minInt then maxInt else (x.natAbs : Int))) := by
  have hfits' : ∀ x ∈ xs, fits x = true := fun x hx => fits_iff.2 (hfits x hx)
  have hbefore : ∀ {M x : Int}, x ∈ xs.takeWhile (· ≠ M) → x ∈ xs := fun hx =>
    (List.takeWhile_prefix _).subset hx
  obtain ⟨a, rest, rfl⟩ := List.exists_cons_of_ne_nil hne
  refine ⟨?_, ?_, fun x hlow hhigh => ?_⟩
  · obtain ⟨m, hm, hfirst⟩ := max_int hfits'
    refine ⟨m, hfirst.mem, hm, fun x hx => ?_, fun M hM hgreatest => ?_, fun hsmall x hx => ?_⟩
    · rw [closest_lt_of_fits (hfits' m hfirst.mem) (hfits' x hx), Int.not_lt]
      exact hfirst.le hx
    · rw [hfirst.eq_iff hM fun x hx => nearest_mono (hgreatest x hx)]
      exact forall₂_congr fun x hx =>
        (closest_lt_of_fits (hfits' x (hbefore hx)) (hfits' M hM)).symm
    · have hle := hfirst.le hx
      rwa [nearest_of_natAbs_le (hsmall x hx), nearest_of_natAbs_le (hsmall m hfirst.mem)] at hle
  · obtain ⟨m, hm, hfirst⟩ := min_int hfits'
    refine ⟨m, hfirst.mem, hm, fun x hx => ?_, fun M hM hleast => ?_, fun hsmall x hx => ?_⟩
    · rw [closest_lt_of_fits (hfits' x hx) (hfits' m hfirst.mem), Int.not_lt]
      exact Int.neg_le_neg_iff.1 (hfirst.le hx)
    · rw [hfirst.eq_iff hM fun x hx => Int.neg_le_neg (nearest_mono (hleast x hx))]
      refine forall₂_congr fun x hx => ?_
      rw [closest_lt_of_fits (hfits' M hM) (hfits' x (hbefore hx)), Int.neg_lt_neg_iff]
    · have hle := Int.neg_le_neg_iff.1 (hfirst.le hx)
      rwa [nearest_of_natAbs_le (hsmall x hx), nearest_of_natAbs_le (hsmall m hfirst.mem)] at hle
  · rw [← magnitude_int hlow hhigh]
    rfl

/-- Of small integers the greatest one is given. -/
theorem max_of_small_integers :
    ([1, 5, 3] : List Int) ≠ [] ∧ (∀ x ∈ ([1, 5, 3] : List Int), minInt ≤ x ∧ x ≤ maxInt) ∧
    applyFunction "max" (([1, 5, 3] : List Int).map .int) = .ok (.int 5) := by
  have hne : ([1, 5, 3] : List Int) ≠ [] := by decide
  have hfits : ∀ x ∈ ([1, 5, 3] : List Int), minInt ≤ x ∧ x ≤ maxInt := by decide
  obtain ⟨⟨m, hm, hmax, -, -, hgreatest⟩, -⟩ := extremes_of_integers hne hfits
  have hle := hgreatest (by decide) 5 (by decide)
  obtain rfl : m = 5 := by
    simp only [List.mem_cons, List.not_mem_nil, or_false] at hm
    omega
  exact ⟨hne, hfits, hmax⟩

/-- Two integers beyond `2 ^ 53` that share a double, and the least integer. -/
theorem greatest_not_taken :
    evaluate "max(9007199254740992, 9007199254740993)" [] = .ok (.int 9007199254740992) ∧
    evaluate "min(9007199254740993, 9007199254740992)" [] = .ok (.int 9007199254740993) ∧
    evaluate "abs(m)" leastContext = .ok (.int 9223372036854775807) ∧
    ¬ ∀ (xs : List Int) (m : Int), xs ≠ [] → (∀ x ∈ xs, minInt ≤ x ∧ x ≤ maxInt) →
      applyFunction "max" (xs.map .int) = .ok (.int m) → ∀ x ∈ xs, x ≤ m := by
  have hmax : read "max(9007199254740992, 9007199254740993)" =
      .ok (.call "max" [.num (.int 9007199254740992), .num (.int 9007199254740993)]) := by cbv
  have hmin : read "min(9007199254740993, 9007199254740992)" =
      .ok (.call "min" [.num (.int 9007199254740993), .num (.int 9007199254740992)]) := by cbv
  have habs : read "abs(m)" = .ok (.call "abs" [.var "m"]) := by cbv
  have hleast : leastContext.lookup "m" = some (.num (.int minInt)) := by cbv
  refine ⟨?_, ?_, ?_, fun hclaim => ?_⟩
  · rw [evaluate, hmax]
    rfl
  · rw [evaluate, hmin]
    rfl
  · rw [evaluate, habs]
    simp only [Expr.eval, evalAll, hleast]
    rfl
  · have hle := hclaim [9007199254740992, 9007199254740993] 9007199254740992
      (List.cons_ne_nil _ _) (by decide) rfl 9007199254740993 (by decide)
    exact absurd hle (by decide)

end ParamSweep.Expression
