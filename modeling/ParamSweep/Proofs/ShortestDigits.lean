import Mathlib
import ParamSweep.Decimal.Shortest

/-!
The shortest digits of a double tell which double it is.

The magnitudes of the doubles are numbered in ascending order by their bits without the sign
(`Magnitude.ofIndex`). The reals that round to one of them form an interval, and where it ends the
next one begins (`low_succ`). Of two neighbours only one has an even significand, so that the end is
in one interval only, and no decimal reads back to two magnitudes (`eq_of_readsBack`). The shortest
digits do read back (`readsBack_shortest`), and all that this depends on is the number that they
stand for.
-/

namespace ParamSweep.Decimal

/-- The number that a decimal stands for. -/
def Digits.value (d : Digits) : ℚ := d.digits * 10 ^ d.exponent

/-! ### Exact comparison -/

theorem zpow_mul_pow_neg {b : ℚ} (hb : b ≠ 0) (i : ℤ) :
    b ^ i * b ^ (-i).toNat = b ^ i.toNat := by
  rw [← zpow_natCast b (-i).toNat, ← zpow_natCast b i.toNat, ← zpow_add₀ hb]
  congr 1
  omega

/-- Both sides of a scaled comparison are the numbers compared, times one positive factor. -/
theorem exists_scale (a : ℕ) (i : ℤ) (b : ℕ) (j : ℤ) :
    ∃ c : ℚ, 0 < c ∧
      ((a * Nat.pow 10 i.toNat * Nat.pow 2 (-j).toNat : ℕ) : ℚ) = a * 10 ^ i * c ∧
      ((b * Nat.pow 2 j.toNat * Nat.pow 10 (-i).toNat : ℕ) : ℚ) = b * 2 ^ j * c := by
  have hten := zpow_mul_pow_neg (b := (10 : ℚ)) (by norm_num) i
  have htwo := zpow_mul_pow_neg (b := (2 : ℚ)) (by norm_num) j
  refine ⟨10 ^ (-i).toNat * 2 ^ (-j).toNat, by positivity, ?_, ?_⟩
  · simp only [Nat.pow_eq, Nat.cast_mul, Nat.cast_pow, Nat.cast_ofNat, ← hten]
    ring
  · simp only [Nat.pow_eq, Nat.cast_mul, Nat.cast_pow, Nat.cast_ofNat, ← htwo]
    ring

theorem compareScaled_eq_compare (a : ℕ) (i : ℤ) (b : ℕ) (j : ℤ) :
    compareScaled a i b j = compare ((a : ℚ) * 10 ^ i) (b * 2 ^ j) := by
  obtain ⟨c, hc, ha, hb⟩ := exists_scale a i b j
  rcases lt_trichotomy ((a : ℚ) * 10 ^ i) (b * 2 ^ j) with h | h | h
  · rw [compare_lt_iff_lt.2 h, compareScaled, compare_lt_iff_lt, ← Nat.cast_lt (α := ℚ), ha, hb]
    exact mul_lt_mul_of_pos_right h hc
  · rw [compare_eq_iff_eq.2 h, compareScaled, compare_eq_iff_eq, ← Nat.cast_inj (R := ℚ), ha, hb, h]
  · rw [compare_gt_iff_gt.2 h, compareScaled, compare_gt_iff_gt, ← Nat.cast_lt (α := ℚ), ha, hb]
    exact mul_lt_mul_of_pos_right h hc

/-! ### The reals that round to a magnitude -/

namespace Magnitude

/-- The lower end of the interval of reals that round to a magnitude. -/
def low (x : Magnitude) : ℚ :=
  ((if x.narrowBelow then 4 * x.significand - 1 else 4 * x.significand - 2 : ℕ) : ℚ) *
    2 ^ (x.exponent - 2)

/-- The upper end of the interval of reals that round to a magnitude. -/
def high (x : Magnitude) : ℚ := ((4 * x.significand + 2 : ℕ) : ℚ) * 2 ^ (x.exponent - 2)

/-- The number that a magnitude stands for. -/
def value (x : Magnitude) : ℚ := x.significand * 2 ^ x.exponent

variable {x : Magnitude} {d d' : Digits} {m n : ℕ}

theorem value_eq (x : Magnitude) :
    x.value = ((4 * x.significand : ℕ) : ℚ) * 2 ^ (x.exponent - 2) := by
  rw [value, zpow_sub₀ (by norm_num : (2 : ℚ) ≠ 0)]
  push_cast
  ring

theorem low_lt_high (x : Magnitude) : x.low < x.high := by
  refine mul_lt_mul_of_pos_right (Nat.cast_lt.2 ?_) (by positivity)
  split <;> omega

theorem value_lt_high (x : Magnitude) : x.value < x.high := by
  rw [value_eq]
  exact mul_lt_mul_of_pos_right (Nat.cast_lt.2 (by omega)) (by positivity)

theorem low_lt_value (hx : x.significand ≠ 0) : x.low < x.value := by
  rw [value_eq]
  refine mul_lt_mul_of_pos_right (Nat.cast_lt.2 ?_) (by positivity)
  split <;> omega

/-- A decimal reads back exactly if its number is between the ends, or at one that counts. -/
theorem readsBack_iff :
    x.readsBack d = true ↔
      (x.low < d.value ∨ (x.significand % 2 = 0 ∧ x.low = d.value)) ∧
        (d.value < x.high ∨ (x.significand % 2 = 0 ∧ d.value = x.high)) := by
  simp only [readsBack, compareScaled_eq_compare, Bool.and_eq_true, Bool.or_eq_true, beq_iff_eq,
    compare_lt_iff_lt, compare_gt_iff_gt, compare_eq_iff_eq]
  rw [eq_comm (a := x.low)]
  rfl

theorem readsBack_congr (h : d.value = d'.value) : x.readsBack d = x.readsBack d' := by
  rw [Bool.eq_iff_iff, readsBack_iff, readsBack_iff, h]

/-! ### Magnitudes in ascending order -/

/-- The magnitude whose bits are a number. -/
def ofIndex (n : ℕ) : Magnitude :=
  if n / 2 ^ 52 = 0 then ⟨n % 2 ^ 52, -1074, false⟩
  else ⟨2 ^ 52 + n % 2 ^ 52, (n / 2 ^ 52 : ℕ) - 1075, n % 2 ^ 52 = 0 && decide (1 < n / 2 ^ 52)⟩

theorem ofBits_eq_ofIndex (bits : UInt64) : ofBits bits = ofIndex (bits.toNat % 2 ^ 63) := by
  have hexponent : ((bits >>> 52) &&& 0x7FF).toNat = bits.toNat % 2 ^ 63 / 2 ^ 52 := by
    rw [UInt64.toNat_and, UInt64.toNat_shiftRight, Nat.shiftRight_eq_div_pow]
    show bits.toNat / 2 ^ 52 &&& 2 ^ 11 - 1 = _
    rw [Nat.and_two_pow_sub_one_eq_mod]
    omega
  have hfraction : (bits &&& 0xFFFFFFFFFFFFF).toNat = bits.toNat % 2 ^ 63 % 2 ^ 52 := by
    rw [UInt64.toNat_and]
    show bits.toNat &&& 2 ^ 52 - 1 = _
    rw [Nat.and_two_pow_sub_one_eq_mod]
    omega
  rw [ofBits, hexponent, hfraction]
  rfl

theorem significand_ofIndex_mod_two (n : ℕ) : (ofIndex n).significand % 2 = n % 2 := by
  rw [ofIndex]
  split
  · exact Nat.mod_mod_of_dvd n (by decide)
  · show (2 ^ 52 + n % 2 ^ 52) % 2 = n % 2
    omega

/-- Where the reals that round to a magnitude end, those that round to the next one begin. -/
theorem low_succ (n : ℕ) : (ofIndex (n + 1)).low = (ofIndex n).high := by
  obtain ⟨e, he⟩ : ∃ e, e = n / 2 ^ 52 := ⟨_, rfl⟩
  obtain ⟨f, hf⟩ : ∃ f, f = n % 2 ^ 52 := ⟨_, rfl⟩
  rw [low, high, ofIndex, ofIndex, ← he, ← hf]
  by_cases hlast : f = 2 ^ 52 - 1
  · -- the last magnitude of its exponent
    have he' : (n + 1) / 2 ^ 52 = e + 1 := by omega
    have hf' : (n + 1) % 2 ^ 52 = 0 := by omega
    rw [he', hf', hlast, if_neg (Nat.succ_ne_zero e)]
    rcases Nat.eq_zero_or_pos e with rfl | hpos
    · norm_num
    · -- the gap to the next one is twice as wide from here on
      have hnarrow : (decide (0 = 0) && decide (1 < e + 1)) = true := by simpa using hpos
      have hexponent : ((e + 1 : ℕ) : ℤ) - 1075 - 2 = (e - 1075 - 2) + 1 := by omega
      rw [if_neg (Nat.ne_of_gt hpos), hnarrow, hexponent, zpow_add_one₀ (by norm_num)]
      norm_num
      ring
  · have he' : (n + 1) / 2 ^ 52 = e := by omega
    have hf' : (n + 1) % 2 ^ 52 = f + 1 := by omega
    have hnarrow : ∀ b : Bool, (decide (f + 1 = 0) && b) = false := by simp
    rw [he', hf', hnarrow]
    -- the same exponent, and the next significand
    split <;> congr 2

theorem high_strictMono : StrictMono fun n => (ofIndex n).high :=
  strictMono_nat_of_lt_succ fun n => low_succ n ▸ low_lt_high (ofIndex (n + 1))

theorem not_readsBack_of_lt (h : m < n) (hm : (ofIndex m).readsBack d = true)
    (hn : (ofIndex n).readsBack d = true) : False := by
  obtain ⟨k, rfl⟩ := Nat.exists_eq_add_of_lt h
  rw [readsBack_iff] at hm hn
  rw [low_succ, significand_ofIndex_mod_two] at hn
  rw [significand_ofIndex_mod_two] at hm
  have hends : (ofIndex m).high ≤ (ofIndex (m + k)).high :=
    high_strictMono.monotone (Nat.le_add_right m k)
  rcases hm.2 with hlt | ⟨hm_even, hm_end⟩
  · rcases hn.1 with hlt' | ⟨-, heq⟩
    · exact absurd (hlt'.trans hlt) (not_lt.2 hends)
    · exact absurd (heq ▸ hlt) (not_lt.2 hends)
  · rcases hn.1 with hlt' | ⟨hn_even, hn_end⟩
    · exact absurd (hm_end ▸ hlt') (not_lt.2 hends)
    · -- the end counts on one side only: of two neighbours one is odd
      have hk : m = m + k := high_strictMono.injective (hm_end.symm.trans hn_end.symm)
      omega

/-- No decimal reads back to two magnitudes. -/
theorem eq_of_readsBack (hm : (ofIndex m).readsBack d = true)
    (hn : (ofIndex n).readsBack d = true) : m = n := by
  rcases Nat.lt_trichotomy m n with h | h | h
  · exact (not_readsBack_of_lt h hm hn).elim
  · exact h
  · exact (not_readsBack_of_lt h hn hm).elim

/-! ### The search for the shortest digits -/

theorem roundedQuotient_cases (tie : Tie) (num den : ℕ) :
    roundedQuotient tie num den = num / den ∨ roundedQuotient tie num den = num / den + 1 := by
  unfold roundedQuotient
  dsimp only
  split
  · exact .inl rfl
  · exact .inr rfl
  · exact .inr rfl
  · split
    · exact .inl rfl
    · exact .inr rfl

theorem readsBack_of_onGrid {tie : Tie} {grid : ℤ} (h : x.onGrid tie grid = some d) :
    x.readsBack d = true := by
  unfold onGrid at h
  dsimp only at h
  split at h
  next hlower hupper =>
    cases h
    rcases roundedQuotient_cases tie (x.overGrid grid).1 (x.overGrid grid).2 with hq | hq
    · rwa [hq]
    · rwa [hq]
  next hlower _ => cases h; exact hlower
  next _ hupper => cases h; exact hupper
  next => cases h

theorem value_exact (x : Magnitude) : x.exact.value = x.value := by
  have hten : (10 : ℚ) ^ min x.exponent 0 = 2 ^ min x.exponent 0 * 5 ^ min x.exponent 0 := by
    rw [← mul_zpow]
    norm_num
  have htwo : (2 : ℚ) ^ x.exponent.toNat * 2 ^ min x.exponent 0 = 2 ^ x.exponent := by
    rw [← zpow_natCast, ← zpow_add₀ (by norm_num)]
    congr 1
    omega
  have hfive : (5 : ℚ) ^ (-x.exponent).toNat * 5 ^ min x.exponent 0 = 1 := by
    rw [← zpow_natCast, ← zpow_add₀ (by norm_num), ← zpow_zero (5 : ℚ)]
    congr 1
    omega
  calc x.exact.value
      = x.significand * (2 ^ x.exponent.toNat * 2 ^ min x.exponent 0) *
          (5 ^ (-x.exponent).toNat * 5 ^ min x.exponent 0) := by
        rw [Digits.value, exact, hten]
        push_cast [Nat.pow_eq]
        ring
    _ = x.value := by rw [htwo, hfive, mul_one, value]

theorem readsBack_exact (hx : x.significand ≠ 0) : x.readsBack x.exact = true := by
  rw [readsBack_iff, value_exact]
  exact ⟨.inl (low_lt_value hx), .inl (value_lt_high x)⟩

theorem value_strip (fuel : ℕ) (d : Digits) : (Digits.strip fuel d).value = d.value := by
  induction fuel generalizing d with
  | zero => rfl
  | succ fuel ih =>
    rw [Digits.strip]
    split
    next h =>
      rw [ih, Digits.value, Digits.value, zpow_add₀ (by norm_num : (10 : ℚ) ≠ 0)]
      have hdigits : ((d.digits / 10 * 10 : ℕ) : ℚ) = d.digits := by
        rw [Nat.div_mul_cancel (Nat.dvd_of_mod_eq_zero h.2)]
      rw [← hdigits]
      push_cast
      ring
    next => rfl

/-- The shortest digits of a magnitude read back to it. -/
theorem readsBack_shortest (tie : Tie) (x : Magnitude) :
    x.readsBack (x.shortest tie) = true := by
  rw [shortest]
  split
  next hzero =>
    have hlow : x.low = 0 := by
      rw [low, hzero]
      simp
    have hvalue : (Digits.mk 0 0).value = 0 := by simp [Digits.value]
    have hhigh : 0 < x.high := hlow ▸ low_lt_high x
    rw [readsBack_iff, hlow, hvalue, hzero]
    exact ⟨.inr ⟨rfl, rfl⟩, .inl hhigh⟩
  next hx =>
    dsimp only
    rw [readsBack_congr (value_strip _ _)]
    cases hfound : (List.range 17).findSome? fun n => x.onGrid tie (x.scale - (n + 1 : ℕ)) with
    | none => exact readsBack_exact hx
    | some d =>
      obtain ⟨n, -, hn⟩ := List.exists_of_findSome?_eq_some hfound
      exact readsBack_of_onGrid hn

/-- Magnitudes with shortest digits that stand for one number are the same. -/
theorem eq_of_value_shortest {tie : Tie}
    (h : ((ofIndex m).shortest tie).value = ((ofIndex n).shortest tie).value) : m = n :=
  eq_of_readsBack (readsBack_congr h ▸ readsBack_shortest tie (ofIndex m))
    (readsBack_shortest tie (ofIndex n))

end Magnitude

end ParamSweep.Decimal
