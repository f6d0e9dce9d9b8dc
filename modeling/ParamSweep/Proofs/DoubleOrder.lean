import Mathlib
import ParamSweep.Output.Health
import ParamSweep.Proofs.ClosestDouble

/-!
The order of doubles by their bits.

Without the sign the bits of a double are a number, and the doubles from zero to infinity ascend as
these numbers do. So a double that is a number has a place among the integers, its `rank`, and all
comparisons go by the ranks (`lt_iff_rank_lt`, `le_iff_rank_le`). Both zeros have the rank zero; the
key by which snapshots are sorted tells them apart and leaves everything else in its order.
-/

namespace ParamSweep

open Float.Model Float.Model.UnpackedFloat

variable {x y : Float} {m n : ℕ}

/-! ### What the bits of a double stand for -/

/-- The bits of infinity. -/
def infinityIndex : ℕ := 2047 * 2 ^ 52

/-- The mantissa of the double that has these bits. -/
def mantissaAt (n : ℕ) : ℕ := if n / 2 ^ 52 = 0 then n % 2 ^ 52 else 2 ^ 52 + n % 2 ^ 52

/-- The exponent of the double that has these bits. -/
def exponentAt (n : ℕ) : ℤ := if n / 2 ^ 52 = 0 then -1074 else (n / 2 ^ 52 : ℕ) - 1075

theorem mantissaAt_pos (h : 0 < n) : 0 < mantissaAt n := by
  rw [mantissaAt]
  split_ifs <;> omega

/-- Exponent and mantissa together ascend as the bits do. -/
theorem compare_exponentAt (m n : ℕ) :
    (compare (exponentAt m) (exponentAt n)).then (compare (mantissaAt m) (mantissaAt n)) =
      compare (m : ℤ) n := by
  have hbelow : ∀ {m n : ℕ}, m < n →
      exponentAt m < exponentAt n ∨ exponentAt m = exponentAt n ∧ mantissaAt m < mantissaAt n := by
    intro m n h
    rw [exponentAt, exponentAt, mantissaAt, mantissaAt]
    split_ifs <;> omega
  obtain hlt | rfl | hgt := Nat.lt_trichotomy m n
  · rw [Int.compare_eq_lt.2 (Int.ofNat_lt.2 hlt)]
    obtain hexponent | ⟨hexponent, hmantissa⟩ := hbelow hlt
    · rw [Int.compare_eq_lt.2 hexponent]
      rfl
    · rw [Int.compare_eq_eq.2 hexponent, Nat.compare_eq_lt.2 hmantissa]
      rfl
  · rw [Int.compare_eq_eq.2 rfl, Nat.compare_eq_eq.2 rfl, Int.compare_eq_eq.2 rfl]
    rfl
  · rw [Int.compare_eq_gt.2 (Int.ofNat_lt.2 hgt)]
    obtain hexponent | ⟨hexponent, hmantissa⟩ := hbelow hgt
    · rw [Int.compare_eq_gt.2 hexponent]
      rfl
    · rw [Int.compare_eq_eq.2 hexponent.symm, Nat.compare_eq_gt.2 hmantissa]
      rfl

/-- The unpacked double has this rank. -/
inductive Ranks : UnpackedFloat → ℤ → Prop
  | zero (s : Sign) : Ranks (.zero s) 0
  | finite {n : ℕ} (s : Sign) (hpos : 0 < n) (hlt : n < infinityIndex) :
    Ranks (.finite s (mantissaAt n) (exponentAt n) (mantissaAt_pos hpos)) (s.apply n)
  | infinity (s : Sign) : Ranks (.infinity s) (s.apply infinityIndex)

theorem some_lt_of_lt {i j : ℤ} (h : i < j) : some Ordering.lt = some (compare i j) := by
  rw [Int.compare_eq_lt.2 h]

theorem some_gt_of_lt {i j : ℤ} (h : j < i) : some Ordering.gt = some (compare i j) := by
  rw [Int.compare_eq_gt.2 h]

/-- Below zero the order of exponents and mantissas is turned around. -/
theorem compare_finite (s s' : Sign) (hm : 0 < m) (hn : 0 < n) :
    UnpackedFloat.compare (.finite s (mantissaAt m) (exponentAt m) (mantissaAt_pos hm))
      (.finite s' (mantissaAt n) (exponentAt n) (mantissaAt_pos hn)) =
        some (compare (s.apply m) (s'.apply n)) := by
  cases s <;> cases s'
  case negative.negative =>
    show some ((compare (exponentAt m) (exponentAt n)).then
      (compare (mantissaAt m) (mantissaAt n))).swap = some (compare (-(m : ℤ)) (-(n : ℤ)))
    rw [compare_exponentAt, Int.compare_swap]
    simp only [Int.compare_eq_ite_lt, Int.neg_lt_neg_iff]
  case negative.positive => exact some_lt_of_lt (by rw [Sign.apply, Sign.apply]; omega)
  case positive.negative => exact some_gt_of_lt (by rw [Sign.apply, Sign.apply]; omega)
  case positive.positive =>
    show some ((compare (exponentAt m) (exponentAt n)).then
      (compare (mantissaAt m) (mantissaAt n))) = some (compare (m : ℤ) (n : ℤ))
    rw [compare_exponentAt]

/-- Unpacked doubles compare as their ranks. -/
theorem compare_of_ranks {u v : UnpackedFloat} {i j : ℤ} (hu : Ranks u i) (hv : Ranks v j) :
    u.compare v = some (compare i j) := by
  have hinfinity : 0 < infinityIndex := by decide
  cases hu with
  | zero s =>
    cases hv with
    | zero s' => rfl
    | finite s' _ _ | infinity s' =>
      cases s' with
      | negative => exact some_gt_of_lt (by rw [Sign.apply]; omega)
      | positive => exact some_lt_of_lt (by rw [Sign.apply]; omega)
  | finite s hpos hlt =>
    cases hv with
    | zero s' =>
      cases s with
      | negative => exact some_lt_of_lt (by rw [Sign.apply]; omega)
      | positive => exact some_gt_of_lt (by rw [Sign.apply]; omega)
    | finite s' hpos' _ => exact compare_finite s s' hpos hpos'
    | infinity s' =>
      cases s' with
      | negative => exact some_gt_of_lt (by cases s <;> rw [Sign.apply, Sign.apply] <;> omega)
      | positive => exact some_lt_of_lt (by cases s <;> rw [Sign.apply, Sign.apply] <;> omega)
  | infinity s =>
    cases hv with
    | infinity s' => cases s <;> cases s' <;> decide
    | zero s' =>
      cases s with
      | negative => exact some_lt_of_lt (by rw [Sign.apply]; omega)
      | positive => exact some_gt_of_lt (by rw [Sign.apply]; omega)
    | finite s' hpos' hlt' =>
      cases s with
      | negative => exact some_lt_of_lt (by cases s' <;> rw [Sign.apply, Sign.apply] <;> omega)
      | positive => exact some_gt_of_lt (by cases s' <;> rw [Sign.apply, Sign.apply] <;> omega)

/-! ### Ranks -/

/-- The bits of a double without its sign. -/
def magnitude (x : Float) : ℕ := x.toBits.toNat % 2 ^ 63

/-- The sign of a double by its bits. -/
def signOf (x : Float) : Sign := if x.toBits.toNat < 2 ^ 63 then .positive else .negative

/-- The place of a double among the integers: how many doubles it is above or below zero. -/
def rank (x : Float) : ℤ := (signOf x).apply (magnitude x)

theorem toNat_mantissa (x : Float) :
    (@unpackMantissa .binary64 x.toBits.toBitVec).toNat = magnitude x % 2 ^ 52 := by
  have hmantissa : (@unpackMantissa .binary64 x.toBits.toBitVec).toNat =
      x.toBits.toNat % 2 ^ 52 := by
    rw [unpackMantissa_def]
    simp
  rw [hmantissa, magnitude]
  omega

theorem toNat_exponent (x : Float) :
    (@unpackExponent .binary64 x.toBits.toBitVec).toNat = magnitude x / 2 ^ 52 := by
  have hexponent : (@unpackExponent .binary64 x.toBits.toBitVec).toNat =
      x.toBits.toNat / 2 ^ 52 % 2 ^ 11 := by
    rw [unpackExponent_def]
    simp [Nat.shiftRight_eq_div_pow]
  rw [hexponent, magnitude]
  omega

theorem mantissa_eq_zero_iff (x : Float) :
    @unpackMantissa .binary64 x.toBits.toBitVec = 0#52 ↔ magnitude x % 2 ^ 52 = 0 := by
  rw [← BitVec.toNat_inj, toNat_mantissa]
  rfl

theorem exponent_eq_zero_iff (x : Float) :
    @unpackExponent .binary64 x.toBits.toBitVec = 0#11 ↔ magnitude x / 2 ^ 52 = 0 := by
  rw [← BitVec.toNat_inj, toNat_exponent]
  rfl

theorem exponent_eq_last_iff (x : Float) :
    @unpackExponent .binary64 x.toBits.toBitVec = -1#11 ↔
      magnitude x / 2 ^ 52 = 2047 := by
  rw [← BitVec.toNat_inj, toNat_exponent]
  rfl

theorem ofBitVec_sign (x : Float) :
    Sign.ofBitVec (@unpackSign .binary64 x.toBits.toBitVec) = signOf x := by
  have hbit : (@unpackSign .binary64 x.toBits.toBitVec).toNat =
      x.toBits.toNat / 2 ^ 63 := by
    have hlt := x.toBits.toNat_lt
    rw [unpackSign_def, BitVec.extractLsb'_toNat, Nat.shiftRight_eq_div_pow]
    show x.toBits.toNat / 2 ^ 63 % 2 = x.toBits.toNat / 2 ^ 63
    omega
  rw [Sign.ofBitVec, signOf]
  congr 1
  rw [← BitVec.toNat_inj, hbit, eq_iff_iff]
  show x.toBits.toNat / 2 ^ 63 = 0 ↔ x.toBits.toNat < 2 ^ 63
  omega

theorem ranks_finite {s : Sign} {m : ℕ} {e : ℤ} (hm : 0 < m) (hmantissa : m = mantissaAt n)
    (hexponent : e = exponentAt n) (hpos : 0 < n) (hlt : n / 2 ^ 52 < 2047) :
    Ranks (.finite s m e hm) (s.apply n) := by
  subst hmantissa hexponent
  exact .finite s hpos (by rw [infinityIndex]; omega)

/-- A double that is a number has its rank. -/
theorem ranks_rank (h : x.isNaN = false) : Ranks x.toModel.unpack (rank x) := by
  have hbound : magnitude x < 2 ^ 63 := Nat.mod_lt _ (by decide)
  have hbias : (Format.exponentBias .binary64 : ℤ) = 1023 := rfl
  have hnumber : (UnpackedFloat.unpack .binary64 x.toBits.toBitVec).isNaN = false := h
  have hunpack : x.toModel.unpack = UnpackedFloat.unpack .binary64 x.toBits.toBitVec := rfl
  rw [rank, hunpack]
  rw [UnpackedFloat.unpack] at hnumber ⊢
  simp only [ofBitVec_sign] at hnumber ⊢
  split_ifs with hlast hzero hfirst hzero'
  · rw [exponent_eq_last_iff] at hlast
    rw [mantissa_eq_zero_iff] at hzero
    have hinfinity : magnitude x = infinityIndex := by
      rw [infinityIndex]
      omega
    rw [hinfinity]
    exact .infinity _
  · rw [if_pos hlast, if_neg hzero] at hnumber
    cases hnumber
  · rw [exponent_eq_zero_iff] at hfirst
    rw [mantissa_eq_zero_iff] at hzero'
    have hmagnitude : magnitude x = 0 := by omega
    rw [hmagnitude]
    cases signOf x <;> exact .zero _
  · rw [exponent_eq_zero_iff] at hfirst
    rw [mantissa_eq_zero_iff] at hzero'
    refine ranks_finite _ ?_ ?_ (by omega) (by omega)
    · rw [toNat_mantissa, mantissaAt, if_pos hfirst]
    · rw [toNat_exponent, exponentAt, if_pos hfirst]
      omega
  · rw [exponent_eq_zero_iff] at hfirst
    rw [exponent_eq_last_iff] at hlast
    refine ranks_finite _ ?_ ?_ (by omega) (by omega)
    · rw [Expression.toNat_one_append, toNat_mantissa, mantissaAt, if_neg hfirst]
    · rw [toNat_exponent, exponentAt, if_neg hfirst]
      omega

theorem compare_unpack (hx : x.isNaN = false) (hy : y.isNaN = false) :
    x.toModel.unpack.compare y.toModel.unpack = some (compare (rank x) (rank y)) :=
  compare_of_ranks (ranks_rank hx) (ranks_rank hy)

theorem lt_iff_rank_lt (hx : x.isNaN = false) (hy : y.isNaN = false) :
    x < y ↔ rank x < rank y := by
  have hlt : x < y ↔ x.toModel.unpack.lt y.toModel.unpack = true := by
    show decide (x.toModel.lt y.toModel = true) = true ↔ _
    rw [decide_eq_true_iff]
    rfl
  rw [hlt, UnpackedFloat.lt, compare_unpack hx hy, beq_iff_eq, Option.some_inj, Int.compare_eq_lt]

theorem le_iff_rank_le (hx : x.isNaN = false) (hy : y.isNaN = false) :
    x ≤ y ↔ rank x ≤ rank y := by
  have hle : x ≤ y ↔ x.toModel.unpack.le y.toModel.unpack = true := by
    show decide (x.toModel.le y.toModel = true) = true ↔ _
    rw [decide_eq_true_iff]
    rfl
  rw [hle, UnpackedFloat.le, compare_unpack hx hy, Option.any_some, Int.isLE_compare]

/-! ### The key of the sorting -/

namespace Snapshot

/-- The key is the rank, but the doubles with a sign have moved down by one place. -/
theorem orderKey_eq (x : Float) :
    orderKey x = if x.toBits.toNat < 2 ^ 63 then rank x else rank x - 1 := by
  have hlt := x.toBits.toNat_lt
  rw [orderKey, rank, magnitude, signOf]
  split_ifs <;> rw [Sign.apply] <;> omega

theorem rank_nonneg (h : x.toBits.toNat < 2 ^ 63) : 0 ≤ rank x := by
  rw [rank, signOf, if_pos h, Sign.apply]
  omega

theorem rank_nonpos (h : ¬ x.toBits.toNat < 2 ^ 63) : rank x ≤ 0 := by
  rw [rank, signOf, if_neg h, Sign.apply]
  omega

theorem orderKey_lt_of_rank_lt (h : rank x < rank y) : orderKey x < orderKey y := by
  have hx := rank_nonneg (x := x)
  have hy := rank_nonpos (x := y)
  rw [orderKey_eq, orderKey_eq]
  split_ifs <;> omega

theorem orderKey_injective : Function.Injective orderKey := by
  intro x y h
  have hx := x.toBits.toNat_lt
  have hy := y.toBits.toNat_lt
  rw [← Float.toBits_inj, ← UInt64.toNat_inj]
  rw [orderKey, orderKey] at h
  split_ifs at h <;> omega

/-- Only the zeros share a rank. -/
theorem zeros_of_rank_eq (hrank : rank x = rank y) (hlt : orderKey x < orderKey y) :
    x = -0 ∧ y = 0 := by
  have hnegative : (-0 : Float).toBits.toNat = 2 ^ 63 := by decide +kernel
  have hpositive : (0 : Float).toBits.toNat = 0 := by decide +kernel
  rw [orderKey_eq, orderKey_eq] at hlt
  rw [← Float.toBits_inj, ← Float.toBits_inj, ← UInt64.toNat_inj, ← UInt64.toNat_inj, hnegative,
    hpositive]
  have hx := x.toBits.toNat_lt
  have hy := y.toBits.toNat_lt
  rw [rank, rank, magnitude, magnitude, signOf, signOf] at hrank hlt
  -- of one sign the keys differ as the ranks do, so only the zeros of two signs are left
  split_ifs at hlt hrank with hsignx hsigny hsigny
  · omega
  · omega
  · simp only [Sign.apply] at hrank
    omega
  · omega

/-- The key puts numbers into their order, and the negative zero before the other. -/
theorem lt_of_orderKey_lt (hx : x.isNaN = false) (hy : y.isNaN = false)
    (hlt : orderKey x < orderKey y) : x < y ∨ x = -0 ∧ y = 0 := by
  obtain hrank | hrank | hrank := lt_trichotomy (rank x) (rank y)
  · exact .inl ((lt_iff_rank_lt hx hy).2 hrank)
  · exact .inr (zeros_of_rank_eq hrank hlt)
  · exact absurd (orderKey_lt_of_rank_lt hrank) (not_lt_of_gt hlt)

end Snapshot

end ParamSweep
