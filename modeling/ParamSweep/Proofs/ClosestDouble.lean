import Mathlib
import ParamSweep.Expression.Evaluate

/-!
The double closest to an integer.

A double has 53 significant bits. The closest one to an integer of 64 bits stands for an integer
itself (`nearest`), and the doubles of two integers compare as those do (`closest_lt_iff`). Up to a
magnitude of `2 ^ 53` an integer is its own nearest one. Above, integers next to each other share
one, but the order of two integers is never turned around (`nearest_mono`).
-/

namespace ParamSweep.Expression

open Float.Model Float.Model.UnpackedFloat

variable {d k m n : Nat}

/-! ### Rounding -/

/-- The natural number closest to a quotient. Of two that are equally close it is the even one. -/
def roundedQuotient (m d : Nat) : Nat :=
  if 2 * (m % d) < d then m / d
  else if 2 * (m % d) = d then m / d + m / d % 2
  else m / d + 1

/-- How many bits a natural number has beyond the 53 of a double. -/
def excess (m : Nat) : Nat := m.log2 - 52

/-- The natural number that the double closest to `m` stands for. -/
def nearestNat (m : Nat) : Nat := roundedQuotient m (2 ^ excess m) * 2 ^ excess m

/-- The integer that the double closest to `n` stands for. -/
def nearest (n : Int) : Int := if n < 0 then -(nearestNat n.natAbs) else nearestNat n.natAbs

theorem le_roundedQuotient (m d : Nat) : m / d ≤ roundedQuotient m d := by
  rw [roundedQuotient]
  split_ifs <;> omega

theorem roundedQuotient_le (m d : Nat) : roundedQuotient m d ≤ m / d + 1 := by
  rw [roundedQuotient]
  split_ifs <;> omega

theorem roundedQuotient_one (m : Nat) : roundedQuotient m 1 = m := by
  rw [roundedQuotient, Nat.mod_one, if_pos (by decide), Nat.div_one]

theorem roundedQuotient_mono (h : m ≤ n) : roundedQuotient m d ≤ roundedQuotient n d := by
  obtain hquotient | hquotient := Nat.lt_or_eq_of_le (Nat.div_le_div_right (c := d) h)
  · exact Nat.le_trans (roundedQuotient_le m d)
      (Nat.le_trans hquotient (le_roundedQuotient n d))
  · have hm := Nat.div_add_mod m d
    have hn := Nat.div_add_mod n d
    have hmod : m % d ≤ n % d := by
      rw [hquotient] at hm
      omega
    rw [roundedQuotient, roundedQuotient, hquotient]
    split_ifs <;> omega

theorem excess_of_lt (h : m < 2 ^ 53) : excess m = 0 := by
  rw [excess, Nat.sub_eq_zero_iff_le]
  obtain rfl | hm := Nat.eq_zero_or_pos m
  · decide
  · exact Nat.le_of_lt_succ ((Nat.log2_lt (by omega)).2 h)

theorem nearestNat_of_le (h : m ≤ 2 ^ 53) : nearestNat m = m := by
  obtain hlt | rfl := Nat.lt_or_eq_of_le h
  · rw [nearestNat, excess_of_lt hlt, Nat.pow_zero, roundedQuotient_one, Nat.mul_one]
  · decide

theorem two_pow_log2 (hm : 2 ^ 52 ≤ m) : 2 ^ m.log2 = 2 ^ 52 * 2 ^ excess m := by
  have hlog : 52 ≤ m.log2 := (Nat.le_log2 (by omega)).2 hm
  rw [← Nat.pow_add, excess]
  congr 1
  omega

theorem two_pow_le_roundedQuotient (hm : 2 ^ 52 ≤ m) :
    2 ^ 52 ≤ roundedQuotient m (2 ^ excess m) := by
  have hquotient : 2 ^ 52 ≤ m / 2 ^ excess m := by
    rw [Nat.le_div_iff_mul_le (Nat.two_pow_pos _), ← two_pow_log2 hm]
    exact Nat.log2_self_le (by omega)
  exact Nat.le_trans hquotient (le_roundedQuotient _ _)

/-- The quotient that is rounded has 53 bits, and rounding may reach the next power of two. -/
theorem roundedQuotient_le_two_pow (m : Nat) : roundedQuotient m (2 ^ excess m) ≤ 2 ^ 53 := by
  have hlt : m < 2 ^ 53 * 2 ^ excess m := by
    rw [← Nat.pow_add]
    exact Nat.lt_of_lt_of_le Nat.lt_log2_self
      (Nat.pow_le_pow_right (by decide) (by rw [excess]; omega))
  have hquotient : m / 2 ^ excess m < 2 ^ 53 := Nat.div_lt_of_lt_mul (by rwa [Nat.mul_comm])
  exact Nat.le_trans (roundedQuotient_le _ _) hquotient

theorem two_pow_log2_le_nearestNat (hm : 2 ^ 52 ≤ m) : 2 ^ m.log2 ≤ nearestNat m := by
  rw [two_pow_log2 hm]
  exact Nat.mul_le_mul_right _ (two_pow_le_roundedQuotient hm)

theorem nearestNat_le_two_pow (hm : 2 ^ 52 ≤ m) : nearestNat m ≤ 2 ^ (m.log2 + 1) := by
  rw [Nat.pow_succ', two_pow_log2 hm, ← Nat.mul_assoc]
  exact Nat.mul_le_mul_right _ (roundedQuotient_le_two_pow m)

theorem nearestNat_mono (h : m ≤ n) : nearestNat m ≤ nearestNat n := by
  obtain hsmall | hlarge := Nat.le_total m (2 ^ 53)
  · rw [nearestNat_of_le hsmall]
    obtain hn | hn := Nat.le_total n (2 ^ 53)
    · rwa [nearestNat_of_le hn]
    · calc m ≤ 2 ^ 53 := hsmall
        _ ≤ 2 ^ n.log2 := Nat.pow_le_pow_right (by decide) ((Nat.le_log2 (by omega)).2 hn)
        _ ≤ nearestNat n := two_pow_log2_le_nearestNat (by omega)
  · have hlog : m.log2 ≤ n.log2 :=
      (Nat.le_log2 (by omega)).2 (Nat.le_trans (Nat.log2_self_le (by omega)) h)
    obtain hlt | heq := Nat.lt_or_eq_of_le hlog
    · calc nearestNat m ≤ 2 ^ (m.log2 + 1) := nearestNat_le_two_pow (by omega)
        _ ≤ 2 ^ n.log2 := Nat.pow_le_pow_right (by decide) hlt
        _ ≤ nearestNat n := two_pow_log2_le_nearestNat (by omega)
    · have hexcess : excess m = excess n := by rw [excess, excess, heq]
      rw [nearestNat, nearestNat, hexcess]
      exact Nat.mul_le_mul_right _ (roundedQuotient_mono h)

theorem nearest_of_natAbs_le {n : Int} (h : n.natAbs ≤ 2 ^ 53) : nearest n = n := by
  rw [nearest, nearestNat_of_le h]
  split_ifs <;> omega

theorem nearest_mono {a b : Int} (h : a ≤ b) : nearest a ≤ nearest b := by
  rw [nearest, nearest]
  split_ifs with ha hb
  · have := nearestNat_mono (m := b.natAbs) (n := a.natAbs) (by omega)
    omega
  · omega
  · omega
  · have := nearestNat_mono (m := a.natAbs) (n := b.natAbs) (by omega)
    omega

/-! ### Shifting -/

theorem mod_two_pow_succ (m k : Nat) :
    m % 2 ^ (k + 1) = m % 2 ^ k + 2 ^ k * (m / 2 ^ k % 2) := by
  rw [Nat.pow_succ, Nat.mod_mul]

/-- What is left of a mantissa after a number of shifts: the quotient, the last bit that was shifted
out, and whether a bit before that was set. -/
theorem repeat_shiftRightOne (m k : Nat) :
    (k + 1).repeat ExtendedMantissa.shiftRightOne ⟨m, false, false⟩ =
      ⟨m / 2 ^ (k + 1), m / 2 ^ k % 2 != 0, m % 2 ^ k != 0⟩ := by
  induction k with
  | zero => simp [Nat.repeat, ExtendedMantissa.shiftRightOne, Nat.mod_one]
  | succ k ih =>
    rw [Nat.repeat, ih, ExtendedMantissa.shiftRightOne, Nat.div_div_eq_div_mul, ← Nat.pow_succ,
      mod_two_pow_succ]
    congr 1
    obtain hbit | hbit := Nat.mod_two_eq_zero_or_one (m / 2 ^ k)
    · simp [hbit]
    · simp [hbit]

theorem mantissa_shifted (m k : Nat) :
    (k.repeat ExtendedMantissa.shiftRightOne ⟨m, false, false⟩).mantissa = m / 2 ^ k := by
  cases k with
  | zero => exact (Nat.div_one m).symm
  | succ k => rw [repeat_shiftRightOne]

theorem roundedMantissa_shifted (m k : Nat) :
    ExtendedMantissa.roundedMantissa
      (k.repeat ExtendedMantissa.shiftRightOne ⟨m, false, false⟩) = roundedQuotient m (2 ^ k) := by
  cases k with
  | zero =>
    rw [Nat.pow_zero, roundedQuotient_one]
    rfl
  | succ k =>
    have hlt := Nat.mod_lt m (Nat.two_pow_pos k)
    have hpow : 2 ^ (k + 1) = 2 * 2 ^ k := Nat.pow_succ'
    rw [repeat_shiftRightOne, roundedQuotient, mod_two_pow_succ]
    obtain hbit | hbit := Nat.mod_two_eq_zero_or_one (m / 2 ^ k)
    · -- less than a half was shifted out
      rw [hbit, if_pos (by omega)]
      cases m % 2 ^ k != 0 <;> rfl
    · rw [hbit, if_neg (by omega)]
      cases hrest : m % 2 ^ k != 0 with
      | false =>
        have hzero : m % 2 ^ k = 0 := by simpa using hrest
        rw [if_pos (by omega)]
        rfl
      | true =>
        have hnonzero : m % 2 ^ k ≠ 0 := by simpa using hrest
        rw [if_neg (by omega)]
        rfl

/-- The exponent of a mantissa with `b + 1` bits, in a double that has all its bits. -/
theorem targetExponent_eq {b : Nat} {e : Int} (he : -1022 ≤ b + e) :
    Format.targetExponent .binary64 (b + 1 + e) = b + e - 52 := by
  rw [Format.targetExponent, Format.minExponent, Format.mantissaBits]
  simp only [Nat.reduceAdd, Nat.reduceSub, Int.reducePow, Int.reduceSub, Nat.cast_ofNat]
  omega

/-- A mantissa that has all its bits is shifted as far as it has too many. -/
theorem shiftToTargetExponent_eq {e : Int} (hm : 52 ≤ m.log2) (he : -1074 ≤ e) :
    shiftToTargetExponent .binary64 m e .exact =
      ((excess m).repeat ExtendedMantissa.shiftRightOne ⟨m, false, false⟩, e + excess m) := by
  have hshift : (m.log2 + e - 52 - e).toNat = excess m := by
    rw [excess]
    omega
  rw [shiftToTargetExponent, totalExponent, targetExponent_eq (by omega), shiftToExponent, hshift]
  rfl

theorem roundWithAccuracy_of_shifts {s : Sign} {e e₁ e₂ : Int} {em₁ em₂ : ExtendedMantissa}
    (h₁ : shiftToTargetExponent .binary64 m e .exact = (em₁, e₁))
    (h₂ : shiftToTargetExponent .binary64 em₁.roundedMantissa e₁ .exact = (em₂, e₂))
    (hpos : 0 < em₂.mantissa) :
    roundWithAccuracy .binary64 s m e .exact = .finite s em₂.mantissa e₂ hpos := by
  rw [roundWithAccuracy]
  simp only [h₁, h₂]
  rw [dif_neg (Nat.pos_iff_ne_zero.1 hpos)]

/-- After rounding a mantissa is shifted once more where it has reached a power of two. -/
theorem roundWithAccuracy_eq {s : Sign} {e : Int} (hm : 2 ^ 52 ≤ m) (he : -1074 ≤ e) :
    ∃ (q j : Nat) (hq : 0 < q), roundWithAccuracy .binary64 s m e .exact = .finite s q (e + j) hq ∧
      2 ^ 52 ≤ q ∧ q < 2 ^ 53 ∧ q * 2 ^ j = nearestNat m ∧ j ≤ excess m + 1 := by
  obtain ⟨r, hr⟩ : ∃ r, r = roundedQuotient m (2 ^ excess m) := ⟨_, rfl⟩
  have hlower : 2 ^ 52 ≤ r := hr ▸ two_pow_le_roundedQuotient hm
  have hupper : r ≤ 2 ^ 53 := hr ▸ roundedQuotient_le_two_pow m
  obtain ⟨hq, hfits, hvalue, hone⟩ : 2 ^ 52 ≤ r / 2 ^ excess r ∧ r / 2 ^ excess r < 2 ^ 53 ∧
      r / 2 ^ excess r * 2 ^ excess r = r ∧ excess r ≤ 1 := by
    obtain hlt | rfl := Nat.lt_or_eq_of_le hupper
    · rw [excess_of_lt hlt]
      omega
    · decide
  have h₁ := shiftToTargetExponent_eq ((Nat.le_log2 (by omega)).2 hm) he
  have h₂ := shiftToTargetExponent_eq (e := e + excess m) ((Nat.le_log2 (by omega)).2 hlower)
    (by omega)
  rw [← mantissa_shifted] at hq hfits hvalue
  refine ⟨_, excess m + excess r, by omega, ?_, hq, hfits, ?_, by omega⟩
  · rw [Nat.cast_add, ← Int.add_assoc]
    refine roundWithAccuracy_of_shifts h₁ ?_ (by omega)
    rw [roundedMantissa_shifted, ← hr, h₂]
  · rw [nearestNat, ← hr, Nat.add_comm, Nat.pow_add, ← Nat.mul_assoc, hvalue]

/-- How far a positive number is shifted to the left to have all bits of a mantissa. -/
theorem exists_shift (hpos : 0 < m) (hm : m < 2 ^ 64) :
    ∃ j ≤ 52, ((0 : Int) - (m.log2 + 0 - 52)).toNat = j ∧ 2 ^ 52 ≤ m * 2 ^ j ∧
      nearestNat (m * 2 ^ j) = nearestNat m * 2 ^ j ∧ excess (m * 2 ^ j) < 64 := by
  obtain hsmall | hlarge := Nat.lt_or_ge m (2 ^ 53)
  · have hlog : m.log2 ≤ 52 := Nat.le_of_lt_succ ((Nat.log2_lt (by omega)).2 hsmall)
    have hlower : 2 ^ 52 ≤ m * 2 ^ (52 - m.log2) := by
      calc 2 ^ 52 = 2 ^ m.log2 * 2 ^ (52 - m.log2) := by rw [← Nat.pow_add]; congr 1; omega
        _ ≤ m * 2 ^ (52 - m.log2) := Nat.mul_le_mul_right _ (Nat.log2_self_le (by omega))
    have hupper : m * 2 ^ (52 - m.log2) < 2 ^ 53 := by
      calc m * 2 ^ (52 - m.log2) < 2 ^ (m.log2 + 1) * 2 ^ (52 - m.log2) :=
            Nat.mul_lt_mul_of_pos_right Nat.lt_log2_self (Nat.two_pow_pos _)
        _ = 2 ^ 53 := by rw [← Nat.pow_add]; congr 1; omega
    refine ⟨52 - m.log2, by omega, by omega, hlower, ?_, ?_⟩
    · rw [nearestNat_of_le (Nat.le_of_lt hupper), nearestNat_of_le (Nat.le_of_lt hsmall)]
    · rw [excess_of_lt hupper]
      decide
  · have hlog : 53 ≤ m.log2 := (Nat.le_log2 (by omega)).2 hlarge
    have hlog' : m.log2 < 64 := (Nat.log2_lt (by omega)).2 hm
    refine ⟨0, by omega, by omega, ?_, ?_, ?_⟩
    · omega
    · rw [Nat.pow_zero, Nat.mul_one, Nat.mul_one]
    · rw [Nat.pow_zero, Nat.mul_one, excess]
      omega

/-- What a positive number is rounded to has a mantissa of 53 bits. -/
theorem round_eq (s : Sign) (hpos : 0 < m) (hm : m < 2 ^ 64) :
    ∃ (q k : Nat) (hq : 0 < q), UnpackedFloat.round .binary64 s m 0 = .finite s q (k - 52) hq ∧
      2 ^ 52 ≤ q ∧ q < 2 ^ 53 ∧ k ≤ 1000 ∧ q * 2 ^ k = nearestNat m * 2 ^ 52 := by
  obtain ⟨j, hj, hshift, hlower, hnearest, hexcess⟩ := exists_shift hpos hm
  obtain ⟨q, j', hq, hround, hq', hfits, hvalue, hle⟩ :=
    roundWithAccuracy_eq (s := s) (e := 0 - j) hlower (by omega)
  refine ⟨q, 52 - j + j', hq, ?_, hq', hfits, by omega, ?_⟩
  · rw [UnpackedFloat.round, totalExponent, targetExponent_eq (by omega), decreaseExponent]
    simp only [hshift, Nat.shiftLeft_eq, hround]
    congr 1
    omega
  · rw [Nat.add_comm, Nat.pow_add, ← Nat.mul_assoc, hvalue, hnearest, Nat.mul_assoc, ← Nat.pow_add]
    congr 2
    omega

/-! ### Comparing -/

/-- The unpacked double stands for an integer: it is zero, or its mantissa has all bits and an
exponent that is far from the greatest one. -/
inductive Shows : UnpackedFloat → Int → Prop
  | zero : Shows (.zero .positive) 0
  | finite {q k m : Nat} (s : Sign) (hq : 0 < q) (hlower : 2 ^ 52 ≤ q) (hupper : q < 2 ^ 53)
    (hk : k ≤ 1000) (hvalue : q * 2 ^ k = m * 2 ^ 52) : Shows (.finite s q (k - 52) hq) (s.apply m)

theorem shows_ofInt {n : Int} (hn : n.natAbs < 2 ^ 64) :
    Shows (UnpackedFloat.ofInt .binary64 n) (nearest n) := by
  obtain hneg | rfl | hpos := Int.lt_trichotomy n 0
  · obtain ⟨q, k, hq, hround, hlower, hupper, hk, hvalue⟩ :=
      round_eq (m := n.natAbs) .negative (by omega) hn
    have hofInt : UnpackedFloat.ofInt .binary64 n = .finite .negative q (k - 52) hq := by
      have habs : (-n).toNat = n.natAbs := by omega
      rw [UnpackedFloat.ofInt, UnpackedFloat.normalize, Int.compare_eq_lt.2 hneg]
      simp only [habs, hround]
    rw [hofInt, nearest, if_pos hneg]
    exact .finite .negative hq hlower hupper hk hvalue
  · exact .zero
  · obtain ⟨q, k, hq, hround, hlower, hupper, hk, hvalue⟩ :=
      round_eq (m := n.natAbs) .positive (by omega) hn
    have hofInt : UnpackedFloat.ofInt .binary64 n = .finite .positive q (k - 52) hq := by
      have habs : n.toNat = n.natAbs := by omega
      rw [UnpackedFloat.ofInt, UnpackedFloat.normalize, Int.compare_eq_gt.2 hpos]
      simp only [habs, hround]
    rw [hofInt, nearest, if_neg (by omega)]
    exact .finite .positive hq hlower hupper hk hvalue

theorem ofBitVec_unpackSign (s : Sign) (e : BitVec 11) (m : BitVec 52) :
    Sign.ofBitVec (unpackSign (packComponents .binary64 s e m)) = s := by
  simp only [unpackSign, packComponents, BitVec.extractLsb]
  rw [BitVec.extractLsb'_append_eq_of_le (by omega),
    BitVec.extractLsb'_append_eq_of_le (by omega)]
  cases s <;> rfl

theorem toNat_one_append (m : BitVec 52) : (1#1 ++ m).toNat = 2 ^ 52 + m.toNat := by
  rw [BitVec.toNat_append, ← Nat.shiftLeft_add_eq_or_of_lt m.isLt]
  rfl

/-- Packing keeps a mantissa that has all bits and an exponent in the range of doubles. -/
theorem unpack_pack_normal (s : Sign) {q : Nat} {e : Int} (hq : 0 < q) (hlower : 2 ^ 52 ≤ q)
    (hupper : q < 2 ^ 53) (hleast : -1074 ≤ e) (hmost : e ≤ 971) :
    UnpackedFloat.unpack .binary64 (UnpackedFloat.pack .binary64 (.finite s q e hq)) =
      .finite s q e hq := by
  obtain ⟨k, rfl⟩ : ∃ k : Nat, e = k - 1075 := ⟨(e + 1075).toNat, by omega⟩
  have hlog : q.log2 = 52 := by
    have hge : 52 ≤ q.log2 := (Nat.le_log2 (by omega)).2 hlower
    have hlt : q.log2 < 53 := (Nat.log2_lt (by omega)).2 hupper
    omega
  have hbias : (Format.exponentBias .binary64 : Int) = 1023 := rfl
  have hbiased : ((k : Int) - 1075 + (Format.exponentBias .binary64 : Int) + (52 : Nat)).toNat =
      k := by omega
  have hunbiased : (k : Int) - ((Format.exponentBias .binary64 : Int) + (52 : Nat)) = k - 1075 := by
    omega
  have hmantissa : (1#1 ++ BitVec.ofNat 52 q).toNat = q := by
    rw [toNat_one_append, BitVec.toNat_ofNat]
    omega
  have hexponent : (BitVec.ofNat 11 k).toNat = k := by
    rw [BitVec.toNat_ofNat]
    omega
  -- the exponent is none of the two that mark other numbers
  have hne : ∀ b : BitVec 11, b.toNat ≠ k → BitVec.ofNat 11 k ≠ b :=
    fun b hb heq => hb (heq ▸ hexponent)
  have hlast : BitVec.ofNat 11 k ≠ -1#11 := hne _ (by
    show 2047 ≠ k
    omega)
  have hfirst : BitVec.ofNat 11 k ≠ 0#11 := hne _ (by
    show 0 ≠ k
    omega)
  rw [UnpackedFloat.pack]
  simp only [hlog, hbiased]
  rw [if_neg (by omega), if_pos (by decide), UnpackedFloat.unpack]
  simp only [unpackMantissa_packComponents, unpackExponent_packComponents, ofBitVec_unpackSign]
  rw [if_neg hlast, if_neg hfirst]
  simp only [hmantissa, hexponent, hunbiased]

/-- Packing keeps the number that a double stands for. -/
theorem unpack_pack_of_shows {u : UnpackedFloat} {x : Int} (h : Shows u x) :
    UnpackedFloat.unpack .binary64 (UnpackedFloat.pack .binary64 u) = u := by
  cases h with
  | zero => rfl
  | finite s hq hlower hupper hk _ =>
    exact unpack_pack_normal s hq hlower hupper (by omega) (by omega)

/-- Mantissas with all bits compare, after their exponents, as the scaled numbers do. -/
theorem compare_scaled {q q' k k' : Nat} (hlower : 2 ^ 52 ≤ q) (hupper : q < 2 ^ 53)
    (hlower' : 2 ^ 52 ≤ q') (hupper' : q' < 2 ^ 53) :
    (compare ((k : Int) - 52) (k' - 52)).then (compare q q') =
      compare (q * 2 ^ k) (q' * 2 ^ k') := by
  have hbelow : ∀ {q q' k k' : Nat}, q < 2 ^ 53 → 2 ^ 52 ≤ q' → k < k' →
      q * 2 ^ k < q' * 2 ^ k' := by
    intro q q' k k' hq hq' hk
    calc q * 2 ^ k < 2 ^ 53 * 2 ^ k := Nat.mul_lt_mul_of_pos_right hq (Nat.two_pow_pos k)
      _ = 2 ^ 52 * 2 ^ (k + 1) := by rw [← Nat.pow_add, ← Nat.pow_add]; congr 1; omega
      _ ≤ q' * 2 ^ k' := Nat.mul_le_mul hq' (Nat.pow_le_pow_right (by decide) hk)
  obtain hlt | rfl | hgt := Nat.lt_trichotomy k k'
  · rw [Int.compare_eq_lt.2 (by omega), Nat.compare_eq_lt.2 (hbelow hupper hlower' hlt)]
    rfl
  · have hpos := Nat.two_pow_pos k
    rw [Int.compare_eq_eq.2 rfl, Ordering.then]
    obtain hlt | rfl | hgt := Nat.lt_trichotomy q q'
    · rw [Nat.compare_eq_lt.2 hlt, Nat.compare_eq_lt.2 (Nat.mul_lt_mul_of_pos_right hlt hpos)]
    · rw [Nat.compare_eq_eq.2 rfl, Nat.compare_eq_eq.2 rfl]
    · rw [Nat.compare_eq_gt.2 hgt, Nat.compare_eq_gt.2 (Nat.mul_lt_mul_of_pos_right hgt hpos)]
  · rw [Int.compare_eq_gt.2 (by omega), Nat.compare_eq_gt.2 (hbelow hupper' hlower hgt)]
    rfl

theorem pos_of_scaled {q : Nat} (hq : 0 < q) (hvalue : q * 2 ^ k = m * 2 ^ 52) : 0 < m := by
  have hpos := Nat.mul_pos hq (Nat.two_pow_pos k)
  omega

theorem lt_iff_of_shows {u v : UnpackedFloat} {x y : Int} (hu : Shows u x) (hv : Shows v y) :
    u.lt v = true ↔ x < y := by
  rw [UnpackedFloat.lt, beq_iff_eq]
  cases hu with
  | zero =>
    cases hv with
    | zero => exact iff_of_false nofun (by decide)
    | finite s hq _ _ _ hvalue =>
      have hpos := pos_of_scaled hq hvalue
      cases s with
      | negative => exact iff_of_false nofun (by rw [Sign.apply]; omega)
      | positive => exact iff_of_true rfl (by rw [Sign.apply]; omega)
  | finite s hq hlower hupper _ hvalue =>
    have hpos := pos_of_scaled hq hvalue
    cases hv with
    | zero =>
      cases s with
      | negative => exact iff_of_true rfl (by rw [Sign.apply]; omega)
      | positive => exact iff_of_false nofun (by rw [Sign.apply]; omega)
    | finite s' hq' hlower' hupper' _ hvalue' =>
      have hpos' := pos_of_scaled hq' hvalue'
      cases s <;> cases s' <;> rw [Sign.apply, Sign.apply]
      case negative.positive => exact iff_of_true rfl (by omega)
      case positive.negative => exact iff_of_false nofun (by omega)
      case negative.negative =>
        rw [UnpackedFloat.compare, compare_scaled hlower hupper hlower' hupper', hvalue, hvalue',
          Option.some_inj, Ordering.swap_eq_lt, Nat.compare_eq_gt]
        omega
      case positive.positive =>
        rw [UnpackedFloat.compare, compare_scaled hlower hupper hlower' hupper', hvalue, hvalue',
          Option.some_inj, Nat.compare_eq_lt]
        omega

/-- The closest doubles of two integers compare as the integers that they stand for. -/
theorem closest_lt_iff {a b : Int} (ha : a.natAbs < 2 ^ 64) (hb : b.natAbs < 2 ^ 64) :
    closest a < closest b ↔ nearest a < nearest b := by
  have hshowsa := shows_ofInt ha
  have hshowsb := shows_ofInt hb
  rw [← lt_iff_of_shows hshowsa hshowsb, ← unpack_pack_of_shows hshowsa,
    ← unpack_pack_of_shows hshowsb]
  show decide ((closest a).toModel.lt (closest b).toModel = true) = true ↔ _
  rw [decide_eq_true_iff]
  rfl

end ParamSweep.Expression
