import Mathlib
import ParamSweep.Output.Snapshot
import ParamSweep.Proofs.ClosestDouble
import ParamSweep.Proofs.Outcome

/-!
Numbers that are read from texts are not NaN.

The digits of a decimal are taken as a double, which is multiplied or divided by powers of ten. That
makes a NaN only of infinities and zeros, and the powers of ten are neither (`ordinary_power`). So
the doubles in a JSON text are numbers (`ReadsNumber.number?`), and the times of snapshots can be
compared (`isNaN_time`).
-/

namespace ParamSweep

open Float.Model Float.Model.UnpackedFloat

variable {x y : Float} {k : ℕ}

/-! ### Products and quotients -/

/-- Packing makes a NaN of nothing else. -/
theorem isNaN_pack (u : UnpackedFloat) : (Float.Model.pack u).isNaN = u.isNaN := by
  show (UnpackedFloat.unpack .binary64 (UnpackedFloat.pack .binary64 u)).isNaN = u.isNaN
  cases u with
  | notANumber => decide
  | infinity s => cases s <;> decide
  | zero s => cases s <;> decide
  | finite s m e hm =>
    rw [Bool.eq_iff_iff, isNaN_unpack_iff_of_valid valid_pack]
    refine iff_of_false ?_ nofun
    intro heq
    have hexponent := congrArg (@unpackExponent .binary64) heq
    have hmantissa := congrArg (@unpackMantissa .binary64) heq
    rw [UnpackedFloat.pack] at hexponent hmantissa
    simp only [packedNaN, unpackExponent_packComponents, unpackMantissa_packComponents]
      at hexponent hmantissa
    split_ifs at hexponent hmantissa with hlarge hnormal
    · -- what is too large becomes an infinity, and that has no mantissa
      rw [packedInfinity, unpackMantissa_packComponents] at hmantissa
      revert hmantissa
      decide
    · rw [unpackExponent_packComponents] at hexponent
      have hlast := congrArg BitVec.toNat hexponent
      rw [BitVec.toNat_ofNat] at hlast
      have hfield : (-1#11).toNat = 2047 := rfl
      omega
    · rw [unpackExponent_packComponents] at hexponent
      revert hexponent
      decide

theorem isNaN_roundWithAccuracy (s : Sign) (m : ℕ) (e : ℤ) (a : Accuracy) :
    (roundWithAccuracy .binary64 s m e a).isNaN = false := by
  rw [roundWithAccuracy]
  dsimp only
  split <;> rfl

/-- Whether the double is finite and not zero. -/
def isOrdinary : UnpackedFloat → Bool
  | .finite _ _ _ _ => true
  | _ => false

/-- The double is finite and not zero. -/
def Ordinary (x : Float) : Prop := isOrdinary x.toModel.unpack = true

instance (x : Float) : Decidable (Ordinary x) := inferInstanceAs (Decidable (_ = true))

theorem Ordinary.unpack_eq (h : Ordinary x) :
    ∃ s m e hm, x.toModel.unpack = .finite s m e hm := by
  rw [Ordinary] at h
  cases hx : x.toModel.unpack with
  | finite s m e hm => exact ⟨s, m, e, hm, rfl⟩
  | notANumber | infinity | zero => rw [hx] at h; cases h

/-- Multiplying or dividing by an ordinary double gives no NaN where there was none. -/
theorem isNaN_mul_div (hx : x.isNaN = false) (hy : Ordinary y) :
    (x * y).isNaN = false ∧ (x / y).isNaN = false := by
  have hnumber : x.toModel.unpack.isNaN = false := hx
  obtain ⟨s, m, e, hm, hfinite⟩ := hy.unpack_eq
  show (Float.Model.pack (UnpackedFloat.mul .binary64 x.toModel.unpack y.toModel.unpack)).isNaN =
      false ∧
    (Float.Model.pack (UnpackedFloat.div .binary64 x.toModel.unpack y.toModel.unpack)).isNaN = false
  rw [isNaN_pack, isNaN_pack, hfinite]
  cases hu : x.toModel.unpack with
  | notANumber => rw [hu] at hnumber; cases hnumber
  | infinity | zero => exact ⟨rfl, rfl⟩
  | finite s' m' e' hm' =>
    exact ⟨isNaN_roundWithAccuracy _ _ _ _, isNaN_roundWithAccuracy _ _ _ _⟩

theorem isNaN_neg : (-x).isNaN = x.isNaN := by
  show (Float.Model.pack x.toModel.unpack.neg).isNaN = x.toModel.unpack.isNaN
  rw [isNaN_pack]
  cases x.toModel.unpack <;> rfl

/-! ### Powers of ten -/

theorem ordinary_power_of_table : ∀ k ≤ 22, Ordinary (Float.ofScientific 1 false k) := by
  decide +kernel

theorem log2_mul_lt {a b n : ℕ} (hpos : 0 < n) (hn : n < 2 ^ b) :
    (2 ^ a * n).log2 < a + b := by
  rw [Nat.log2_lt (Nat.pos_iff_ne_zero.1 (Nat.mul_pos (Nat.two_pow_pos a) hpos)), Nat.pow_add]
  exact Nat.mul_lt_mul_of_pos_left hn (Nat.two_pow_pos a)

/-- The powers that are not in the table of the exact ones, without the greatest. -/
theorem ordinary_power_of_rounding (hlower : 22 < k) (hupper : k ≤ 307) :
    Ordinary (Float.ofScientific 1 false k) := by
  have hpos : 0 < 10 ^ k := Nat.pow_pos (by decide)
  have hpower : 10 ^ k < 2 ^ 1020 :=
    Nat.lt_of_le_of_lt (Nat.pow_le_pow_right (by decide) hupper) (by decide +kernel)
  have hlog := log2_mul_lt (a := 53) hpos hpower
  obtain ⟨q, j, hq, hround, hfull, hfits, -, hj⟩ := Expression.roundWithAccuracy_eq
    (s := .positive) (e := -53) (m := 2 ^ 53 * 10 ^ k) (by omega) (by decide)
  rw [Expression.excess] at hj
  have hsmall : ¬ (k : ℤ) > 2 ^ Format.exponentBits .binary64 := by
    show ¬ (k : ℤ) > 2 ^ 11
    omega
  have hscientific : (Float.ofScientific 1 false k).toModel.unpack =
      UnpackedFloat.unpack .binary64 (UnpackedFloat.pack .binary64
        (roundWithAccuracy .binary64 .positive (2 ^ 53 * 10 ^ k) (-53) .exact)) := by
    rw [Float.ofScientific, dif_neg (by omega)]
    show UnpackedFloat.unpack .binary64 (UnpackedFloat.pack .binary64
      (UnpackedFloat.ofScientific .binary64 1 k)) = _
    rw [UnpackedFloat.ofScientific, dif_neg (by decide), if_neg hsmall, if_neg (by omega),
      if_pos (by omega)]
    rfl
  rw [Ordinary, hscientific, hround,
    Expression.unpack_pack_normal _ hq hfull hfits (by omega) (by omega)]
  rfl

theorem ordinary_power (hk : k ≤ 308) : Ordinary (Float.ofScientific 1 false k) := by
  by_cases hlower : 22 < k
  · by_cases hupper : k ≤ 307
    · exact ordinary_power_of_rounding hlower hupper
    · obtain rfl : k = 308 := by omega
      decide +kernel
  · exact ordinary_power_of_table k (by omega)

/-! ### Numbers in texts -/

theorem isNaN_ofNat_unpacked (n : ℕ) : (UnpackedFloat.ofNat .binary64 n).isNaN = false := by
  rw [UnpackedFloat.ofNat, UnpackedFloat.ofInt, UnpackedFloat.normalize]
  split
  · exact isNaN_roundWithAccuracy _ _ _ _
  · rfl
  · exact isNaN_roundWithAccuracy _ _ _ _

theorem isNaN_ofScientific_unpacked (m : ℕ) (e : ℤ) :
    (UnpackedFloat.ofScientific .binary64 m e).isNaN = false := by
  rw [UnpackedFloat.ofScientific]
  split
  · rfl
  split
  · rfl
  split
  · rfl
  split
  · rw [UnpackedFloat.mul]
    exact isNaN_roundWithAccuracy _ _ _ _
  · rw [UnpackedFloat.div]
    exact isNaN_roundWithAccuracy _ _ _ _

theorem isNaN_ofNat (n : ℕ) : (Float.ofNat n).isNaN = false := by
  show (Float.ofScientific n false 0).isNaN = false
  rw [Float.ofScientific]
  split
  · have hone : Ordinary Float.exactlyRepresentablePowersOfTen[0] := by decide +kernel
    exact (isNaN_mul_div ((isNaN_pack _).trans (isNaN_ofNat_unpacked _)) hone).1
  · exact (isNaN_pack _).trans (isNaN_ofScientific_unpacked n 0)

theorem isNaN_ofInt (n : ℤ) : (Float.ofInt n).isNaN = false := by
  cases n with
  | ofNat n => exact isNaN_ofNat n
  | negSucc n => exact isNaN_neg.trans (isNaN_ofNat (n + 1))

theorem isNaN_applyExponent {fuel : ℕ} {f : Float} {e : ℤ} (hf : f.isNaN = false)
    (h : Decimal.applyExponent fuel f e = some x) : x.isNaN = false := by
  induction fuel generalizing f e with
  | zero =>
    obtain rfl := Option.some.inj h
    exact hf
  | succ fuel ih =>
    rw [Decimal.applyExponent] at h
    split_ifs at h with hstep hpositive hzero
    · obtain ⟨-, h⟩ : _ ∧ _ = x := by simpa using h
      exact h ▸ (isNaN_mul_div hf (ordinary_power hstep)).1
    · obtain rfl := Option.some.inj h
      exact (isNaN_mul_div hf (ordinary_power hstep)).2
    · obtain rfl := Option.some.inj h
      exact hf
    · exact ih (isNaN_mul_div hf (ordinary_power (Nat.le_refl _))).2 h

theorem isNaN_scaled {word : ℕ} {e : ℤ} (h : Decimal.scaled word e = some x) :
    x.isNaN = false :=
  isNaN_applyExponent (isNaN_ofNat word) h

namespace Snapshot

/-- The number that is read, if there is one, is not a NaN. -/
def ReadsNumber (answer : Option (Number × List Char)) : Prop :=
  ∀ n rest, answer = some (n, rest) → (doubleOf n).isNaN = false

namespace ReadsNumber

theorem none : ReadsNumber none := nofun

theorem some {n : Number} (h : (doubleOf n).isNaN = false) (rest : List Char) :
    ReadsNumber (some (n, rest)) := by
  rintro _ _ ⟨⟩
  exact h

theorem ite {c : Prop} [Decidable c] {a b : Option (Number × List Char)}
    (ha : ReadsNumber a) (hb : ReadsNumber b) : ReadsNumber (if c then a else b) := by
  split_ifs
  · exact ha
  · exact hb

theorem signed (negative : Bool) (h : x.isNaN = false) (rest : List Char) :
    ReadsNumber (.some (.float (if negative then -x else x), rest)) := by
  refine some (n := .float (if negative then -x else x)) ?_ rest
  show (if negative then -x else x).isNaN = false
  split_ifs
  · exact isNaN_neg.trans h
  · exact h

theorem scaled (negative : Bool) (word : ℕ) (e : ℤ) (rest : List Char) :
    ReadsNumber ((Decimal.scaled word e).map fun x =>
      (.float (if negative then -x else x), rest)) := by
  cases hx : Decimal.scaled word e with
  | none => exact none
  | some x => exact signed negative (isNaN_scaled hx) rest

theorem finishFloat? (negative : Bool) (word : ℕ) (exponent : ℤ) (cs : List Char) :
    ReadsNumber (Json.finishFloat? negative word exponent cs) := by
  have hzero : (0 : Float).isNaN = false := by decide +kernel
  rw [Json.finishFloat?.eq_def]
  cases cs with
  | nil => exact scaled negative word exponent []
  | cons c rest =>
    refine ite ?_ (scaled negative word exponent (c :: rest))
    exact ite none (ite (ite none (signed negative hzero _)) (scaled negative word _ _))

theorem whole (negative : Bool) (word : ℕ) (rest : List Char) :
    ReadsNumber (Json.unsigned?.whole negative word rest) := by
  rw [Json.unsigned?.whole]
  have hneg : (-(Float.ofNat word)).isNaN = false := isNaN_neg.trans (isNaN_ofNat word)
  refine ite (ite ?_ ?_) ?_
  · exact some (n := .float (-(Float.ofNat word))) hneg rest
  · exact some (n := .int (-(word : ℤ))) (isNaN_ofInt _) rest
  · exact some (n := .int word) (isNaN_ofInt _) rest

theorem unsigned? (negative : Bool) (cs : List Char) :
    ReadsNumber (Json.unsigned? negative cs) := by
  rw [Json.unsigned?]
  refine ite none ?_
  dsimp only
  split
  · exact ite none (ite (finishFloat? negative _ _ _) (finishFloat? negative _ _ _))
  · exact ite (finishFloat? negative _ _ _) (whole negative _ _)
  · exact ite (whole negative _ _) (finishFloat? negative _ _ _)

theorem number? (cs : List Char) : ReadsNumber (Json.number? cs) := by
  rw [Json.number?.eq_def]
  split
  · exact unsigned? true _
  · exact unsigned? false _

end ReadsNumber

/-! ### Times of snapshots -/

variable {s : Snapshot} {time : Float} {d d' : Draft} {cs rest : List Char}

theorem isNaN_readTime (h : readTime cs = .ok (time, rest)) : time.isNaN = false := by
  rw [readTime] at h
  split at h
  · next n rest' hn =>
    cases h
    exact ReadsNumber.number? _ _ _ hn
  · cases h

/-- The time in a draft, if there is one, is a number. -/
def Draft.Timed (d : Draft) : Prop := ∀ time, d.time = some time → time.isNaN = false

theorem timed_readEntry {key : String} (hd : d.Timed)
    (h : readEntry d key cs = .ok (d', rest)) : d'.Timed := by
  rw [readEntry.eq_def] at h
  split at h
  · split_ifs at h
    obtain ⟨⟨time, rest'⟩, htime, heq⟩ := except_map_ok h
    cases heq
    rintro _ ⟨⟩
    exact isNaN_readTime htime
  · split_ifs at h
    obtain ⟨⟨fields, rest'⟩, -, heq⟩ := except_map_ok h
    cases heq
    exact hd
  · split at h
    · cases h
      exact hd
    · cases h

theorem timed_readEntries {fuel : ℕ} (hd : d.Timed)
    (h : readEntries fuel d cs = .ok (d', rest)) : d'.Timed := by
  induction fuel generalizing d cs with
  | zero => cases h
  | succ fuel ih =>
    rw [readEntries] at h
    split at h
    · obtain ⟨⟨d₁, rest₁⟩, hentry, h⟩ := except_bind_ok h
      have hd₁ := timed_readEntry hd hentry
      dsimp only at h
      split at h
      · cases h
        exact hd₁
      · exact ih hd₁ h
      · cases h
    · cases h

theorem isNaN_ofDraft (hd : d.Timed) (h : ofDraft d = .ok s) : s.time.isNaN = false := by
  rw [ofDraft] at h
  split at h
  · next time htime =>
    cases h
    exact hd time htime
  · cases h

theorem isNaN_readFirst (h : readFirst cs = .ok (s, rest)) : s.time.isNaN = false := by
  have hempty : Draft.Timed {} := nofun
  rw [readFirst] at h
  split at h
  · split at h
    · obtain ⟨s', hs', heq⟩ := except_map_ok h
      cases heq
      exact isNaN_ofDraft hempty hs'
    · obtain ⟨⟨d, rest'⟩, hentries, h⟩ := except_bind_ok h
      obtain ⟨s', hs', heq⟩ := except_bind_ok h
      cases heq
      exact isNaN_ofDraft (timed_readEntries hempty hentries) hs'
  · obtain ⟨⟨time, rest'⟩, htime, h⟩ := except_bind_ok h
    dsimp only at h
    split at h
    · cases h
      exact isNaN_readTime htime
    · obtain ⟨⟨fields, rest''⟩, -, h⟩ := except_bind_ok h
      dsimp only at h
      split at h
      · cases h
        exact isNaN_readTime htime
      · cases h
    · cases h
  · cases h

/-- The time of a snapshot that is read is a number. -/
theorem isNaN_time {bytes : ByteArray} (h : ofBytes bytes = .ok s) : s.time.isNaN = false := by
  rw [ofBytes] at h
  split at h
  · obtain ⟨⟨s', rest⟩, hfirst, h⟩ := except_bind_ok h
    dsimp only at h
    split_ifs at h
    cases h
    exact isNaN_readFirst hfirst
  · cases h

end Snapshot

end ParamSweep
