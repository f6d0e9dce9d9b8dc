import Mathlib
import ParamSweep.Decimal.Notation
import ParamSweep.Decimal.Read
import ParamSweep.Proofs.ShortestDigits

/-!
What the text of a double tells of it.

However a double is laid out, its text has the form `digits[.digits][e[sign]digits]`, and it stands
for the number of the shortest digits (`numeral_layout`). A text of that form stands for one number
only (`Numeral.unique`), so that doubles with one text are the same: `write_injective`. The text
distinguishes the two zeros by their sign, and what is not finite by its letters.
-/

namespace ParamSweep.Decimal

open Float.Model

/-! ### Digits -/

/-- Nothing but digits. -/
def AllDigits (cs : List Char) : Prop := ∀ c ∈ cs, c.isDigit = true

theorem AllDigits.append {a b : List Char} (ha : AllDigits a) (hb : AllDigits b) :
    AllDigits (a ++ b) :=
  List.forall_mem_append.2 ⟨ha, hb⟩

theorem AllDigits.not_mem {cs : List Char} (h : AllDigits cs) {c : Char}
    (hc : c.isDigit = false) : c ∉ cs :=
  fun hmem => absurd (h c hmem) (hc ▸ Bool.false_ne_true)

theorem allDigits_naturalDigits (n : ℕ) : AllDigits (naturalDigits n) :=
  fun _ hc => Nat.isDigit_of_mem_toDigits (by decide) (by decide) hc

theorem naturalDigits_ne_nil (n : ℕ) : naturalDigits n ≠ [] := Nat.toDigits_ne_nil

theorem allDigits_zeros (n : ℕ) : AllDigits (zeros n) := by
  intro c hc
  rw [List.eq_of_mem_replicate hc]
  decide

theorem natural_append (a b : List Char) :
    natural (a ++ b) = natural a * 10 ^ b.length + natural b := by
  have h := (Nat.ofDigitChars_append (b := 10) (l := a) (m := b) 0).trans
    Nat.ofDigitChars_eq_ofDigitChars_zero
  rwa [Nat.mul_comm] at h

theorem natural_zeros (n : ℕ) : natural (zeros n) = 0 := by
  induction n with
  | zero => rfl
  | succ n ih => exact ih

theorem natural_zeros_append (n : ℕ) (cs : List Char) :
    natural (zeros n ++ cs) = natural cs := by
  rw [natural_append, natural_zeros, Nat.zero_mul, Nat.zero_add]

theorem natural_naturalDigits (n : ℕ) : natural (naturalDigits n) = n :=
  Nat.ofDigitChars_toDigits (by decide) (by decide)

/-! ### The form of a decimal -/

/-- A mantissa, and the number that it stands for. -/
inductive Mantissa : List Char → ℚ → Prop
  | whole {ds : List Char} (ne : ds ≠ []) (digits : AllDigits ds) : Mantissa ds (natural ds)
  | point {ds places : List Char} (ne : ds ≠ []) (digits : AllDigits ds)
    (placeDigits : AllDigits places) :
      Mantissa (ds ++ '.' :: places) (natural (ds ++ places) * 10 ^ (-(places.length : ℤ)))

/-- An exponent with or without a sign, and its value. -/
inductive Exponent : List Char → ℤ → Prop
  | bare {ds : List Char} (ne : ds ≠ []) (digits : AllDigits ds) : Exponent ds (natural ds)
  | up {ds : List Char} (ne : ds ≠ []) (digits : AllDigits ds) : Exponent ('+' :: ds) (natural ds)
  | down {ds : List Char} (ne : ds ≠ []) (digits : AllDigits ds) :
      Exponent ('-' :: ds) (-(natural ds : ℤ))

/-- The text of a decimal without a sign, and the number that it stands for. -/
inductive Numeral : List Char → ℚ → Prop
  | plain {cs : List Char} {v : ℚ} (mantissa : Mantissa cs v) : Numeral cs v
  | scientific {cs ex : List Char} {v : ℚ} {e : ℤ} (mantissa : Mantissa cs v)
    (exponent : Exponent ex e) : Numeral (cs ++ 'e' :: ex) (v * 10 ^ e)

section Form

variable {cs ex : List Char} {v v' : ℚ} {e e' : ℤ}

/-- In a mantissa there are digits and a point. -/
theorem Mantissa.not_mem (h : Mantissa cs v) {c : Char} (hc : c.isDigit = false) (hpoint : c ≠ '.') :
    c ∉ cs := by
  cases h with
  | whole _ digits => exact digits.not_mem hc
  | point _ digits placeDigits =>
    have hdigits := digits.not_mem hc
    have hplaces := placeDigits.not_mem hc
    simp [hdigits, hplaces, hpoint]

/-- In an exponent there are digits and a sign. -/
theorem Exponent.not_mem (h : Exponent ex e) {c : Char} (hc : c.isDigit = false) (hplus : c ≠ '+')
    (hminus : c ≠ '-') : c ∉ ex := by
  cases h with
  | bare _ digits => exact digits.not_mem hc
  | up _ digits => simp [hplus, digits.not_mem hc]
  | down _ digits => simp [hminus, digits.not_mem hc]

theorem Mantissa.exponent_not_mem (h : Mantissa cs v) : 'e' ∉ cs :=
  h.not_mem (by decide) (by decide)

theorem Exponent.exponent_not_mem (h : Exponent ex e) : 'e' ∉ ex :=
  h.not_mem (by decide) (by decide) (by decide)

theorem Mantissa.unique (h : Mantissa cs v) (h' : Mantissa cs v') : v = v' := by
  generalize htext : cs = cs' at h'
  cases h with
  | whole _ digits =>
    cases h' with
    | whole _ _ => rw [htext]
    | point _ _ _ => exact absurd (htext ▸ by simp) (digits.not_mem (c := '.') (by decide))
  | point _ digits placeDigits =>
    cases h' with
    | whole _ digits' => exact absurd (htext ▸ by simp) (digits'.not_mem (c := '.') (by decide))
    | point _ digits' placeDigits' =>
      -- there is one point in the text, and it divides both readings alike
      obtain ⟨rfl, -, rfl⟩ := (List.append_cons_inj_of_notMem
        (digits.not_mem (by decide)) (placeDigits.not_mem (by decide))).1 htext
      rfl

theorem AllDigits.ne_cons {cs : List Char} (h : AllDigits cs) {c : Char}
    (hc : c.isDigit = false) (rest : List Char) : cs ≠ c :: rest := by
  rintro rfl
  exact h.not_mem hc List.mem_cons_self

theorem Exponent.unique (h : Exponent ex e) (h' : Exponent ex e') : e = e' := by
  generalize htext : ex = ex' at h'
  cases h with
  | bare _ digits =>
    cases h' with
    | bare _ _ => rw [htext]
    | up _ _ => exact absurd htext (digits.ne_cons (by decide) _)
    | down _ _ => exact absurd htext (digits.ne_cons (by decide) _)
  | up _ _ =>
    cases h' with
    | bare _ digits => exact absurd htext.symm (digits.ne_cons (by decide) _)
    | up _ _ => rw [(List.cons.inj htext).2]
    | down _ _ => cases htext
  | down _ _ =>
    cases h' with
    | bare _ digits => exact absurd htext.symm (digits.ne_cons (by decide) _)
    | up _ _ => cases htext
    | down _ _ => rw [(List.cons.inj htext).2]

/-- A text stands for one number only. -/
theorem Numeral.unique (h : Numeral cs v) (h' : Numeral cs v') : v = v' := by
  generalize htext : cs = cs' at h'
  cases h with
  | plain mantissa =>
    cases h' with
    | plain mantissa' => exact mantissa.unique (htext ▸ mantissa')
    | scientific _ _ => exact absurd (htext ▸ by simp) mantissa.exponent_not_mem
  | scientific mantissa exponent =>
    cases h' with
    | plain mantissa' => exact absurd (htext ▸ by simp) mantissa'.exponent_not_mem
    | scientific mantissa' exponent' =>
      obtain ⟨rfl, -, rfl⟩ := (List.append_cons_inj_of_notMem
        mantissa.exponent_not_mem exponent.exponent_not_mem).1 htext
      rw [mantissa.unique mantissa', exponent.unique exponent']

end Form

/-! ### The layouts of a double -/

theorem natural_append_zeros (cs : List Char) (n : ℕ) :
    natural (cs ++ zeros n) = natural cs * 10 ^ n := by
  rw [natural_append, natural_zeros, Nat.add_zero, zeros, List.length_replicate]

/-- A mantissa whose digits are those of a decimal, with as many places as its exponent says. -/
theorem numeral_point {d : Digits} {ds places : List Char} (ne : ds ≠ []) (digits : AllDigits ds)
    (placeDigits : AllDigits places) (hdigits : natural (ds ++ places) = d.digits)
    (hplaces : -(places.length : ℤ) = d.exponent) : Numeral (ds ++ '.' :: places) d.value := by
  have h := Numeral.plain (Mantissa.point ne digits placeDigits)
  rwa [hdigits, hplaces] at h

theorem numeral_positional (d : Digits) (pointZero : Bool) :
    Numeral (positional pointZero d) d.value := by
  have hne := naturalDigits_ne_nil d.digits
  have hall := allDigits_naturalDigits d.digits
  rw [positional]
  split
  next hexponent =>
    -- the digits are filled up with zeros
    have hwhole : AllDigits (naturalDigits d.digits ++ zeros d.exponent.toNat) :=
      hall.append (allDigits_zeros _)
    have hvalue : ((natural (naturalDigits d.digits ++ zeros d.exponent.toNat) : ℕ) : ℚ) =
        d.value := by
      rw [natural_append_zeros, natural_naturalDigits, Digits.value, Nat.cast_mul, Nat.cast_pow,
        ← zpow_natCast, Int.toNat_of_nonneg hexponent]
      rfl
    cases pointZero with
    | false =>
      rw [if_neg Bool.false_ne_true, List.append_nil, ← hvalue]
      exact .plain (.whole (List.append_ne_nil_of_left_ne_nil hne _) hwhole)
    | true =>
      rw [if_pos rfl]
      have h := Numeral.plain (Mantissa.point (List.append_ne_nil_of_left_ne_nil hne _) hwhole
        (allDigits_zeros 1))
      rw [natural_append_zeros, Nat.cast_mul, hvalue] at h
      simpa [zeros] using h
  next hexponent =>
    dsimp only
    have hplaces : (((-d.exponent).toNat : ℕ) : ℤ) = -d.exponent := by omega
    split
    next hshort =>
      obtain ⟨places, hpad⟩ : ∃ places, places = zeros ((-d.exponent).toNat -
        (naturalDigits d.digits).length) ++ naturalDigits d.digits := ⟨_, rfl⟩
      have hzero : zeros 1 ≠ [] := List.cons_ne_nil _ _
      have h : Numeral (zeros 1 ++ '.' :: places) d.value := by
        refine numeral_point hzero (allDigits_zeros 1)
          (hpad ▸ (allDigits_zeros _).append hall) ?_ ?_
        · rw [hpad, natural_zeros_append, natural_zeros_append, natural_naturalDigits]
        · rw [hpad, List.length_append, zeros, List.length_replicate]
          omega
      rwa [hpad] at h
    next hlong =>
      refine numeral_point ?_ (fun c hc => hall c (List.mem_of_mem_take hc))
        (fun c hc => hall c (List.mem_of_mem_drop hc)) ?_ ?_
      · rw [Ne, List.take_eq_nil_iff]
        rintro (hlength | hnil)
        · omega
        · exact hne hnil
      · rw [List.take_append_drop, natural_naturalDigits]
      · rw [List.length_drop]
        omega

theorem exponent_exponentText (plus : Bool) (width : ℕ) (e : ℤ) :
    Exponent (exponentText plus width e) e := by
  have hdigits := (allDigits_zeros (width - (naturalDigits e.natAbs).length)).append
    (allDigits_naturalDigits e.natAbs)
  have hne : zeros (width - (naturalDigits e.natAbs).length) ++ naturalDigits e.natAbs ≠ [] :=
    List.append_ne_nil_of_right_ne_nil _ (naturalDigits_ne_nil _)
  have hvalue : natural (zeros (width - (naturalDigits e.natAbs).length) ++
      naturalDigits e.natAbs) = e.natAbs := by
    rw [natural_zeros_append, natural_naturalDigits]
  rw [exponentText]
  split
  next hneg =>
    have h := Exponent.down hne hdigits
    rwa [hvalue, show -((e.natAbs : ℕ) : ℤ) = e by omega] at h
  next hpos =>
    have habs : ((e.natAbs : ℕ) : ℤ) = e := by omega
    split
    · have h := Exponent.up hne hdigits
      rwa [hvalue, habs] at h
    · have h := Exponent.bare hne hdigits
      rwa [hvalue, habs] at h

/-- A mantissa with one digit before the point. -/
theorem mantissa_lead : ∀ {ds : List Char}, ds ≠ [] → AllDigits ds →
    Mantissa (match ds with | [] => [] | [c] => [c] | c :: rest => c :: '.' :: rest)
      (natural ds * 10 ^ (-((ds.length - 1 : ℕ) : ℤ)))
  | [], ne, _ => absurd rfl ne
  | [_], ne, h => by simpa using Mantissa.whole ne h
  | c :: c' :: rest, _, h => by
    obtain ⟨hc, hrest⟩ := List.forall_mem_cons.1 h
    exact .point (List.cons_ne_nil c []) (List.forall_mem_singleton.2 hc) hrest

theorem numeral_scientific (d : Digits) (plus : Bool) (width : ℕ) :
    Numeral (scientific plus width d) d.value := by
  have h := Numeral.scientific
    (mantissa_lead (naturalDigits_ne_nil d.digits) (allDigits_naturalDigits d.digits))
    (exponent_exponentText plus width
      (d.exponent + ((naturalDigits d.digits).length - 1 : ℕ)))
  rwa [natural_naturalDigits, mul_assoc, ← zpow_add₀ (by norm_num), add_comm (-_) (_ : ℤ),
    add_neg_cancel_right] at h

/-- A layout stands for the number of its digits. -/
theorem numeral_layout (style : Notation) (d : Digits) : Numeral (style.layout d) d.value := by
  rw [Notation.layout]
  split
  · exact numeral_positional d _
  · exact numeral_scientific d _ _

/-- The text of a double is not that of an integer. -/
theorem point_or_exponent_mem_layout {style : Notation} (hpoint : style.pointZero = true)
    (d : Digits) : '.' ∈ style.layout d ∨ 'e' ∈ style.layout d := by
  rw [Notation.layout, hpoint]
  split
  · left
    rw [positional]
    split
    · simp
    · dsimp only
      split <;> simp
  · right
    rw [scientific]
    exact List.mem_append_right _ List.mem_cons_self

/-! ### Doubles by their bits -/

variable {x y : Float}

theorem pack_unpack_toBits (x : Float) :
    UnpackedFloat.pack .binary64 x.toModel.unpack = x.toBits.toBitVec := by
  rw [Float.Model.unpack, UnpackedFloat.pack_unpack]
  split
  next hnan =>
    have h := of_decide_eq_true hnan
    exact (x.toModel.valid.eq_packedNaN h.1 h.2).symm
  next => rfl

theorem eq_of_unpack (h : x.toModel.unpack = y.toModel.unpack) : x = y := by
  have hbits : x.toBits.toBitVec = y.toBits.toBitVec := by
    rw [← pack_unpack_toBits, ← pack_unpack_toBits, h]
  exact Float.toBits_inj.1 (UInt64.toBitVec_inj.1 hbits)

theorem unpack_of_isNaN (h : x.isNaN = true) : x.toModel.unpack = .notANumber := by
  have h' : x.toModel.unpack.isNaN = true := h
  cases hu : x.toModel.unpack with
  | notANumber => rfl
  | infinity | zero | finite => rw [hu] at h'; cases h'

theorem unpack_of_isInf (h : x.isInf = true) :
    ∃ s, x.toModel.unpack = .infinity s ∧ (signBit x = true ↔ s = .negative) := by
  have h' : x.toModel.unpack.isInf = true := h
  cases hu : x.toModel.unpack with
  | infinity s =>
    refine ⟨s, rfl, ?_⟩
    have hbits : x.toBits = UInt64.ofBitVec (UnpackedFloat.packedInfinity .binary64 s) := by
      rw [← UInt64.toBitVec_inj, ← pack_unpack_toBits, hu]
      rfl
    rw [signBit, hbits]
    cases s with
    | negative => exact iff_of_true (by decide) rfl
    | positive => exact iff_of_false (by decide) (by simp)
  | notANumber | zero | finite => rw [hu] at h'; cases h'

theorem eq_of_isInf (hx : x.isInf = true) (hy : y.isInf = true) (h : signBit x = signBit y) :
    x = y := by
  obtain ⟨s, hs, hsign⟩ := unpack_of_isInf hx
  obtain ⟨s', hs', hsign'⟩ := unpack_of_isInf hy
  rw [h, hsign'] at hsign
  refine eq_of_unpack ?_
  rw [hs, hs']
  cases s <;> cases s' <;> simp_all

/-- A double is its sign and its magnitude. -/
theorem eq_of_index (hsign : signBit x = signBit y)
    (hindex : x.toBits.toNat % 2 ^ 63 = y.toBits.toNat % 2 ^ 63) : x = y := by
  have hbit : ∀ z : Float, signBit z = true ↔ z.toBits.toNat / 2 ^ 63 = 1 := by
    intro z
    rw [signBit, beq_iff_eq, ← UInt64.toNat_inj, UInt64.toNat_shiftRight,
      Nat.shiftRight_eq_div_pow]
    rfl
  have hx := hbit x
  have hy := hbit y
  rw [← hsign] at hy
  have hxlt := x.toBits.toNat_lt
  have hylt := y.toBits.toNat_lt
  refine Float.toBits_inj.1 (UInt64.toNat_inj.1 ?_)
  cases hs : signBit x <;> simp [hs] at hx hy <;> omega

/-! ### Reading the text of a double -/

/-- The text of a double without its sign. -/
def Notation.unsigned (style : Notation) (x : Float) : List Char :=
  if x.isNaN then style.nan.toList
  else if x.isInf then style.infinity.toList
  else style.layout ((Magnitude.ofBits x.toBits).shortest style.tie)

/-- The sign that a double is written with. -/
def signText (x : Float) : List Char := if x.isNaN || !signBit x then [] else ['-']

theorem signText_append_inj {u w : List Char} (h : signText x ++ u = signText y ++ w)
    (hu : ∀ rest, u ≠ '-' :: rest) (hw : ∀ rest, w ≠ '-' :: rest) :
    signText x = signText y ∧ u = w := by
  have hcases : ∀ z, signText z = [] ∨ signText z = ['-'] := by
    intro z
    rw [signText]
    split
    · exact .inl rfl
    · exact .inr rfl
  rcases hcases x with hx | hx
  · rcases hcases y with hy | hy
    · exact ⟨hx.trans hy.symm, by rwa [hx, hy] at h⟩
    · rw [hx, hy] at h
      exact absurd h (hu w)
  · rcases hcases y with hy | hy
    · rw [hx, hy] at h
      exact absurd h.symm (hw u)
    · rw [hx, hy] at h
      exact ⟨hx.trans hy.symm, (List.cons.inj h).2⟩

theorem signBit_of_signText (h : signText x = signText y) (hx : x.isNaN = false)
    (hy : y.isNaN = false) : signBit x = signBit y := by
  rw [signText, signText, hx, hy] at h
  cases hsx : signBit x <;> cases hsy : signBit y <;> simp_all

theorem Numeral.head {cs : List Char} {v : ℚ} (h : Numeral cs v) :
    ∃ c rest, cs = c :: rest ∧ c.isDigit = true := by
  have hmantissa : ∀ {cs v}, Mantissa cs v → ∃ c rest, cs = c :: rest ∧ c.isDigit = true := by
    rintro _ _ (⟨ne, digits⟩ | ⟨ne, digits, -⟩)
    · obtain ⟨c, rest, rfl⟩ := List.exists_cons_of_ne_nil ne
      exact ⟨c, rest, rfl, digits c List.mem_cons_self⟩
    · obtain ⟨c, rest, rfl⟩ := List.exists_cons_of_ne_nil ne
      exact ⟨c, _, rfl, digits c List.mem_cons_self⟩
  cases h with
  | plain mantissa => exact hmantissa mantissa
  | scientific mantissa _ =>
    obtain ⟨c, rest, rfl, hc⟩ := hmantissa mantissa
    exact ⟨c, _, rfl, hc⟩

theorem Numeral.ne_cons {cs : List Char} {v : ℚ} (h : Numeral cs v) {c : Char}
    (hc : c.isDigit = false) (rest : List Char) : cs ≠ c :: rest := by
  rintro rfl
  obtain ⟨d, _, heq, hd⟩ := h.head
  rw [(List.cons.inj heq).1, hd] at hc
  cases hc

section Write

variable {style : Notation}

theorem toList_write (hinf : style.infinity ≠ "null") (x : Float) :
    (style.write x).toList = signText x ++ style.unsigned x := by
  rw [Notation.write, Notation.unsigned, signText]
  cases x.isNaN
  · cases x.isInf <;> cases signBit x <;> simp [hinf]
  · simp

/-- The first character tells a double that is finite from those that are not. -/
theorem unsigned_cases (style : Notation) (x : Float) :
    (x.isNaN = true ∧ style.unsigned x = style.nan.toList) ∨
    (x.isInf = true ∧ x.isNaN = false ∧ style.unsigned x = style.infinity.toList) ∨
    (x.isNaN = false ∧ Numeral (style.unsigned x)
      ((Magnitude.ofIndex (x.toBits.toNat % 2 ^ 63)).shortest style.tie).value) := by
  rw [Notation.unsigned]
  cases hnan : x.isNaN with
  | true => exact .inl ⟨rfl, rfl⟩
  | false =>
    cases hinf : x.isInf with
    | true => exact .inr (.inl ⟨rfl, rfl, rfl⟩)
    | false =>
      refine .inr (.inr ⟨rfl, ?_⟩)
      rw [← Magnitude.ofBits_eq_ofIndex]
      exact numeral_layout style _

theorem unsigned_ne_minus (hnan : style.nan = "NaN") (hinf : style.infinity = "inf") (x : Float)
    (rest : List Char) : style.unsigned x ≠ '-' :: rest := by
  rcases unsigned_cases style x with ⟨-, h⟩ | ⟨-, -, h⟩ | ⟨-, h⟩
  · simp [h, hnan]
  · simp [h, hinf]
  · exact h.ne_cons (by decide) rest

/-- Doubles with one text are the same. -/
theorem write_injective (hnan : style.nan = "NaN") (hinf : style.infinity = "inf") :
    Function.Injective style.write := by
  intro x y h
  have htext : signText x ++ style.unsigned x = signText y ++ style.unsigned y := by
    rw [← toList_write (by simp [hinf]), ← toList_write (by simp [hinf]), h]
  obtain ⟨hsign, hbody⟩ := signText_append_inj htext (unsigned_ne_minus hnan hinf x)
    (unsigned_ne_minus hnan hinf y)
  rcases unsigned_cases style x with ⟨hx, ux⟩ | ⟨hx, nx, ux⟩ | ⟨nx, ux⟩
  · -- not a number
    rcases unsigned_cases style y with ⟨hy, uy⟩ | ⟨-, -, uy⟩ | ⟨-, uy⟩
    · exact eq_of_unpack ((unpack_of_isNaN hx).trans (unpack_of_isNaN hy).symm)
    · rw [ux, uy, hnan, hinf] at hbody
      exact absurd hbody (by decide)
    · rw [ux, hnan] at hbody
      exact absurd hbody.symm (uy.ne_cons (by decide) _)
  · -- infinite
    rcases unsigned_cases style y with ⟨-, uy⟩ | ⟨hy, ny, uy⟩ | ⟨-, uy⟩
    · rw [ux, uy, hnan, hinf] at hbody
      exact absurd hbody (by decide)
    · exact eq_of_isInf hx hy (signBit_of_signText hsign nx ny)
    · rw [ux, hinf] at hbody
      exact absurd hbody.symm (uy.ne_cons (by decide) _)
  · -- finite
    rcases unsigned_cases style y with ⟨-, uy⟩ | ⟨-, -, uy⟩ | ⟨ny, uy⟩
    · rw [uy, hnan] at hbody
      exact absurd hbody (ux.ne_cons (by decide) _)
    · rw [uy, hinf] at hbody
      exact absurd hbody (ux.ne_cons (by decide) _)
    · rw [hbody] at ux
      exact eq_of_index (signBit_of_signText hsign nx ny)
        (Magnitude.eq_of_value_shortest (ux.unique uy))

end Write

end ParamSweep.Decimal
