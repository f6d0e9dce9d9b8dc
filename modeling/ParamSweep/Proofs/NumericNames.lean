import Mathlib
import ParamSweep.Naming.Token
import ParamSweep.Proofs.NumberTexts

/-!
Names of runs whose parameters are numbers.

A name is the keys and the values of its parameters, one after another with underscores in between,
and is not made to be taken apart again: a key may be any text, and the sign of a positive exponent
becomes an underscore too. But an underscore inside the token of a number stands behind an `e`, and
no such token ends in one (`Delimited`). So where the keys are fixed, the token of a number ends at
one place only, and different numbers give different names: `fallbackName_injective`.
-/

namespace ParamSweep.Naming

open Decimal

/-! ### The text of a number -/

/-- The characters that texts of numbers are made of. -/
def numberChars : List Char :=
  ['0', '1', '2', '3', '4', '5', '6', '7', '8', '9', '-', '+', '.', 'e', 'N', 'a', 'i', 'n', 'f']

/-- A text of a number: a plus stands behind an `e`, and no `e` comes last. -/
structure Spelled (cs : List Char) : Prop where
  ne_nil : cs ≠ []
  chars : ∀ c ∈ cs, c ∈ numberChars
  plus : ∀ a b, cs = a ++ '+' :: b → a.getLast? = some 'e'
  last : cs.getLast? ≠ some 'e'

theorem mem_numberChars_of_isDigit {c : Char} (h : c.isDigit = true) : c ∈ numberChars := by
  obtain ⟨hlow, hhigh⟩ := Char.isDigit_iff_toNat.1 h
  have hc : c = Char.ofNat c.toNat := (Char.ofNat_toNat c).symm
  have hrange : ∀ n ∈ Finset.Icc 48 57, Char.ofNat n ∈ numberChars := by decide
  rw [hc]
  exact hrange c.toNat (Finset.mem_Icc.2 ⟨hlow, hhigh⟩)

namespace Spelled

variable {cs ex : List Char} {v : ℚ} {e : ℤ}

/-- Where there is neither a plus nor an exponent, only the characters matter. -/
theorem of_not_mem (ne : cs ≠ []) (chars : ∀ c ∈ cs, c ∈ numberChars) (hplus : '+' ∉ cs)
    (hexponent : 'e' ∉ cs) : Spelled cs where
  ne_nil := ne
  chars := chars
  plus a b h := absurd (h ▸ by simp) hplus
  last h := hexponent (List.mem_of_getLast? h)

theorem of_allDigits (ne : cs ≠ []) (h : AllDigits cs) : Spelled cs :=
  of_not_mem ne (fun c hc => mem_numberChars_of_isDigit (h c hc)) (h.not_mem (by decide))
    (h.not_mem (by decide))

theorem of_mantissa (h : Mantissa cs v) : Spelled cs := by
  have hplus := h.not_mem (c := '+') (by decide) (by decide)
  have hexponent := h.exponent_not_mem
  cases h with
  | whole ne digits => exact of_allDigits ne digits
  | point ne digits placeDigits =>
    refine of_not_mem (by simp) ?_ hplus hexponent
    refine List.forall_mem_append.2 ⟨(of_allDigits ne digits).chars, ?_⟩
    exact List.forall_mem_cons.2
      ⟨by decide, fun c hc => mem_numberChars_of_isDigit (placeDigits c hc)⟩

theorem chars_exponent (h : Exponent ex e) : ∀ c ∈ ex, c ∈ numberChars := by
  cases h with
  | bare ne digits => exact (of_allDigits ne digits).chars
  | up ne digits => exact List.forall_mem_cons.2 ⟨by decide, (of_allDigits ne digits).chars⟩
  | down ne digits => exact List.forall_mem_cons.2 ⟨by decide, (of_allDigits ne digits).chars⟩

theorem exponent_ne_nil (h : Exponent ex e) : ex ≠ [] := by
  cases h with
  | bare ne _ => exact ne
  | up _ _ => exact List.cons_ne_nil _ _
  | down _ _ => exact List.cons_ne_nil _ _

theorem of_scientific (h : Mantissa cs v) (h' : Exponent ex e) : Spelled (cs ++ 'e' :: ex) where
  ne_nil := by simp
  chars := List.forall_mem_append.2
    ⟨(of_mantissa h).chars, List.forall_mem_cons.2 ⟨by decide, chars_exponent h'⟩⟩
  plus a b hab := by
    have hplus := h.not_mem (c := '+') (by decide) (by decide)
    cases h' with
    | bare _ digits =>
      have hdigits := digits.not_mem (c := '+') (by decide)
      exact absurd (hab ▸ by simp) (show '+' ∉ cs ++ 'e' :: ex by simp [hplus, hdigits])
    | up _ digits =>
      -- the one plus of the text is the sign of the exponent
      rw [List.append_cons] at hab
      obtain ⟨rfl, -, -⟩ := (List.append_cons_inj_of_notMem (by simp [hplus])
        (digits.not_mem (by decide))).1 hab
      simp
    | @down ds _ digits =>
      have hdigits := digits.not_mem (c := '+') (by decide)
      exact absurd (hab ▸ by simp) (show '+' ∉ cs ++ 'e' :: '-' :: ds by simp [hplus, hdigits])
  last hlast := by
    rw [List.getLast?_append_cons, List.getLast?_cons_of_ne_nil (exponent_ne_nil h')] at hlast
    exact h'.exponent_not_mem (List.mem_of_getLast? hlast)

theorem of_numeral (h : Numeral cs v) : Spelled cs := by
  cases h with
  | plain mantissa => exact of_mantissa mantissa
  | scientific mantissa exponent => exact of_scientific mantissa exponent

theorem minus (h : Spelled cs) : Spelled ('-' :: cs) where
  ne_nil := List.cons_ne_nil _ _
  chars := List.forall_mem_cons.2 ⟨by decide, h.chars⟩
  plus a b hab := by
    cases a with
    | nil => cases hab
    | cons c a =>
      obtain ⟨rfl, htail⟩ := List.cons.inj hab
      have hlast := h.plus a b htail
      have hne : a ≠ [] := by
        rintro rfl
        cases hlast
      rwa [List.getLast?_cons_of_ne_nil hne]
  last hlast := by
    rw [List.getLast?_cons_of_ne_nil h.ne_nil] at hlast
    exact h.last hlast

end Spelled

theorem spelled_write (x : Float) : Spelled (numbers.write x).toList := by
  have hunsigned : Spelled (numbers.unsigned x) := by
    rcases unsigned_cases numbers x with ⟨-, h⟩ | ⟨-, -, h⟩ | ⟨-, h⟩
    · have hword : numbers.nan.toList = ['N', 'a', 'N'] := rfl
      rw [h, hword]
      exact .of_not_mem (by decide) (by simp [numberChars]) (by decide) (by decide)
    · have hword : numbers.infinity.toList = ['i', 'n', 'f'] := rfl
      rw [h, hword]
      exact .of_not_mem (by decide) (by simp [numberChars]) (by decide) (by decide)
    · exact .of_numeral h
  rw [toList_write (by decide), signText]
  split
  · exact hunsigned
  · exact hunsigned.minus

theorem toList_negSucc (m : ℕ) :
    (toString (Int.negSucc m)).toList = '-' :: m.succ.repr.toList := by
  show ("-" ++ m.succ.repr).toList = _
  rw [String.toList_append]
  rfl

theorem spelled_int (n : ℤ) : Spelled (toString n).toList := by
  have hnat : ∀ m : ℕ, Spelled m.repr.toList := fun m =>
    Nat.toList_repr ▸ .of_allDigits (naturalDigits_ne_nil m) (allDigits_naturalDigits m)
  cases n with
  | ofNat m => exact hnat m
  | negSucc m =>
    rw [toList_negSucc]
    exact (hnat m.succ).minus

/-- The text of a double has a point or a letter in it. -/
theorem exists_letter_write (x : Float) :
    ∃ c ∈ (numbers.write x).toList, c.isDigit = false ∧ c ≠ '-' := by
  have hunsigned : ∃ c ∈ numbers.unsigned x, c.isDigit = false ∧ c ≠ '-' := by
    rw [Notation.unsigned]
    split
    · exact ⟨'N', by decide, by decide, by decide⟩
    · split
      · exact ⟨'i', by decide, by decide, by decide⟩
      · rcases point_or_exponent_mem_layout (show numbers.pointZero = true from rfl)
          ((Magnitude.ofBits x.toBits).shortest numbers.tie) with h | h
        · exact ⟨'.', h, by decide, by decide⟩
        · exact ⟨'e', h, by decide, by decide⟩
  obtain ⟨c, hc, hletter⟩ := hunsigned
  rw [toList_write (by decide)]
  exact ⟨c, List.mem_append_right _ hc, hletter⟩

theorem digit_or_minus_of_int {n : ℤ} {c : Char} (h : c ∈ (toString n).toList) :
    c.isDigit = true ∨ c = '-' := by
  cases n with
  | ofNat m =>
    have htext : (toString (Int.ofNat m)).toList = naturalDigits m := Nat.toList_repr
    exact .inl (allDigits_naturalDigits m c (htext ▸ h))
  | negSucc m =>
    rw [toList_negSucc, Nat.toList_repr] at h
    rcases List.mem_cons.1 h with rfl | h
    · exact .inr rfl
    · exact .inl (allDigits_naturalDigits m.succ c h)

theorem write_ne_int (x : Float) (n : ℤ) : numbers.write x ≠ toString n := by
  intro h
  obtain ⟨c, hc, hdigit, hminus⟩ := exists_letter_write x
  rcases digit_or_minus_of_int (h ▸ hc) with htrue | heq
  · rw [hdigit] at htrue
    cases htrue
  · exact hminus heq

/-- Numbers with one text are the same. -/
theorem spell_injective : Function.Injective fun n : Number => spell (.num n) := by
  intro n m h
  cases n with
  | int n =>
    cases m with
    | int m => exact congrArg Number.int (Int.repr_inj.1 h)
    | float y => exact absurd h.symm (write_ne_int y n)
  | float x =>
    cases m with
    | int m => exact absurd h (write_ne_int x m)
    | float y => exact congrArg Number.float (write_injective rfl rfl h)

theorem spelled_number (n : Number) : Spelled (spell (.num n)).toList := by
  cases n with
  | int n => exact spelled_int n
  | float x => exact spelled_write x

/-! ### The token of a number -/

/-- What becomes of a character in a token. -/
def tokenChar (c : Char) : Char :=
  let d := if c = '.' then 'p' else c
  if isTokenChar d then d else '_'

/-- The character of a number that a character of its token was. -/
def numberChar (c : Char) : Char := if c = 'p' then '.' else if c = '_' then '+' else c

theorem numberChar_tokenChar {c : Char} (h : c ∈ numberChars) : numberChar (tokenChar c) = c := by
  have hall : numberChars.all (fun c => numberChar (tokenChar c) == c) = true := by decide
  exact beq_iff_eq.1 (List.all_eq_true.1 hall c h)

/-- The token of a number. -/
def numberToken (n : Number) : List Char := (spell (.num n)).toList.map tokenChar

theorem toList_parameterToken (key : String) (n : Number) :
    (parameterToken key (.num n)).toList = tokenChars key.toList ++ numberToken n := by
  rw [parameterToken, sanitize, String.toList_ofList, String.toList_append, tokenChars,
    List.map_append, fsSafe, String.toList_ofList, pointless, List.map_map]
  rfl

theorem numberToken_injective : Function.Injective numberToken := by
  have hback : ∀ n, (numberToken n).map numberChar = (spell (.num n)).toList := by
    intro n
    rw [numberToken, List.map_map, List.map_congr_left, List.map_id]
    exact fun c hc => numberChar_tokenChar ((spelled_number n).chars c hc)
  intro n m h
  refine spell_injective (String.toList_inj.1 ?_)
  show (spell (.num n)).toList = (spell (.num m)).toList
  rw [← hback, ← hback, h]

/-- A token whose end can be found: an underscore in it stands behind an `e`, and no `e` comes
last. -/
structure Delimited (token : List Char) : Prop where
  underscore : ∀ a b, token = a ++ '_' :: b → a.getLast? = some 'e'
  last : token.getLast? ≠ some 'e'

theorem delimited_numberToken (n : Number) : Delimited (numberToken n) := by
  have hspelled := spelled_number n
  constructor
  · intro a b h
    obtain ⟨before, behind, htext, rfl, hbehind⟩ := List.map_eq_append_iff.1 h
    obtain ⟨c, rest, rfl, hc, -⟩ := List.map_eq_cons_iff.1 hbehind
    have hplus : c = '+' := by
      have hback := numberChar_tokenChar (hspelled.chars c (htext ▸ by simp))
      rw [hc] at hback
      exact hback.symm
    rw [List.getLast?_map, hspelled.plus before rest (hplus ▸ htext)]
    rfl
  · intro h
    rw [numberToken, List.getLast?_map] at h
    obtain ⟨c, hlast, hc⟩ := Option.map_eq_some_iff.1 h
    have hback := numberChar_tokenChar (hspelled.chars c (List.mem_of_getLast? hlast))
    rw [hc] at hback
    exact hspelled.last (hlast.trans (congrArg some hback.symm))

/-- What may follow a token: nothing, or an underscore. -/
def Ends (cs : List Char) : Prop := cs = [] ∨ ∃ rest, cs = '_' :: rest

/-- No token begins with another one that ends at an underscore. -/
theorem Delimited.eq_nil_of_append {w w' s t : List Char} (hw : Delimited w) (hw' : Delimited w')
    (h : w' = w ++ s) (ht : Ends (s ++ t)) : s = [] := by
  cases s with
  | nil => rfl
  | cons c s =>
    rcases ht with hnil | ⟨rest, hrest⟩
    · cases hnil
    · obtain ⟨rfl, -⟩ := List.cons.inj hrest
      exact absurd (hw'.underscore w s h) hw.last

/-- A token ends at one place only. -/
theorem Delimited.append_inj {w w' t t' : List Char} (hw : Delimited w) (hw' : Delimited w')
    (ht : Ends t) (ht' : Ends t') (h : w ++ t = w' ++ t') : w = w' ∧ t = t' := by
  rcases List.append_eq_append_iff.1 h with ⟨s, hs, rfl⟩ | ⟨s, hs, rfl⟩
  · obtain rfl := hw.eq_nil_of_append hw' hs ht
    exact ⟨by simpa using hs.symm, List.nil_append t'⟩
  · obtain rfl := hw'.eq_nil_of_append hw hs ht'
    exact ⟨by simpa using hs, (List.nil_append t).symm⟩

/-! ### The whole name -/

/-- Texts with a separator before each of them. -/
theorem cons_intercalate {α : Type} (separator : α) : ∀ {texts : List (List α)}, texts ≠ [] →
    separator :: List.intercalate [separator] texts = texts.flatMap (separator :: ·)
  | [], h => absurd rfl h
  | [x], _ => by simp
  | x :: y :: rest, _ => by
    rw [List.intercalate_cons_cons, List.flatMap_cons,
      ← cons_intercalate separator (List.cons_ne_nil y rest)]
    simp

theorem toList_joined (texts : List String) :
    (Text.joined "_" texts).toList = List.intercalate ['_'] (texts.map String.toList) :=
  String.toList_intercalate

theorem joined_concat_inj {texts : List String} {a b : String}
    (h : Text.joined "_" (texts ++ [a]) = Text.joined "_" (texts ++ [b])) : a = b := by
  have hflat : ∀ c : String, '_' :: (Text.joined "_" (texts ++ [c])).toList =
      (texts.map String.toList).flatMap ('_' :: ·) ++ '_' :: c.toList := by
    intro c
    rw [toList_joined, cons_intercalate '_' (by simp), List.map_append, List.flatMap_append]
    simp
  have hboth := (hflat a).symm.trans ((congrArg (fun s : String => '_' :: s.toList) h).trans
    (hflat b))
  exact String.toList_inj.1 (List.cons.inj (List.append_cancel_left hboth)).2

/-- The tokens of keys with numbers. -/
def numberTokens (keys : List String) (values : List Number) : List (List Char) :=
  (keys.zip values).map fun p => tokenChars p.1.toList ++ numberToken p.2

theorem ends_flatMap (tokens : List (List Char)) : Ends (tokens.flatMap ('_' :: ·)) := by
  cases tokens with
  | nil => exact .inl rfl
  | cons token rest => exact .inr ⟨_, rfl⟩

/-- From tokens of known keys, each after an underscore, the numbers can be told. -/
theorem eq_of_flatMap_numberTokens : ∀ {keys : List String} {values values' : List Number},
    values.length = keys.length → values'.length = keys.length →
      (numberTokens keys values).flatMap ('_' :: ·) =
        (numberTokens keys values').flatMap ('_' :: ·) → values = values'
  | [], [], [], _, _, _ => rfl
  | key :: keys, n :: values, m :: values', hlength, hlength', h => by
    have hfirst : ∀ (n : Number) (values : List Number),
        (numberTokens (key :: keys) (n :: values)).flatMap ('_' :: ·) =
          '_' :: (tokenChars key.toList ++
            (numberToken n ++ (numberTokens keys values).flatMap ('_' :: ·))) := by
      intro n values
      rw [← List.append_assoc]
      rfl
    rw [hfirst, hfirst] at h
    have hbehind := List.append_cancel_left (List.cons.inj h).2
    obtain ⟨htoken, hrest⟩ := (delimited_numberToken n).append_inj (delimited_numberToken m)
      (ends_flatMap _) (ends_flatMap _) hbehind
    rw [numberToken_injective htoken, eq_of_flatMap_numberTokens (Nat.succ.inj hlength)
      (Nat.succ.inj hlength') hrest]

/-- The part of a name that the parameters make. -/
def parametersPart (parameters : List (String × Value)) : String :=
  Text.joined "_" (parameters.map fun (key, value) => parameterToken key value)

theorem fallbackName_eq {outputPrefix branch : String} {parameters : List (String × Value)}
    (h : parametersPart parameters ≠ "") :
    fallbackName outputPrefix branch parameters = Text.joined "_"
      ([outputPrefix, sanitize branch].filter (· ≠ "") ++ [parametersPart parameters]) := by
  have hlast : [parametersPart parameters].filter (· ≠ "") = [parametersPart parameters] := by
    simp [h]
  rw [← hlast, ← List.filter_append]
  rfl

theorem toList_parametersPart (keys : List String) (values : List Number) :
    (parametersPart (keys.zip (values.map Value.num))).toList =
      List.intercalate ['_'] (numberTokens keys values) := by
  rw [parametersPart, toList_joined, List.zip_map_right, List.map_map, List.map_map, numberTokens]
  exact congrArg _ (List.map_congr_left fun p _ => toList_parameterToken p.1 p.2)

section Keys

variable {key : String} {keys : List String} {values : List Number}

theorem cons_parametersPart (h : values.length = (key :: keys).length) :
    '_' :: (parametersPart ((key :: keys).zip (values.map Value.num))).toList =
      (numberTokens (key :: keys) values).flatMap ('_' :: ·) := by
  obtain ⟨n, rest, rfl⟩ := List.exists_cons_of_length_eq_add_one h
  rw [toList_parametersPart]
  exact cons_intercalate '_' (List.cons_ne_nil _ _)

theorem parametersPart_ne_empty (h : values.length = (key :: keys).length) :
    parametersPart ((key :: keys).zip (values.map Value.num)) ≠ "" := by
  intro hempty
  have hflat := cons_parametersPart h
  rw [hempty] at hflat
  obtain ⟨n, rest, rfl⟩ := List.exists_cons_of_length_eq_add_one h
  have hnil : [] = tokenChars key.toList ++ numberToken n ++
      (numberTokens keys rest).flatMap ('_' :: ·) := (List.cons.inj hflat).2
  have htoken : numberToken n = [] :=
    (List.append_eq_nil_iff.1 (List.append_eq_nil_iff.1 hnil.symm).1).2
  exact (spelled_number n).ne_nil (List.map_eq_nil_iff.1 htoken)

end Keys

/-- For a prefix, a branch and keys that are fixed, runs with different numbers have different
names. -/
theorem fallbackName_injective (outputPrefix branch : String) (keys : List String) :
    Function.Injective fun values : List.Vector Number keys.length =>
      fallbackName outputPrefix branch (keys.zip (values.toList.map Value.num)) := by
  intro values values' h
  dsimp only at h
  apply List.Vector.toList_injective
  have hlength := values.toList_length
  have hlength' := values'.toList_length
  cases keys with
  | nil => rw [List.length_eq_zero_iff.1 hlength, List.length_eq_zero_iff.1 hlength']
  | cons key keys =>
    rw [fallbackName_eq (parametersPart_ne_empty hlength),
      fallbackName_eq (parametersPart_ne_empty hlength')] at h
    have hparameters := joined_concat_inj h
    refine eq_of_flatMap_numberTokens hlength hlength' ?_
    rw [← cons_parametersPart hlength, ← cons_parametersPart hlength', hparameters]

end ParamSweep.Naming
