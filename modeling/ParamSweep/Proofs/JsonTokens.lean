import Mathlib
import ParamSweep.Proofs.NumericNames
import ParamSweep.Proofs.OutputDiversity
import ParamSweep.Value.JsonSkip

/-!
Texts and numbers in JSON, as they are written and as they are read.

A text in quotes is read back to what was written, whatever follows it (`string?_quote`). A number
is written without needless zeros in front (`Written`), so that it can be passed over; a reader
takes all of its characters and stops at what ends it. Different finite numbers have different
texts (`number_inj`), but a double need not be read back to itself.
-/

namespace ParamSweep

namespace Json

open Decimal

/-! ### Texts in quotes -/

theorem hexValue?_hexDigit : ∀ d < 16, hexValue? (hexDigit d) = some d := by decide

theorem unicodeEscape?_control {n : ℕ} (h : n < 0x20) (rest : List Char) :
    unicodeEscape? ('0' :: '0' :: hexDigit (n / 16) :: hexDigit (n % 16) :: rest) =
      some (Char.ofNat n, rest) := by
  have hzero : hexValue? '0' = some 0 := by decide
  have hhigh : ¬ (0xD800 ≤ n) := by omega
  have hsurrogate : ¬ (0xDC00 ≤ n) := by omega
  simp only [unicodeEscape?, hex4?, hzero, hexValue?_hexDigit (n / 16) (by omega),
    hexValue?_hexDigit (n % 16) (by omega), Option.bind_eq_bind, Option.bind_some]
  rw [show 0 * 4096 + 0 * 256 + n / 16 * 16 + n % 16 = n by omega]
  simp [hhigh, hsurrogate]

/-- One step takes the escaped form of a character. -/
theorem stringBody?_escapeChar (fuel : ℕ) (acc : List Char) (c : Char) (rest : List Char) :
    stringBody? (fuel + 1) acc (escapeChar c ++ rest) = stringBody? fuel (c :: acc) rest := by
  rw [escapeChar]
  split_ifs with h₁ h₂ h₃ h₄ h₅ h₆ h₇ h₈
  · subst h₁; rfl
  · subst h₂; rfl
  · subst h₃; rfl
  · subst h₄; rfl
  · subst h₅; rfl
  · subst h₆; rfl
  · subst h₇; rfl
  · rw [List.cons_append, List.cons_append, stringBody?, if_neg (by decide), if_pos rfl]
    simp only [List.cons_append, List.nil_append]
    rw [unicodeEscape?_control h₈, Option.bind_eq_bind, Option.bind_some, Char.ofNat_toNat]
  · rw [List.singleton_append, stringBody?.eq_def]
    simp only [if_neg h₁, if_neg h₂, if_neg h₈]

theorem stringBody?_escaped (rest : List Char) : ∀ (cs acc : List Char) (fuel : ℕ),
    cs.length < fuel →
      stringBody? fuel acc (cs.flatMap escapeChar ++ '"' :: rest) =
        some (String.ofList (acc.reverse ++ cs), rest)
  | [], acc, fuel + 1, _ => by
    rw [List.flatMap_nil, List.nil_append, List.append_nil]
    rfl
  | c :: cs, acc, fuel + 1, h => by
    rw [List.flatMap_cons, List.append_assoc, stringBody?_escapeChar,
      stringBody?_escaped rest cs (c :: acc) fuel (by simpa using h), List.reverse_cons,
      List.append_assoc, List.singleton_append]

theorem length_le_flatMap_escapeChar (cs : List Char) :
    cs.length ≤ (cs.flatMap escapeChar).length := by
  induction cs with
  | nil => simp
  | cons c cs ih =>
    have hpos : 1 ≤ (escapeChar c).length := by
      rw [escapeChar]
      split_ifs <;> simp
    rw [List.flatMap_cons, List.length_append, List.length_cons]
    omega

/-- A text in quotes is read back. -/
theorem string?_quote (s : String) (rest : List Char) :
    string? (quote s ++ rest) = some (s, rest) := by
  have hlength := length_le_flatMap_escapeChar s.toList
  have hquote : quote s ++ rest = '"' :: (s.toList.flatMap escapeChar ++ '"' :: rest) := by
    rw [quote, List.cons_append, List.append_assoc, List.singleton_append]
  rw [hquote, string?, stringBody?_escaped, List.reverse_nil, List.nil_append, String.ofList_toList]
  rw [List.length_append]
  omega

theorem quote_inj {s t : String} {rest rest' : List Char}
    (h : quote s ++ rest = quote t ++ rest') : s = t ∧ rest = rest' := by
  have hread := congrArg string? h
  rw [string?_quote, string?_quote] at hread
  simpa using hread

theorem skipQuoted?_escapeChar (c : Char) (rest : List Char) :
    skipQuoted? (escapeChar c ++ rest) = skipQuoted? rest := by
  rw [escapeChar]
  split_ifs with h₁ h₂ h₃ h₄ h₅ h₆ h₇ h₈
  · rfl
  · rfl
  · rfl
  · rfl
  · rfl
  · rfl
  · rfl
  · have hhex : ∀ d < 16, (hexValue? (hexDigit d)).isSome = true := by decide
    simp only [List.cons_append, List.nil_append]
    rw [skipQuoted?, if_pos]
    simp [hhex (c.toNat / 16) (by omega), hhex (c.toNat % 16) (by omega)]
    decide
  · rw [List.singleton_append, skipQuoted?.eq_def]
    split
    · rename_i heq; cases heq
    · rename_i heq; cases heq; exact absurd rfl h₁
    · rename_i heq; cases heq; exact absurd rfl h₂
    · rename_i heq; cases heq; exact absurd rfl h₂
    · rename_i heq
      cases heq
      simp [h₈, h₂]

theorem skipQuoted?_escaped (cs rest : List Char) :
    skipQuoted? (cs.flatMap escapeChar ++ '"' :: rest) = some rest := by
  induction cs with
  | nil => rfl
  | cons c cs ih =>
    rw [List.flatMap_cons, List.append_assoc, skipQuoted?_escapeChar, ih]

/-! ### The form of a number -/

/-- What stands behind the whole digits of a number. -/
inductive Tail : List Char → Prop
  | whole : Tail []
  | fraction {fs : List Char} (ne : fs ≠ []) (digits : AllDigits fs) : Tail ('.' :: fs)
  | exponent {ex : List Char} {e : ℤ} (h : Exponent ex e) : Tail ('e' :: ex)
  | scientific {fs ex : List Char} {e : ℤ} (ne : fs ≠ []) (digits : AllDigits fs)
    (h : Exponent ex e) : Tail ('.' :: (fs ++ 'e' :: ex))

/-- The text of a number without a sign, with no needless zero in front. -/
structure Unsigned (ds tail : List Char) : Prop where
  ne : ds ≠ []
  digits : AllDigits ds
  unpadded : ds.head? = some '0' → ds.length = 1
  tail : Tail tail

/-- The text of a number. -/
inductive Written : List Char → Prop
  | plain {ds tail : List Char} (h : Unsigned ds tail) : Written (ds ++ tail)
  | minus {ds tail : List Char} (h : Unsigned ds tail) : Written ('-' :: (ds ++ tail))

/-- The digits of a number have no zero in front, unless there is nothing else. -/
theorem head?_naturalDigits (n : ℕ) (h : (naturalDigits n).head? = some '0') : n = 0 := by
  induction n using Nat.strong_induction_on with
  | _ n ih =>
    rw [naturalDigits, Nat.toDigits_eq_if (by decide)] at h
    split at h
    next hsmall =>
      rw [List.head?_cons, Option.some.injEq] at h
      interval_cases n <;> first | rfl | cases h
    next hlarge =>
      rw [List.head?_append_of_ne_nil _ Nat.toDigits_ne_nil] at h
      have hlead := ih (n / 10) (by omega) h
      omega

theorem length_of_head?_naturalDigits {n : ℕ} (h : (naturalDigits n).head? = some '0') :
    (naturalDigits n).length = 1 := by
  rw [head?_naturalDigits n h]
  rfl

theorem unsigned_naturalDigits (n : ℕ) {tail : List Char} (h : Tail tail) :
    Unsigned (naturalDigits n) tail :=
  ⟨naturalDigits_ne_nil n, allDigits_naturalDigits n, length_of_head?_naturalDigits, h⟩

/-- A decimal in its places, with a point. -/
theorem unsigned_positional {d : Digits} (hzero : d.digits = 0 → d.exponent = 0) :
    ∃ ds tail, Unsigned ds tail ∧ positional true d = ds ++ tail := by
  have hall := allDigits_naturalDigits d.digits
  have hne := naturalDigits_ne_nil d.digits
  rw [positional]
  split
  next hexponent =>
    refine ⟨naturalDigits d.digits ++ zeros d.exponent.toNat, ['.', '0'],
      ⟨List.append_ne_nil_of_left_ne_nil hne _, hall.append (allDigits_zeros _), fun h => ?_,
        .fraction (by simp) (allDigits_zeros 1)⟩, rfl⟩
    rw [List.head?_append_of_ne_nil _ hne] at h
    rw [List.length_append, length_of_head?_naturalDigits h,
      hzero (head?_naturalDigits _ h)]
    rfl
  next hexponent =>
    dsimp only
    split
    next hshort =>
      refine ⟨['0'], '.' :: (zeros ((-d.exponent).toNat - (naturalDigits d.digits).length) ++
        naturalDigits d.digits), ⟨by simp, allDigits_zeros 1, fun _ => rfl, ?_⟩, rfl⟩
      exact .fraction (List.append_ne_nil_of_right_ne_nil _ hne)
        ((allDigits_zeros _).append hall)
    next hlong =>
      refine ⟨(naturalDigits d.digits).take ((naturalDigits d.digits).length -
        (-d.exponent).toNat), '.' :: (naturalDigits d.digits).drop
          ((naturalDigits d.digits).length - (-d.exponent).toNat), ⟨?_, ?_, fun h => ?_, ?_⟩, rfl⟩
      · rw [Ne, List.take_eq_nil_iff]
        rintro (hlength | hnil)
        · omega
        · exact hne hnil
      · exact fun c hc => hall c (List.mem_of_mem_take hc)
      · rw [List.head?_take, if_neg (by omega)] at h
        have hone := length_of_head?_naturalDigits h
        omega
      · refine .fraction ?_ fun c hc => hall c (List.mem_of_mem_drop hc)
        rw [Ne, List.drop_eq_nil_iff]
        omega

/-- A decimal with an exponent. -/
theorem unsigned_scientific (d : Digits) (plus : Bool) (width : ℕ) :
    ∃ ds tail, Unsigned ds tail ∧ scientific plus width d = ds ++ tail := by
  have hall := allDigits_naturalDigits d.digits
  obtain ⟨c, rest, hds⟩ := List.exists_cons_of_ne_nil (naturalDigits_ne_nil d.digits)
  rw [hds] at hall
  obtain ⟨hc, hrest⟩ := List.forall_mem_cons.1 hall
  have hone : AllDigits [c] := List.forall_mem_singleton.2 hc
  rw [scientific, hds]
  cases rest with
  | nil =>
    exact ⟨[c], _, ⟨by simp, hone, fun _ => rfl, .exponent (exponent_exponentText _ _ _)⟩, rfl⟩
  | cons c' rest =>
    exact ⟨[c], _, ⟨by simp, hone, fun _ => rfl,
      .scientific (by simp) hrest (exponent_exponentText _ _ _)⟩, rfl⟩

/-- The shortest digits of zero are a zero in its place. -/
theorem exponent_shortest {tie : Tie} {n : ℕ}
    (h : ((Magnitude.ofIndex n).shortest tie).digits = 0) :
    ((Magnitude.ofIndex n).shortest tie).exponent = 0 := by
  have hnone : (Magnitude.ofIndex 0).shortest tie = ⟨0, 0⟩ := rfl
  have hvalue : ((Magnitude.ofIndex n).shortest tie).value =
      ((Magnitude.ofIndex 0).shortest tie).value := by
    rw [hnone, Digits.value, Digits.value, h]
    simp
  rw [Magnitude.eq_of_value_shortest hvalue, hnone]

theorem isInf_of_isFinite {x : Float} (h : x.isFinite = true) : x.isInf = false := by
  have hfinite : x.toModel.unpack.isFinite = true := h
  show x.toModel.unpack.isInf = false
  cases hx : x.toModel.unpack with
  | infinity => rw [hx] at hfinite; cases hfinite
  | _ => rfl

theorem written_write {x : Float} (h : x.isFinite = true) :
    Written (Notation.json.write x).toList := by
  have hnan : x.isNaN = false := Integrity.isNaN_of_isFinite h
  have hinf : x.isInf = false := isInf_of_isFinite h
  obtain ⟨ds, tail, hunsigned, htext⟩ : ∃ ds tail, Unsigned ds tail ∧
      Notation.json.layout ((Magnitude.ofBits x.toBits).shortest Notation.json.tie) =
        ds ++ tail := by
    rw [Magnitude.ofBits_eq_ofIndex, Notation.layout]
    split
    · exact unsigned_positional exponent_shortest
    · exact unsigned_scientific _ _ _
  rw [Notation.write, hnan, hinf, htext]
  cases signBit x
  · simpa using Written.plain hunsigned
  · simpa using Written.minus hunsigned

theorem written_int (n : ℤ) : Written (toString n).toList := by
  cases n with
  | ofNat m =>
    have htext : (toString (Int.ofNat m)).toList = naturalDigits m ++ [] := by
      rw [List.append_nil]
      exact Nat.toList_repr
    rw [htext]
    exact .plain (unsigned_naturalDigits m .whole)
  | negSucc m =>
    rw [Naming.toList_negSucc, Nat.toList_repr, ← List.append_nil (Nat.toDigits 10 m.succ)]
    exact .minus (unsigned_naturalDigits m.succ .whole)

end Json

/-- A number of a document: its double, if it is one, is finite. -/
def Number.Finite : Number → Prop
  | .int _ => True
  | .float x => x.isFinite = true

namespace Json

open Decimal

theorem written_number {n : Number} (h : n.Finite) : Written (number n) := by
  cases n with
  | int n => exact written_int n
  | float x => exact written_write h

/-! ### Reading a number -/

/-- What ends a number. -/
def Stops (rest : List Char) : Prop :=
  ∀ c ∈ rest.head?, c = ',' ∨ c = ']' ∨ c = '\x7d' ∨ c = '\n'

variable {c : Char} {ds fs ex cs tail rest : List Char} {e : ℤ}

theorem takeWhile_digits (h : AllDigits ds) (hrest : ∀ c ∈ rest.head?, c.isDigit = false) :
    (ds ++ rest).takeWhile Char.isDigit = ds := by
  rw [List.takeWhile_append_of_pos h]
  cases rest with
  | nil => simp
  | cons c rest => simp [hrest c rfl]

theorem dropWhile_digits (h : AllDigits ds) (hrest : ∀ c ∈ rest.head?, c.isDigit = false) :
    (ds ++ rest).dropWhile Char.isDigit = rest := by
  rw [List.dropWhile_append_of_pos h]
  cases rest with
  | nil => simp
  | cons c rest => simp [hrest c rfl]

theorem takeWhile_allDigits (h : AllDigits ds) : ds.takeWhile Char.isDigit = ds :=
  List.takeWhile_eq_self_iff.2 h

theorem dropWhile_allDigits (h : AllDigits ds) : ds.dropWhile Char.isDigit = [] :=
  List.dropWhile_eq_nil_iff.2 h

theorem Stops.not_digit (h : Stops rest) : ∀ c ∈ rest.head?, c.isDigit = false := by
  intro c hc
  rcases h c hc with rfl | rfl | rfl | rfl <;> decide

theorem Stops.not_exponent (h : Stops (c :: rest)) : (c = 'e' || c = 'E') = false := by
  rcases h c rfl with rfl | rfl | rfl | rfl <;> decide

theorem finishFloat?_append (negative : Bool) (word : ℕ) (e : ℤ) (h : Stops rest) :
    finishFloat? negative word e rest =
      (finishFloat? negative word e []).map fun p => (p.1, rest) := by
  cases rest with
  | nil => simp [finishFloat?, Function.comp_def]
  | cons c rest => simp [finishFloat?, h.not_exponent, Function.comp_def]

/-- Digits do not start with a sign. -/
theorem exists_cons_of_digits (ne : ds ≠ []) (digits : AllDigits ds) :
    ∃ d ds', ds = d :: ds' ∧ d ≠ '+' ∧ d ≠ '-' := by
  obtain ⟨d, ds', rfl⟩ := List.exists_cons_of_ne_nil ne
  have hd : ∀ c, c.isDigit = false → d ≠ c := by
    rintro c hc rfl
    exact digits.not_mem hc List.mem_cons_self
  exact ⟨d, ds', rfl, hd '+' (by decide), hd '-' (by decide)⟩

theorem finishFloat?_exponent_append (negative : Bool) (word : ℕ) (start : ℤ)
    (h : Exponent ex e) (hrest : Stops rest) :
    finishFloat? negative word start ('e' :: (ex ++ rest)) =
      (finishFloat? negative word start ('e' :: ex)).map fun p => (p.1, rest) := by
  have htake : ∀ {ds}, AllDigits ds → (ds ++ rest).takeWhile Char.isDigit = ds :=
    fun digits => takeWhile_digits digits hrest.not_digit
  have hdrop : ∀ {ds}, AllDigits ds → (ds ++ rest).dropWhile Char.isDigit = rest :=
    fun digits => dropWhile_digits digits hrest.not_digit
  cases h with
  | @bare ds ne digits =>
    obtain ⟨d, ds', rfl, hplus, hminus⟩ := exists_cons_of_digits ne digits
    have htake' := htake digits
    have hdrop' := hdrop digits
    rw [List.cons_append] at htake' hdrop'
    simp [finishFloat?, hplus, hminus, htake', hdrop', takeWhile_allDigits digits,
      dropWhile_allDigits digits]
    split_ifs <;> simp [Function.comp_def]
  | up ne digits =>
    simp [finishFloat?, htake digits, hdrop digits, takeWhile_allDigits digits,
      dropWhile_allDigits digits]
    split_ifs <;> simp [Function.comp_def]
  | down ne digits =>
    simp [finishFloat?, htake digits, hdrop digits, takeWhile_allDigits digits,
      dropWhile_allDigits digits]
    split_ifs <;> simp [Function.comp_def]

theorem whole_append (negative : Bool) (word : ℕ) (rest : List Char) :
    unsigned?.whole negative word rest =
      (unsigned?.whole negative word []).map fun p => (p.1, rest) := by
  simp only [unsigned?.whole]
  split_ifs <;> rfl

theorem Unsigned.filled (h : Unsigned ds tail) :
    (ds.isEmpty || (decide (ds.length > 1) && decide (ds.head? = some '0'))) = false := by
  have hunpadded := h.unpadded
  rw [Bool.or_eq_false_iff, Bool.and_eq_false_iff, List.isEmpty_eq_false_iff,
    decide_eq_false_iff_not, decide_eq_false_iff_not]
  refine ⟨h.ne, ?_⟩
  by_cases hzero : ds.head? = some '0'
  · exact .inl (by rw [hunpadded hzero]; omega)
  · exact .inr hzero

/-! What the digits of a number are read to does not depend on what stands behind them, only how it
goes on: with the places, with the exponent or not at all. -/

theorem unsigned?_point (negative : Bool) (h : Unsigned ds tail) (ne : fs ≠ [])
    (digits : AllDigits fs) :
    ∃ word start, ∀ rest, (∀ c ∈ rest.head?, c.isDigit = false) →
      unsigned? negative (ds ++ '.' :: (fs ++ rest)) = finishFloat? negative word start rest := by
  obtain ⟨word, spare, hword⟩ : ∃ word spare, fillWord 0 ds = (word, spare) := ⟨_, _, rfl⟩
  obtain ⟨word', unused, hword'⟩ : ∃ word' unused, fillWord word fs = (word', unused) :=
    ⟨_, _, rfl⟩
  refine ⟨word', (if spare.isEmpty then 0 else (spare.length : ℤ)) -
    ((fs.length - unused.length : ℕ) : ℤ), fun rest hrest => ?_⟩
  have hsome : fs.isEmpty = false := List.isEmpty_eq_false_iff.2 ne
  rw [unsigned?, takeWhile_digits h.digits (by simp), dropWhile_digits h.digits (by simp)]
  simp only [takeWhile_digits digits hrest, dropWhile_digits digits hrest, h.filled, hsome, hword,
    hword']
  cases spare.isEmpty
  · rfl
  · simp

theorem unsigned?_exponent (negative : Bool) (h : Unsigned ds tail) :
    ∃ word start, ∀ rest,
      unsigned? negative (ds ++ 'e' :: rest) = finishFloat? negative word start ('e' :: rest) := by
  refine ⟨(fillWord 0 ds).1, (fillWord 0 ds).2.length, fun rest => ?_⟩
  rw [unsigned?, takeWhile_digits h.digits (by simp), dropWhile_digits h.digits (by simp)]
  simp only [h.filled]
  rfl

theorem unsigned?_whole (negative : Bool) (h : Unsigned ds tail) :
    (∃ word, ∀ rest, Stops rest →
      unsigned? negative (ds ++ rest) = unsigned?.whole negative word rest) ∨
    ∃ word start, ∀ rest, Stops rest →
      unsigned? negative (ds ++ rest) = finishFloat? negative word start rest := by
  have hread : ∀ rest, Stops rest → unsigned? negative (ds ++ rest) =
      if (fillWord 0 ds).2.isEmpty then unsigned?.whole negative (fillWord 0 ds).1 rest
      else finishFloat? negative (fillWord 0 ds).1 (fillWord 0 ds).2.length rest := by
    intro rest hrest
    simp only [unsigned?, takeWhile_digits h.digits hrest.not_digit,
      dropWhile_digits h.digits hrest.not_digit, h.filled]
    rw [if_neg Bool.false_ne_true]
    cases rest with
    | nil => rfl
    | cons c rest =>
      have hpoint : c ≠ '.' := by
        rcases hrest c rfl with rfl | rfl | rfl | rfl <;> decide
      simp only [hrest.not_exponent]
      cases (fillWord 0 ds).2.isEmpty <;> simp
  cases hspare : (fillWord 0 ds).2.isEmpty <;> simp only [hspare] at hread
  · exact .inr ⟨_, _, hread⟩
  · exact .inl ⟨_, hread⟩

theorem unsigned?_append (negative : Bool) (h : Unsigned ds tail) (hrest : Stops rest) :
    unsigned? negative (ds ++ tail ++ rest) =
      (unsigned? negative (ds ++ tail)).map fun p => (p.1, rest) := by
  have hnone : Stops [] := nofun
  have htail := h.tail
  rw [List.append_assoc]
  cases htail with
  | whole =>
    rcases unsigned?_whole negative h with ⟨word, hread⟩ | ⟨word, start, hread⟩
    · rw [List.nil_append, hread rest hrest, hread [] hnone]
      exact whole_append negative word rest
    · rw [List.nil_append, hread rest hrest, hread [] hnone]
      exact finishFloat?_append negative word start hrest
  | fraction ne digits =>
    obtain ⟨word, start, hread⟩ := unsigned?_point negative h ne digits
    have hself := hread [] hnone.not_digit
    rw [List.append_nil] at hself
    rw [List.cons_append, hread rest hrest.not_digit, hself]
    exact finishFloat?_append negative word start hrest
  | exponent hex =>
    obtain ⟨word, start, hread⟩ := unsigned?_exponent negative h
    rw [List.cons_append, hread, hread]
    exact finishFloat?_exponent_append negative word start hex hrest
  | scientific ne digits hex =>
    obtain ⟨word, start, hread⟩ := unsigned?_point negative h ne digits
    rw [List.cons_append, List.append_assoc, List.cons_append, hread _ (by simp),
      hread _ (by simp)]
    exact finishFloat?_exponent_append negative word start hex hrest

/-- A number is read up to what ends it. -/
theorem number?_append (h : Written cs) (hrest : Stops rest) :
    number? (cs ++ rest) = (number? cs).map fun p => (p.1, rest) := by
  have hplain : ∀ {ds tail}, Unsigned ds tail → ∀ rest,
      number? (ds ++ tail ++ rest) = unsigned? false (ds ++ tail ++ rest) := by
    intro ds tail h rest
    obtain ⟨d, ds', rfl, -, hd⟩ := exists_cons_of_digits h.ne h.digits
    simp [number?, hd]
  cases h with
  | @plain ds tail h =>
    have hself := hplain h []
    rw [List.append_nil] at hself
    rw [hplain h, hself, unsigned?_append false h hrest]
  | @minus ds tail h => exact unsigned?_append true h hrest

/-! ### Passing over a number -/

theorem skipDigits?_append (ne : ds ≠ []) (digits : AllDigits ds)
    (hrest : ∀ c ∈ rest.head?, c.isDigit = false) : skipDigits? (ds ++ rest) = some rest := by
  obtain ⟨d, ds', rfl⟩ := List.exists_cons_of_ne_nil ne
  have hd : d.isDigit = true := digits d List.mem_cons_self
  rw [skipDigits?, if_pos (by simpa using hd), dropWhile_digits digits hrest]

theorem skipExponent?_stops (hrest : Stops rest) : skipExponent? rest = some rest := by
  cases rest with
  | nil => rfl
  | cons c rest => simp [skipExponent?, hrest.not_exponent]

theorem skipExponent?_append (h : Exponent ex e) (hrest : Stops rest) :
    skipExponent? ('e' :: (ex ++ rest)) = some rest := by
  cases h with
  | @bare ds ne digits =>
    have hskip := skipDigits?_append ne digits hrest.not_digit
    obtain ⟨d, ds', rfl, hplus, hminus⟩ := exists_cons_of_digits ne digits
    rw [List.cons_append] at hskip
    simpa [skipExponent?, hplus, hminus] using hskip
  | up ne digits => simpa [skipExponent?] using skipDigits?_append ne digits hrest.not_digit
  | down ne digits => simpa [skipExponent?] using skipDigits?_append ne digits hrest.not_digit

theorem skipUnsigned?_append (h : Unsigned ds tail) (hrest : Stops rest) :
    skipUnsigned? (ds ++ tail ++ rest) = some rest := by
  obtain ⟨ne, digits, unpadded, htail⟩ := h
  -- no digit stands behind a leading zero
  have hpadded : ∀ tail' : List Char, ¬ ((ds ++ tail').head? = some '0' ∧
      (ds ++ tail').length ≠ tail'.length + 1) := by
    rintro tail' ⟨hzero, hlength⟩
    rw [List.head?_append_of_ne_nil _ ne] at hzero
    rw [List.length_append, unpadded hzero] at hlength
    omega
  have hpoint : ∀ r, skipUnsigned? (ds ++ '.' :: r) = (skipDigits? r).bind skipExponent? := by
    intro r
    rw [skipUnsigned?, skipDigits?_append ne digits (by simp), Option.bind_eq_bind,
      Option.bind_some, if_neg (by simpa using hpadded ('.' :: r))]
    rfl
  have hplain : ∀ {tail' : List Char}, (∀ c ∈ tail'.head?, c.isDigit = false ∧ c ≠ '.') →
      skipUnsigned? (ds ++ tail') = skipExponent? tail' := by
    intro tail' hbehind
    rw [skipUnsigned?, skipDigits?_append ne digits fun c hc => (hbehind c hc).1,
      Option.bind_eq_bind, Option.bind_some, if_neg (by simpa using hpadded tail')]
    split
    next => exact absurd rfl (hbehind '.' rfl).2
    next => rfl
  rw [List.append_assoc]
  cases htail with
  | whole =>
    rw [List.nil_append, hplain fun c hc => ⟨hrest.not_digit c hc, ?_⟩]
    · exact skipExponent?_stops hrest
    · rcases hrest c hc with rfl | rfl | rfl | rfl <;> decide
  | fraction ne' digits' =>
    rw [List.cons_append, hpoint, skipDigits?_append ne' digits' hrest.not_digit,
      Option.bind_some, skipExponent?_stops hrest]
  | exponent h =>
    rw [List.cons_append, hplain (by simp), skipExponent?_append h hrest]
  | @scientific fs ex e ne' digits' h =>
    rw [List.cons_append, List.append_assoc, List.cons_append, hpoint,
      skipDigits?_append ne' digits' (by simp), Option.bind_some, skipExponent?_append h hrest]

/-! ### Telling numbers apart -/

theorem Tail.chars (h : Tail tail) : ∀ c ∈ tail, c ∈ Naming.numberChars := by
  have hdigits : ∀ {fs : List Char}, AllDigits fs → ∀ c ∈ fs, c ∈ Naming.numberChars :=
    fun digits c hc => Naming.mem_numberChars_of_isDigit (digits c hc)
  have hmark : 'e' ∈ Naming.numberChars ∧ '.' ∈ Naming.numberChars := by decide
  cases h with
  | whole => simp
  | fraction ne digits => exact List.forall_mem_cons.2 ⟨hmark.2, hdigits digits⟩
  | exponent h => exact List.forall_mem_cons.2 ⟨hmark.1, Naming.Spelled.chars_exponent h⟩
  | scientific ne digits h =>
    exact List.forall_mem_cons.2 ⟨hmark.2, List.forall_mem_append.2 ⟨hdigits digits,
      List.forall_mem_cons.2 ⟨hmark.1, Naming.Spelled.chars_exponent h⟩⟩⟩

theorem Written.chars (h : Written cs) : ∀ c ∈ cs, c ∈ Naming.numberChars := by
  have hunsigned : ∀ {ds tail}, Unsigned ds tail → ∀ c ∈ ds ++ tail, c ∈ Naming.numberChars :=
    fun h => List.forall_mem_append.2
      ⟨fun c hc => Naming.mem_numberChars_of_isDigit (h.digits c hc), h.tail.chars⟩
  cases h with
  | plain h => exact hunsigned h
  | minus h => exact List.forall_mem_cons.2 ⟨by decide, hunsigned h⟩

/-- Texts of numbers end where the first stop is. -/
theorem Written.append_inj {cs' rest' : List Char} (h : Written cs) (h' : Written cs')
    (hrest : Stops rest) (hrest' : Stops rest') (heq : cs ++ rest = cs' ++ rest') :
    cs = cs' ∧ rest = rest' := by
  have hstop : ∀ {rest : List Char}, Stops rest →
      rest.takeWhile (fun c => decide (c ∈ Naming.numberChars)) = [] := by
    intro rest hrest
    cases rest with
    | nil => rfl
    | cons c rest =>
      have hc : c ∉ Naming.numberChars := by
        rcases hrest c rfl with rfl | rfl | rfl | rfl <;> decide
      simp [hc]
  have htake : ∀ {cs rest : List Char}, Written cs → Stops rest →
      (cs ++ rest).takeWhile (fun c => decide (c ∈ Naming.numberChars)) = cs := by
    intro cs rest h hrest
    rw [List.takeWhile_append_of_pos (by simpa using h.chars), hstop hrest, List.append_nil]
  have hcs : cs = cs' := by rw [← htake h hrest, heq, htake h' hrest']
  subst hcs
  exact ⟨rfl, List.append_cancel_left heq⟩

theorem toList_write_of_isFinite {x : Float} (h : x.isFinite = true) :
    (Notation.json.write x).toList =
      signText x ++ Notation.json.layout ((Magnitude.ofBits x.toBits).shortest .toEven) := by
  rw [Notation.write, signText, Integrity.isNaN_of_isFinite h, isInf_of_isFinite h]
  cases signBit x <;> simp [Notation.json]

/-- Finite doubles with one text are the same. -/
theorem write_inj_of_isFinite {x y : Float} (hx : x.isFinite = true) (hy : y.isFinite = true)
    (h : Notation.json.write x = Notation.json.write y) : x = y := by
  have hnumeral : ∀ z : Float, Numeral
      (Notation.json.layout ((Magnitude.ofBits z.toBits).shortest .toEven))
      ((Magnitude.ofIndex (z.toBits.toNat % 2 ^ 63)).shortest .toEven).value := by
    intro z
    rw [← Magnitude.ofBits_eq_ofIndex]
    exact numeral_layout _ _
  have hminus : ∀ (z : Float) (rest : List Char),
      Notation.json.layout ((Magnitude.ofBits z.toBits).shortest .toEven) ≠ '-' :: rest :=
    fun z => (hnumeral z).ne_cons (by decide)
  have htext := congrArg String.toList h
  rw [toList_write_of_isFinite hx, toList_write_of_isFinite hy] at htext
  obtain ⟨hsign, hbody⟩ := signText_append_inj htext (hminus x) (hminus y)
  have hvalue := (hnumeral x).unique (hbody ▸ hnumeral y)
  exact eq_of_index (signBit_of_signText hsign (Integrity.isNaN_of_isFinite hx)
    (Integrity.isNaN_of_isFinite hy)) (Magnitude.eq_of_value_shortest hvalue)

/-- The text of a double has a point or an exponent in it, that of an integer has not. -/
theorem write_ne_int_of_isFinite {x : Float} (h : x.isFinite = true) (n : ℤ) :
    (Notation.json.write x).toList ≠ (toString n).toList := by
  intro heq
  rw [toList_write_of_isFinite h] at heq
  have hmem : ∀ c ∈ Notation.json.layout ((Magnitude.ofBits x.toBits).shortest .toEven),
      c.isDigit = true ∨ c = '-' :=
    fun c hc => Naming.digit_or_minus_of_int (heq ▸ List.mem_append_right _ hc)
  rcases point_or_exponent_mem_layout (show Notation.json.pointZero = true from rfl)
    ((Magnitude.ofBits x.toBits).shortest .toEven) with hc | hc
  · exact absurd (hmem _ hc) (by decide)
  · exact absurd (hmem _ hc) (by decide)

/-- Finite numbers with one text are the same, and of one kind. -/
theorem number_inj {n m : Number} (hn : n.Finite) (hm : m.Finite) (h : number n = number m) :
    n = m := by
  cases n with
  | int n =>
    cases m with
    | int m => exact congrArg Number.int (Int.repr_inj.1 (String.toList_injective h))
    | float y => exact absurd h.symm (write_ne_int_of_isFinite hm n)
  | float x =>
    cases m with
    | int m => exact absurd h (write_ne_int_of_isFinite hn m)
    | float y =>
      exact congrArg Number.float (write_inj_of_isFinite hn hm (String.toList_injective h))

theorem number_append_inj {n m : Number} {rest' : List Char} (hn : n.Finite) (hm : m.Finite)
    (hrest : Stops rest) (hrest' : Stops rest') (h : number n ++ rest = number m ++ rest') :
    n = m ∧ rest = rest' := by
  obtain ⟨htext, hbehind⟩ :=
    (written_number hn).append_inj (written_number hm) hrest hrest' h
  exact ⟨number_inj hn hm htext, hbehind⟩

end Json

end ParamSweep
