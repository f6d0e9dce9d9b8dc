import Mathlib
import ParamSweep.Expression.Evaluate
import ParamSweep.Proofs.ExpressionReading

/-!
Integer arithmetic.

An expression of integers has a value over all integers (`Expr.unbounded?`). An evaluation that
gives an integer gives that one, and where every part has a value of 64 bits it does give an integer.
The operators check what they compute, apart from the remainder: that is computed on machine
integers, and nothing wraps (`toInt_rem_add`).
-/

namespace ParamSweep.Expression

variable {context : Entries Value} {e p : Expr} {x y n : Int}

/-! ### Values over all integers -/

/-- An operator on unbounded integers. The remainder has the sign of the divisor; there is none by
zero and no power to a negative number, and a quotient is not taken as an integer. -/
def BinOp.unbounded? : BinOp → Int → Int → Option Int
  | .add, x, y => some (x + y)
  | .sub, x, y => some (x - y)
  | .mul, x, y => some (x * y)
  | .div, _, _ => none
  | .mod, x, y => if y = 0 then none else some (x.fmod y)
  | .pow, x, y => if 0 ≤ y then some (Int.pow x y.toNat) else none

/-- The integer that a value of the context stands for. -/
def integer? : Value → Option Int
  | .num (.int n) => some n
  | .bool b => some (if b then 1 else 0)
  | _ => none

/-- The value of an expression over unbounded integers. -/
def Expr.unbounded? (context : Entries Value) : Expr → Option Int
  | .num (.int n) => some n
  | .num (.float _) => none
  | .var name => (context.lookup name).bind integer?
  | .neg e => (e.unbounded? context).map (- ·)
  | .binary op l r => do op.unbounded? (← l.unbounded? context) (← r.unbounded? context)
  | .call _ _ => none

/-- Expressions of integer literals and of integers and truth values of the context, with every
operator but the quotient. -/
inductive Integral (context : Entries Value) : Expr → Prop
  | literal (n : Int) : Integral context (.num (.int n))
  | variable {name : String} {v : Value} {n : Int} (h : context.lookup name = some v)
    (hv : integer? v = some n) : Integral context (.var name)
  | neg {e : Expr} (he : Integral context e) : Integral context (.neg e)
  | binary {op : BinOp} {l r : Expr} (hop : op ≠ .div) (hl : Integral context l)
    (hr : Integral context r) : Integral context (.binary op l r)

/-- The first expression is a part of the second one, or all of it. -/
inductive Part : Expr → Expr → Prop
  | whole (e : Expr) : Part e e
  | operand {p e : Expr} (h : Part p e) : Part p (.neg e)
  | left {p l r : Expr} {op : BinOp} (h : Part p l) : Part p (.binary op l r)
  | right {p l r : Expr} {op : BinOp} (h : Part p r) : Part p (.binary op l r)
  | argument {p e : Expr} {function : String} {arguments : List Expr} (he : e ∈ arguments)
    (h : Part p e) : Part p (.call function arguments)

/-- The value of every part has 64 bits, no divisor of a remainder is zero, and no exponent is
negative or has more than 32 bits. -/
structure Bounded (context : Entries Value) (e : Expr) : Prop where
  value : ∀ p n, Part p e → p.unbounded? context = some n → minInt ≤ n ∧ n ≤ maxInt
  divisor : ∀ l r, Part (.binary .mod l r) e → r.unbounded? context ≠ some 0
  exponent : ∀ l r n, Part (.binary .pow l r) e → r.unbounded? context = some n →
    0 ≤ n ∧ n < 0x100000000

theorem Bounded.of_part (h : Bounded context e) (hpart : ∀ {q : Expr}, Part q p → Part q e) :
    Bounded context p where
  value q n hq := h.value q n (hpart hq)
  divisor l r hq := h.divisor l r (hpart hq)
  exponent l r n hq := h.exponent l r n (hpart hq)

/-! ### Integers of 64 bits -/

theorem fits_iff : fits n = true ↔ minInt ≤ n ∧ n ≤ maxInt := by
  rw [fits, Bool.and_eq_true, decide_eq_true_iff, decide_eq_true_iff]

theorem checked_eq_some {m : Int} : checked n = some m ↔ n = m ∧ fits n = true := by
  rw [checked]
  split
  · simp [*]
  · simp [*]

theorem checked_of_fits (h : fits n = true) : checked n = some n := checked_eq_some.2 ⟨rfl, h⟩

theorem toInt_ofInt_of_fits (h : fits n = true) : (Int64.ofInt n).toInt = n := by
  obtain ⟨hlow, hhigh⟩ := fits_iff.1 h
  simp only [minInt, maxInt] at hlow hhigh
  exact Int64.toInt_ofInt_of_le (by omega) (by omega)

theorem fits_toInt (x : Int64) : fits x.toInt = true := by
  have hlow := x.le_toInt
  have hhigh := x.toInt_lt
  rw [fits_iff, minInt, maxInt]
  omega

/-! ### The remainder -/

/-- Where the truncated remainder and the divisor have different signs, the floored remainder is
their sum. -/
theorem fmod_eq_of_tmod (hy : y ≠ 0) :
    x.fmod y = if x.tmod y ≠ 0 ∧ ¬ (x.tmod y < 0 ↔ y < 0) then x.tmod y + y else x.tmod y := by
  have hnonneg := Int.emod_nonneg x hy
  have hlt := Int.emod_lt x hy
  have hdvd : y ∣ x ↔ x % y = 0 := Int.dvd_iff_emod_eq_zero
  simp only [Int.fmod_eq_emod, Int.tmod_eq_emod, hdvd]
  split_ifs <;> omega

theorem fmod_bounds (hy : y ≠ 0) :
    (x.fmod y).natAbs < y.natAbs ∧ (x.fmod y = 0 ∨ (x.fmod y < 0 ↔ y < 0)) := by
  have hnonneg := Int.emod_nonneg x hy
  have hlt := Int.emod_lt x hy
  have hdvd : y ∣ x ↔ x % y = 0 := Int.dvd_iff_emod_eq_zero
  simp only [Int.fmod_eq_emod, hdvd]
  split_ifs <;> omega

theorem toInt_rem_add (x y : Int64) (hsign : decide (x % y < 0) ≠ decide (y < 0)) :
    (x % y + y).toInt = (x % y).toInt + y.toInt := by
  have hr := (x % y).le_toInt
  have hr' := (x % y).toInt_lt
  have hy := y.le_toInt
  have hy' := y.toInt_lt
  rw [Int64.toInt_add]
  simp only [Int64.lt_iff_toInt_lt, ne_eq, decide_eq_decide, Int64.toInt_zero] at hsign
  apply Int.bmod_eq_of_le <;> omega

theorem toInt_floorMod {x y : Int64} (hy : y ≠ 0) :
    (floorMod x y).toInt = x.toInt.fmod y.toInt := by
  have hy' : y.toInt ≠ 0 := fun h => hy (Int64.toInt_inj.1 h)
  have hr : x % y ≠ 0 ↔ x.toInt.tmod y.toInt ≠ 0 := by
    rw [← Int64.toInt_mod, Ne, ← Int64.toInt_inj, Int64.toInt_zero]
  have hs : decide (x % y < 0) ≠ decide (y < 0) ↔ ¬ (x.toInt.tmod y.toInt < 0 ↔ y.toInt < 0) := by
    rw [Ne, decide_eq_decide, Int64.lt_iff_toInt_lt, Int64.lt_iff_toInt_lt, Int64.toInt_mod,
      Int64.toInt_zero]
  rw [fmod_eq_of_tmod hy', floorMod]
  by_cases hmoved : x % y ≠ 0 ∧ decide (x % y < 0) ≠ decide (y < 0)
  · rw [if_pos hmoved, if_pos ⟨hr.1 hmoved.1, hs.1 hmoved.2⟩, toInt_rem_add x y hmoved.2,
      Int64.toInt_mod]
  · rw [if_neg hmoved, if_neg fun h => hmoved ⟨hr.2 h.1, hs.2 h.2⟩, Int64.toInt_mod]

theorem toInt_floorMod_ofInt (hx : fits x = true) (hy : fits y = true) (hzero : y ≠ 0) :
    (floorMod (Int64.ofInt x) (Int64.ofInt y)).toInt = x.fmod y := by
  have hne : Int64.ofInt y ≠ 0 := fun h => hzero (by
    rw [← toInt_ofInt_of_fits hy, h, Int64.toInt_zero])
  rw [toInt_floorMod hne, toInt_ofInt_of_fits hx, toInt_ofInt_of_fits hy]

/-- Beyond an exponent of 63 every base but -1, 0 and 1 has a power of more than 64 bits. -/
theorem not_fits_pow {y : Nat} (hx : 2 ≤ x.natAbs) (hy : 64 ≤ y) : fits (Int.pow x y) = false := by
  have hpow : 2 ^ 64 ≤ (Int.pow x y).natAbs := by
    show 2 ^ 64 ≤ (x ^ y).natAbs
    rw [Int.natAbs_pow]
    exact Nat.le_trans (Nat.pow_le_pow_right (by decide) hy) (Nat.pow_le_pow_left hx y)
  rw [← Bool.not_eq_true, fits_iff, minInt, maxInt]
  omega

theorem pow_parity {y : Nat} (hx : x.natAbs ≤ 1) (hy : 64 ≤ y) :
    Int.pow x (2 + y % 2) = Int.pow x y ∧ fits (Int.pow x y) = true := by
  have hcases : x = -1 ∨ x = 0 ∨ x = 1 := by omega
  show x ^ (2 + y % 2) = x ^ y ∧ fits (x ^ y) = true
  obtain rfl | rfl | rfl := hcases
  · have hparity : (-1 : Int) ^ (2 + y % 2) = (-1) ^ y := by
      conv_rhs => rw [← Nat.div_add_mod y 2]
      rw [pow_add, pow_add, pow_mul]
      simp
    refine ⟨hparity, ?_⟩
    obtain h | h := neg_one_pow_eq_or Int y <;> rw [h] <;> decide
  · rw [zero_pow (by omega), zero_pow (by omega)]
    exact ⟨rfl, rfl⟩
  · simp only [one_pow]
    exact ⟨trivial, rfl⟩

theorem powInt?_eq (x : Int) (y : Nat) : powInt? x y = checked (Int.pow x y) := by
  rw [powInt?]
  split
  · rfl
  · split
    · obtain ⟨hpow, hfits⟩ := pow_parity (x := x) (y := y) ‹_› (by omega)
      rw [hpow, checked_of_fits hfits]
    · rw [checked, not_fits_pow (by omega) (by omega)]
      rfl

/-! ### One operator -/

/-- An operator that gives an integer gives the exact one. -/
theorem unbounded?_of_applyInt? {op : BinOp} (hx : fits x = true) (hy : fits y = true)
    (hzero : op = .mod → y ≠ 0) (h : applyInt? op x y = some n) :
    op.unbounded? x y = some n ∧ fits n = true := by
  cases op with
  | add | sub | mul =>
    obtain ⟨rfl, hfits⟩ := checked_eq_some.1 h
    exact ⟨rfl, hfits⟩
  | div => cases h
  | mod =>
    obtain rfl := Option.some.inj h
    refine ⟨?_, fits_toInt _⟩
    rw [toInt_floorMod_ofInt hx hy (hzero rfl), BinOp.unbounded?, if_neg (hzero rfl)]
  | pow =>
    rw [applyInt?] at h
    split at h
    · rename_i hexponent
      rw [powInt?_eq] at h
      obtain ⟨rfl, hfits⟩ := checked_eq_some.1 h
      refine ⟨?_, hfits⟩
      rw [BinOp.unbounded?, if_pos (of_decide_eq_true (Bool.and_eq_true_iff.1 hexponent).1)]
    · cases h

/-- An operator whose exact value has 64 bits gives it. -/
theorem applyInt?_of_unbounded? {op : BinOp} (hx : fits x = true) (hy : fits y = true)
    (hexponent : op = .pow → y < 0x100000000) (h : op.unbounded? x y = some n)
    (hn : fits n = true) :
    applyInt? op x y = some n := by
  cases op with
  | add | sub | mul =>
    obtain rfl := Option.some.inj h
    exact checked_of_fits hn
  | div => cases h
  | mod =>
    rw [BinOp.unbounded?] at h
    split at h
    · cases h
    · rw [applyInt?, toInt_floorMod_ofInt hx hy ‹_›, h]
  | pow =>
    rw [BinOp.unbounded?] at h
    split at h
    · obtain rfl := Option.some.inj h
      have hlow := hexponent rfl
      have hguard : (decide (0 ≤ y) && decide (y.toNat ≤ maxExponent)) = true := by
        rw [Bool.and_eq_true_iff, decide_eq_true_iff, decide_eq_true_iff, maxExponent]
        omega
      rw [applyInt?, if_pos hguard, powInt?_eq, checked_of_fits hn]
    · cases h

theorem applyDouble_ne_int {op : BinOp} {a b : Float} : applyDouble op a b ≠ .ok (.int n) := by
  intro h
  cases op with
  | add | sub | mul | pow => cases h
  | div | mod =>
    rw [applyDouble] at h
    split at h <;> cases h

/-- Integers come of integers only. -/
theorem applyBinary_int {op : BinOp} {a b : Number} (h : applyBinary op a b = .ok (.int n)) :
    ∃ x y, a = .int x ∧ b = .int y ∧ (op = .mod → y ≠ 0) ∧ applyInt? op x y = some n := by
  unfold applyBinary at h
  split at h
  · cases h
  · cases h
  · rename_i x y hmod hdiv
    split at h
    · rename_i m hm
      cases h
      refine ⟨x, y, rfl, rfl, ?_, hm⟩
      rintro rfl rfl
      exact hmod rfl rfl
    · exact absurd h applyDouble_ne_int
  · exact absurd h applyDouble_ne_int

theorem applyBinary_of_applyInt? {op : BinOp} (hzero : op = .mod → y ≠ 0)
    (h : applyInt? op x y = some n) : applyBinary op (.int x) (.int y) = .ok (.int n) := by
  cases op with
  | add | sub | mul | pow => rw [applyBinary, h] <;> exact nofun
  | div => cases h
  | mod => rw [applyBinary, h] <;> simp [hzero rfl]

/-! ### The literals of a text -/

theorem fits_of_readNumber? {text : List Char} {decimal : Bool}
    (h : readNumber? text decimal = some (.int n)) : fits n = true := by
  rw [readNumber?] at h
  split at h
  · obtain ⟨x, -, hx⟩ := Option.map_eq_some_iff.1 h
    cases hx
  · obtain ⟨m, hm, hn⟩ := Option.map_eq_some_iff.1 h
    cases hn
    obtain ⟨rfl, hfits⟩ := checked_eq_some.1 hm
    exact hfits

/-- The integers among the words have 64 bits. -/
def Words.Fit (ws : Words) : Prop := ∀ n : Int, Token.num (.int n) ∈ ws.tokens → fits n = true

theorem Spells.fits_of_int {text : List Char} (h : Spells text (.num (.int n))) :
    fits n = true := by
  generalize hword : Token.num (.int n) = t at h
  cases h with
  | symbol hsymbol => exact absurd hword.symm ((symbol?_ne hsymbol).1 _)
  | number hread =>
    cases hword
    exact fits_of_readNumber? hread
  | _ => cases hword

theorem fit_tokens {fuel offset : Nat} {cs : List Char} {ws : Words}
    (h : tokens fuel offset cs = .ok ws) : ws.Fit := by
  intro n hn
  obtain ⟨⟨o, t⟩, hw, rfl⟩ := List.mem_map.1 hn
  obtain ⟨-, text, -, -, -, hspells⟩ := standsIn_of_mem_tokens h _ hw
  exact hspells.fits_of_int

namespace Grammar

mutual

/-- The numbers in the expression of a derivation are among its words. -/
theorem Sum.mem_words : ∀ {s : Sum} {n : Number}, Part (.num n) s.tree → Token.num n ∈ s.words
  | .mk p t, n, h => by
    rw [Sum.words, List.mem_append]
    exact (Addends.mem_words (t := t) h).imp_left Product.mem_words

theorem Addends.mem_words : ∀ {t : Addends} {left : Expr} {n : Number},
    Part (.num n) (t.treeAfter left) → Part (.num n) left ∨ Token.num n ∈ t.words
  | .nil, _, _, h => Or.inl h
  | .cons op p t, left, n, h => by
    rw [Addends.words, List.mem_cons, List.mem_append]
    obtain h | h := Addends.mem_words (t := t) h
    · cases h with
      | left h => exact Or.inl h
      | right h => exact Or.inr (Or.inr (Or.inl (Product.mem_words h)))
    · exact Or.inr (Or.inr (Or.inr h))

theorem Product.mem_words : ∀ {p : Product} {n : Number},
    Part (.num n) p.tree → Token.num n ∈ p.words
  | .mk u t, n, h => by
    rw [Product.words, List.mem_append]
    exact (Factors.mem_words (t := t) h).imp_left Unary.mem_words

theorem Factors.mem_words : ∀ {t : Factors} {left : Expr} {n : Number},
    Part (.num n) (t.treeAfter left) → Part (.num n) left ∨ Token.num n ∈ t.words
  | .nil, _, _, h => Or.inl h
  | .cons op u t, left, n, h => by
    rw [Factors.words, List.mem_cons, List.mem_append]
    obtain h | h := Factors.mem_words (t := t) h
    · cases h with
      | left h => exact Or.inl h
      | right h => exact Or.inr (Or.inr (Or.inl (Unary.mem_words h)))
    · exact Or.inr (Or.inr (Or.inr h))

theorem Unary.mem_words : ∀ {u : Unary} {n : Number},
    Part (.num n) u.tree → Token.num n ∈ u.words
  | .minus u, _, .operand h => List.mem_cons_of_mem _ (Unary.mem_words h)
  | .plus u, _, h => List.mem_cons_of_mem _ (Unary.mem_words (u := u) h)
  | .power p, _, h => Power.mem_words (p := p) h

theorem Power.mem_words : ∀ {p : Power} {n : Number},
    Part (.num n) p.tree → Token.num n ∈ p.words
  | .mk a x, n, h => by
    rw [Power.words, List.mem_append]
    exact (Exponent.mem_words (x := x) h).imp_left Atom.mem_words

theorem Exponent.mem_words : ∀ {x : Exponent} {base : Expr} {n : Number},
    Part (.num n) (x.treeAfter base) → Part (.num n) base ∨ Token.num n ∈ x.words
  | .nil, _, _, h => Or.inl h
  | .mk u, _, _, .left h => Or.inl h
  | .mk u, _, _, .right h => Or.inr (List.mem_cons_of_mem _ (Unary.mem_words h))

theorem Atom.mem_words : ∀ {a : Atom} {n : Number}, Part (.num n) a.tree → Token.num n ∈ a.words
  | .number n, _, .whole _ => List.mem_cons_self
  | .name x, _, h => nomatch h
  | .emptyCall f, _, .argument he _ => absurd he List.not_mem_nil
  | .call f as, _, .argument he h => by
    rw [Atom.words]
    exact List.mem_cons_of_mem _ (List.mem_cons_of_mem _
      (List.mem_append_left _ (Arguments.mem_words he h)))
  | .bracketed s, _, h => by
    rw [Atom.words]
    exact List.mem_cons_of_mem _ (List.mem_append_left _ (Sum.mem_words (s := s) h))

theorem Arguments.mem_words : ∀ {as : Arguments} {e : Expr} {n : Number}, e ∈ as.trees →
    Part (.num n) e → Token.num n ∈ as.words
  | .last s, e, n, he, h => by
    obtain rfl := List.mem_singleton.1 he
    exact Sum.mem_words h
  | .more s as, e, n, he, h => by
    rw [Arguments.words, List.mem_append, List.mem_cons]
    obtain rfl | he := List.mem_cons.1 he
    · exact Or.inl (Sum.mem_words h)
    · exact Or.inr (Or.inr (Arguments.mem_words he h))

end

end Grammar

/-- The literals of a text have 64 bits. -/
theorem fits_of_read {text : String} (h : read text = .ok e) (hn : Part (.num (.int n)) e) :
    fits n = true := by
  obtain ⟨ws, htokens, hws⟩ := except_bind_ok h
  obtain ⟨s, hs, rfl⟩ := derivation_of_ofWords hws
  refine fit_tokens htokens n ?_
  rw [← hs]
  exact Grammar.Sum.mem_words hn

/-! ### Evaluation -/

theorem numberOf_int {name : String} {v : Value} (h : numberOf name v = .ok (.int n)) :
    integer? v = some n ∧ fits n = true := by
  unfold numberOf at h
  split at h
  · split at h
    · cases h
      exact ⟨rfl, ‹_›⟩
    · cases h
  · cases h
  · cases h
    exact ⟨rfl, by split <;> rfl⟩
  · cases h

theorem numberOf_of_fits {name : String} {v : Value} (hv : integer? v = some n)
    (hn : fits n = true) : numberOf name v = .ok (.int n) := by
  unfold integer? at hv
  split at hv
  · cases hv
    rw [numberOf, if_pos hn]
  · cases hv
    rfl
  · cases hv

theorem negate_int {a : Number} (h : negate a = .int n) :
    ∃ x, a = .int x ∧ n = -x ∧ fits n = true := by
  unfold negate at h
  split at h
  · split at h
    · rename_i x _ m hm
      cases h
      obtain ⟨rfl, hfits⟩ := checked_eq_some.1 hm
      exact ⟨x, rfl, rfl, hfits⟩
    · cases h
  · cases h

/-- An evaluation that gives an integer gives the exact one, of 64 bits. -/
theorem Integral.unbounded?_of_eval (h : Integral context e)
    (hliterals : ∀ n, Part (.num (.int n)) e → fits n = true)
    (heval : e.eval context = .ok (.int n)) : e.unbounded? context = some n ∧ fits n = true := by
  induction h generalizing n with
  | literal m =>
    cases heval
    exact ⟨rfl, hliterals _ (.whole _)⟩
  | «variable» hlookup _ =>
    rw [Expr.eval, hlookup] at heval
    rw [Expr.unbounded?, hlookup]
    exact numberOf_int heval
  | neg he ih =>
    obtain ⟨a, ha, hneg⟩ := except_bind_ok heval
    obtain ⟨x, rfl, rfl, hfits⟩ := negate_int (Except.ok.inj hneg)
    obtain ⟨hx, -⟩ := ih (fun m hm => hliterals m hm.operand) ha
    exact ⟨by rw [Expr.unbounded?, hx]; rfl, hfits⟩
  | binary hop hl hr ihl ihr =>
    obtain ⟨a, ha, hrest⟩ := except_bind_ok heval
    obtain ⟨b, hb, happly⟩ := except_bind_ok hrest
    obtain ⟨x, y, rfl, rfl, hzero, hn⟩ := applyBinary_int happly
    obtain ⟨hx, hxfits⟩ := ihl (fun m hm => hliterals m hm.left) ha
    obtain ⟨hy, hyfits⟩ := ihr (fun m hm => hliterals m hm.right) hb
    obtain ⟨hexact, hfits⟩ := unbounded?_of_applyInt? hxfits hyfits hzero hn
    exact ⟨by rw [Expr.unbounded?, hx, hy]; exact hexact, hfits⟩

theorem unbounded?_of_bounds {op : BinOp} (hop : op ≠ .div) (hzero : op = .mod → y ≠ 0)
    (hexponent : op = .pow → 0 ≤ y) : ∃ n, op.unbounded? x y = some n := by
  cases op with
  | add | sub | mul => exact ⟨_, rfl⟩
  | div => exact absurd rfl hop
  | mod => exact ⟨_, if_neg (hzero rfl)⟩
  | pow => exact ⟨_, if_pos (hexponent rfl)⟩

/-- Where the values of all parts have 64 bits there is an exact value, and the evaluation gives
it. -/
theorem Integral.eval_of_bounded (h : Integral context e) (hbounded : Bounded context e) :
    ∃ n, e.unbounded? context = some n ∧ e.eval context = .ok (.int n) := by
  induction h with
  | literal m => exact ⟨m, rfl, rfl⟩
  | @«variable» name v n hlookup hv =>
    have hexact : (Expr.var name).unbounded? context = some n := by
      rw [Expr.unbounded?, hlookup]
      exact hv
    have hfits := fits_iff.2 (hbounded.value _ n (.whole _) hexact)
    exact ⟨n, hexact, by rw [Expr.eval, hlookup]; exact numberOf_of_fits hv hfits⟩
  | @neg e he ih =>
    obtain ⟨x, hx, hevalx⟩ := ih (hbounded.of_part .operand)
    have hexact : e.neg.unbounded? context = some (-x) := by
      rw [Expr.unbounded?, hx]
      rfl
    have hfits := fits_iff.2 (hbounded.value _ _ (.whole _) hexact)
    refine ⟨-x, hexact, ?_⟩
    rw [Expr.eval, hevalx, except_ok_bind, negate, checked_of_fits hfits]
  | @binary op l r hop hl hr ihl ihr =>
    obtain ⟨x, hx, hevalx⟩ := ihl (hbounded.of_part .left)
    obtain ⟨y, hy, hevaly⟩ := ihr (hbounded.of_part .right)
    have hzero : op = .mod → y ≠ 0 := by
      rintro rfl rfl
      exact hbounded.divisor l r (.whole _) hy
    have hexponent : op = .pow → 0 ≤ y ∧ y < 0x100000000 := by
      rintro rfl
      exact hbounded.exponent l r y (.whole _) hy
    obtain ⟨n, hn⟩ := unbounded?_of_bounds (x := x) hop hzero fun h => (hexponent h).1
    have hexact : (Expr.binary op l r).unbounded? context = some n := by
      rw [Expr.unbounded?, hx, hy]
      exact hn
    have hxfits := fits_iff.2 (hbounded.value l x (.left (.whole _)) hx)
    have hyfits := fits_iff.2 (hbounded.value r y (.right (.whole _)) hy)
    have hfits := fits_iff.2 (hbounded.value _ n (.whole _) hexact)
    have happly := applyInt?_of_unbounded? hxfits hyfits (fun h => (hexponent h).2) hn hfits
    refine ⟨n, hexact, ?_⟩
    rw [Expr.eval, hevalx, except_ok_bind, hevaly, except_ok_bind]
    exact applyBinary_of_applyInt? hzero happly

theorem Part.integral (hp : Part p e) (h : Integral context e) : Integral context p := by
  induction hp with
  | whole => exact h
  | operand hp ih =>
    cases h with
    | neg he => exact ih he
  | left hp ih =>
    cases h with
    | binary hop hl hr => exact ih hl
  | right hp ih =>
    cases h with
    | binary hop hl hr => exact ih hr
  | argument he hp ih => cases h

theorem Part.trans {q : Expr} (hpq : Part q p) (hp : Part p e) : Part q e := by
  induction hp with
  | whole => exact hpq
  | operand _ ih => exact .operand ih
  | left _ ih => exact .left ih
  | right _ ih => exact .right ih
  | argument he _ ih => exact .argument he ih

/-- Integer arithmetic is exact. An evaluation that gives an integer gives the value over unbounded
integers, and where that of every part has 64 bits, with divisors other than zero and exponents of
32 bits, an integer is given. What parts are evaluated to has 64 bits. The remainder of machine
integers is the floored one, with the sign and less than the magnitude of the divisor, and neither
of its two steps wraps. -/
theorem evaluate_integral {text : String} (hread : read text = .ok e)
    (hintegral : Integral context e) :
    (∀ n, evaluate text context = .ok (.int n) → e.unbounded? context = some n) ∧
    (Bounded context e →
      ∃ n, e.unbounded? context = some n ∧ evaluate text context = .ok (.int n)) ∧
    (∀ p n, Part p e → p.eval context = .ok (.int n) →
      p.unbounded? context = some n ∧ minInt ≤ n ∧ n ≤ maxInt) ∧
    ∀ x y : Int64, y ≠ 0 →
      (x % y).toInt = x.toInt.tmod y.toInt ∧
      (decide (x % y < 0) ≠ decide (y < 0) → (x % y + y).toInt = (x % y).toInt + y.toInt) ∧
      (floorMod x y).toInt = x.toInt.fmod y.toInt ∧
      (floorMod x y).toInt.natAbs < y.toInt.natAbs ∧
      (floorMod x y = 0 ∨ (floorMod x y < 0 ↔ y < 0)) := by
  have heval : evaluate text context = e.eval context := by rw [evaluate, hread]
  have hpart : ∀ p n, Part p e → p.eval context = .ok (.int n) →
      p.unbounded? context = some n ∧ fits n = true := fun p n hp hn =>
    (hp.integral hintegral).unbounded?_of_eval (fun m hm => fits_of_read hread (hm.trans hp)) hn
  refine ⟨fun n hn => ?_, fun hbounded => ?_, fun p n hp hn => ?_, fun x y hy => ?_⟩
  · exact (hpart e n (.whole e) (heval ▸ hn)).1
  · rw [heval]
    exact hintegral.eval_of_bounded hbounded
  · obtain ⟨hexact, hfits⟩ := hpart p n hp hn
    exact ⟨hexact, fits_iff.1 hfits⟩
  · have hy' : y.toInt ≠ 0 := fun h => hy (Int64.toInt_inj.1 h)
    have hmod := toInt_floorMod (x := x) hy
    obtain ⟨hsmaller, hsign⟩ := fmod_bounds (x := x.toInt) hy'
    refine ⟨Int64.toInt_mod x y, toInt_rem_add x y, hmod, hmod ▸ hsmaller, ?_⟩
    rwa [← hmod, ← Int64.toInt_zero, Int64.toInt_inj, ← Int64.lt_iff_toInt_lt,
      ← Int64.lt_iff_toInt_lt] at hsign

/-- A context with the least integer of 64 bits. -/
def leastContext : Entries Value := [("m", .num (.int minInt))]

/-- The machine's quotient of these two would wrap, and their remainder is exact. -/
theorem evaluate_least_mod_minus_one :
    read "m % -1" = .ok (.binary .mod (.var "m") (.neg (.num (.int 1)))) ∧
    Integral leastContext (.binary .mod (.var "m") (.neg (.num (.int 1)))) ∧
    Bounded leastContext (.binary .mod (.var "m") (.neg (.num (.int 1)))) ∧
    evaluate "m % -1" leastContext = .ok (.int 0) := by
  have hread : read "m % -1" = .ok (.binary .mod (.var "m") (.neg (.num (.int 1)))) := by cbv
  have hvar : (Expr.var "m").unbounded? leastContext = some minInt := by cbv
  have hdivisor : (Expr.neg (.num (.int 1))).unbounded? leastContext = some (-1) := rfl
  have hvalue : (Expr.binary .mod (.var "m") (.neg (.num (.int 1)))).unbounded? leastContext =
      some 0 := by cbv
  have hintegral : Integral leastContext (.binary .mod (.var "m") (.neg (.num (.int 1)))) :=
    .binary (by decide) (.variable (v := .num (.int minInt)) (n := minInt) (by cbv) rfl)
      (.neg (.literal 1))
  have hbounded : Bounded leastContext (.binary .mod (.var "m") (.neg (.num (.int 1)))) := by
    refine ⟨fun p n hp hn => ?_, fun l r hp => ?_, fun l r n hp => ?_⟩
    · cases hp with
      | whole =>
        obtain rfl := Option.some.inj (hvalue.symm.trans hn)
        decide
      | left h =>
        cases h
        obtain rfl := Option.some.inj (hvar.symm.trans hn)
        decide
      | right h =>
        cases h with
        | whole =>
          obtain rfl := Option.some.inj (hdivisor.symm.trans hn)
          decide
        | operand h =>
          cases h
          obtain rfl := Option.some.inj hn
          decide
    · cases hp with
      | whole =>
        rw [hdivisor]
        decide
      | left h => cases h
      | right h =>
        cases h with
        | operand h => cases h
    · cases hp with
      | left h => cases h
      | right h =>
        cases h with
        | operand h => cases h
  obtain ⟨n, hn, heval⟩ := (evaluate_integral hread hintegral).2.1 hbounded
  obtain rfl := Option.some.inj (hvalue.symm.trans hn)
  exact ⟨hread, hintegral, hbounded, heval⟩

end ParamSweep.Expression
