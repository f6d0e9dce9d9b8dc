import ParamSweep.Expression.Tree

/-!
The grammar of expressions:

    sum       := product (('+' | '-') product)*
    product   := unary (('*' | '/' | '%') unary)*
    unary     := ('-' | '+') unary | power
    power     := atom (('**' | '^') unary)?
    atom      := number | name | name '(' [arguments] ')' | '(' sum ')'
    arguments := sum (',' sum)*

A derivation is a tree with one constructor for each alternative of a rule. It has the words that
it derives, and an expression: the operators of a sum or of a product go from left to right, and
what a power raises is its atom, so that powers go from right to left.

No list of words has two derivations: `Sum.eq_of_words_eq`.
-/

namespace ParamSweep.Expression

/-- The words without their offsets. -/
def Words.tokens (ws : Words) : List Token := ws.map Prod.snd

namespace Grammar

/-! ### Derivations -/

/-- The operators between the products of a sum. -/
inductive Additive where
  | plus
  | minus

/-- The operators between the operands of a product. -/
inductive Multiplicative where
  | times
  | over
  | modulo

mutual

/-- The rule `sum`. -/
inductive Sum where
  | mk (first : Product) (rest : Addends)

/-- What follows the first product of a sum. -/
inductive Addends where
  | nil
  | cons (op : Additive) (next : Product) (rest : Addends)

/-- The rule `product`. -/
inductive Product where
  | mk (first : Unary) (rest : Factors)

/-- What follows the first operand of a product. -/
inductive Factors where
  | nil
  | cons (op : Multiplicative) (next : Unary) (rest : Factors)

/-- The rule `unary`. -/
inductive Unary where
  | minus (operand : Unary)
  | plus (operand : Unary)
  | power (p : Power)

/-- The rule `power`. -/
inductive Power where
  | mk (base : Atom) (exponent : Exponent)

/-- What follows the atom of a power. -/
inductive Exponent where
  | nil
  | mk (u : Unary)

/-- The rule `atom`. -/
inductive Atom where
  | number (n : Number)
  | name (x : String)
  | emptyCall (function : String)
  | call (function : String) (arguments : Arguments)
  | bracketed (inner : Sum)

/-- The rule `arguments`. -/
inductive Arguments where
  | last (s : Sum)
  | more (s : Sum) (rest : Arguments)

end

/-! ### The words of a derivation -/

/-- The word for an operator. -/
def Additive.token : Additive → Token
  | .plus => .plus
  | .minus => .minus

@[inherit_doc Additive.token]
def Multiplicative.token : Multiplicative → Token
  | .times => .star
  | .over => .slash
  | .modulo => .percent

mutual

/-- The words that are derived. -/
def Sum.words : Sum → List Token
  | .mk p t => p.words ++ t.words

@[inherit_doc Sum.words]
def Addends.words : Addends → List Token
  | .nil => []
  | .cons op p t => op.token :: (p.words ++ t.words)

@[inherit_doc Sum.words]
def Product.words : Product → List Token
  | .mk u t => u.words ++ t.words

@[inherit_doc Sum.words]
def Factors.words : Factors → List Token
  | .nil => []
  | .cons op u t => op.token :: (u.words ++ t.words)

@[inherit_doc Sum.words]
def Unary.words : Unary → List Token
  | .minus u => .minus :: u.words
  | .plus u => .plus :: u.words
  | .power p => p.words

@[inherit_doc Sum.words]
def Power.words : Power → List Token
  | .mk a x => a.words ++ x.words

@[inherit_doc Sum.words]
def Exponent.words : Exponent → List Token
  | .nil => []
  | .mk u => .pow :: u.words

@[inherit_doc Sum.words]
def Atom.words : Atom → List Token
  | .number n => [.num n]
  | .name x => [.ident x]
  | .emptyCall f => [.ident f, .leftParen, .rightParen]
  | .call f as => .ident f :: .leftParen :: (as.words ++ [.rightParen])
  | .bracketed s => .leftParen :: (s.words ++ [.rightParen])

@[inherit_doc Sum.words]
def Arguments.words : Arguments → List Token
  | .last s => s.words
  | .more s as => s.words ++ .comma :: as.words

end

/-! ### The expression of a derivation -/

/-- The operation that an operator stands for. -/
def Additive.op : Additive → BinOp
  | .plus => .add
  | .minus => .sub

@[inherit_doc Additive.op]
def Multiplicative.op : Multiplicative → BinOp
  | .times => .mul
  | .over => .div
  | .modulo => .mod

mutual

/-- The expression that is derived. -/
def Sum.tree : Sum → Expr
  | .mk p t => t.treeAfter p.tree

/-- The expression of a sum whose products so far have the expression `left`. -/
def Addends.treeAfter : Addends → Expr → Expr
  | .nil, left => left
  | .cons op p t, left => t.treeAfter (.binary op.op left p.tree)

@[inherit_doc Sum.tree]
def Product.tree : Product → Expr
  | .mk u t => t.treeAfter u.tree

/-- The expression of a product whose operands so far have the expression `left`. -/
def Factors.treeAfter : Factors → Expr → Expr
  | .nil, left => left
  | .cons op u t, left => t.treeAfter (.binary op.op left u.tree)

@[inherit_doc Sum.tree]
def Unary.tree : Unary → Expr
  | .minus u => .neg u.tree
  | .plus u => u.tree
  | .power p => p.tree

@[inherit_doc Sum.tree]
def Power.tree : Power → Expr
  | .mk a x => x.treeAfter a.tree

/-- The expression of a power whose atom has the expression `base`. -/
def Exponent.treeAfter : Exponent → Expr → Expr
  | .nil, base => base
  | .mk u, base => .binary .pow base u.tree

@[inherit_doc Sum.tree]
def Atom.tree : Atom → Expr
  | .number n => .num n
  | .name x => .var x
  | .emptyCall f => .call f []
  | .call f as => .call f as.trees
  | .bracketed s => s.tree

/-- The expressions that are derived. -/
def Arguments.trees : Arguments → List Expr
  | .last s => [s.tree]
  | .more s as => s.tree :: as.trees

end

/-! ### Where a derivation ends -/

/-- The words do not go on with an operator of at least a strength, nor with an opening bracket,
which would make a name before it the name of a function. -/
def Stops (least : Nat) (ts : List Token) : Prop :=
  ∀ t, ts.head? = some t → t ≠ .leftParen ∧ ∀ b, t.binding? = some b → b.strength < least

variable {ts ts' : List Token} {least : Nat}

theorem Stops.mono {weaker : Nat} (h : Stops weaker ts) (hle : weaker ≤ least) : Stops least ts :=
  fun t ht => ⟨(h t ht).1, fun b hb => Nat.lt_of_lt_of_le ((h t ht).2 b hb) hle⟩

@[simp] theorem stops_nil : Stops least [] := nofun

theorem stops_cons {t : Token} :
    Stops least (t :: ts) ↔ t ≠ .leftParen ∧ ∀ b, t.binding? = some b → b.strength < least := by
  simp [Stops]

@[simp] theorem stops_rightParen : Stops least (.rightParen :: ts) :=
  stops_cons.2 ⟨nofun, nofun⟩

@[simp] theorem stops_comma : Stops least (.comma :: ts) :=
  stops_cons.2 ⟨nofun, nofun⟩

/-- Words that begin with an operator stop where that operator is too weak. -/
theorem stops_operator {t : Token} {b : Binding} (hb : t.binding? = some b) :
    Stops least (t :: ts) ↔ b.strength < least := by
  have hbracket : t ≠ .leftParen := by
    rintro rfl
    cases hb
  simp only [stops_cons, hb, Option.some.injEq, forall_eq', ne_eq, hbracket, not_false_eq_true,
    true_and]

theorem Additive.binding?_token (op : Additive) :
    op.token.binding? = some { op := op.op, strength := 10 } := by
  cases op <;> rfl

theorem Multiplicative.binding?_token (op : Multiplicative) :
    op.token.binding? = some { op := op.op, strength := 20 } := by
  cases op <;> rfl

theorem stops_additive {op : Additive} : Stops least (op.token :: ts) ↔ 10 < least :=
  stops_operator (Additive.binding?_token op)

theorem stops_multiplicative {op : Multiplicative} :
    Stops least (op.token :: ts) ↔ 20 < least :=
  stops_operator (Multiplicative.binding?_token op)

theorem stops_pow : Stops least (.pow :: ts) ↔ 40 < least := by
  have hb : Token.pow.binding? = some { op := .pow, strength := 40, rightFirst := true } := rfl
  exact stops_operator hb

theorem Stops.ne_leftParen (h : Stops least ts) : ts ≠ .leftParen :: ts' := by
  rintro rfl
  exact (stops_cons.1 h).1 rfl

/-- A product ends where the next one of the sum is added. -/
theorem Addends.stops (t : Addends) (h : Stops 10 ts) : Stops 11 (t.words ++ ts) := by
  cases t with
  | nil => exact h.mono (by decide)
  | cons op p t => exact stops_additive.2 (by decide)

/-- An operand ends where the next one of the product comes in. -/
theorem Factors.stops (t : Factors) (h : Stops 20 ts) : Stops 21 (t.words ++ ts) := by
  cases t with
  | nil => exact h.mono (by decide)
  | cons op u t => exact stops_multiplicative.2 (by decide)

/-- An atom ends where it is raised. -/
theorem Exponent.stops (x : Exponent) (h : Stops signStrength ts) : Stops 41 (x.words ++ ts) := by
  cases x with
  | nil => exact h.mono (by decide)
  | mk u => exact stops_pow.2 (by decide)

/-! ### Where a derivation begins -/

/-- The words that an atom begins with. -/
inductive StartsAtom : Token → Prop
  | number (n : Number) : StartsAtom (.num n)
  | name (x : String) : StartsAtom (.ident x)
  | leftParen : StartsAtom .leftParen

theorem Atom.words_eq_cons (a : Atom) : ∃ t ts, a.words = t :: ts ∧ StartsAtom t := by
  cases a with
  | number n => exact ⟨_, _, rfl, .number n⟩
  | name x => exact ⟨_, _, rfl, .name x⟩
  | emptyCall f => exact ⟨_, _, rfl, .name f⟩
  | call f as => exact ⟨_, _, rfl, .name f⟩
  | bracketed s => exact ⟨_, _, rfl, .leftParen⟩

theorem Power.words_eq_cons (p : Power) : ∃ t ts, p.words = t :: ts ∧ StartsAtom t := by
  obtain ⟨a, x⟩ := p
  obtain ⟨t, ts, h, ht⟩ := a.words_eq_cons
  exact ⟨t, _, congrArg (· ++ x.words) h, ht⟩

theorem Power.words_ne_cons {p : Power} {t : Token} (ht : ¬ StartsAtom t) :
    p.words ++ ts ≠ t :: ts' := by
  obtain ⟨t', _, hp, ht'⟩ := p.words_eq_cons
  rw [hp, List.cons_append]
  intro h
  exact ht ((List.cons.inj h).1 ▸ ht')

theorem Unary.words_ne_rightParen (u : Unary) : u.words ++ ts ≠ .rightParen :: ts' := by
  cases u with
  | minus u => exact nofun
  | plus u => exact nofun
  | power p => exact Power.words_ne_cons nofun

theorem Sum.words_ne_rightParen (s : Sum) : s.words ++ ts ≠ .rightParen :: ts' := by
  obtain ⟨⟨u, t⟩, t'⟩ := s
  simpa [Sum.words, Product.words] using u.words_ne_rightParen

theorem Arguments.words_ne_rightParen (as : Arguments) : as.words ++ ts ≠ .rightParen :: ts' := by
  cases as with
  | last s => exact s.words_ne_rightParen
  | more s as => simpa [Arguments.words] using s.words_ne_rightParen

/-! ### One derivation at most -/

theorem Additive.token_inj {op op' : Additive} (h : op.token = op'.token) : op = op' := by
  cases op <;> cases op' <;> first | rfl | cases h

theorem Multiplicative.token_inj {op op' : Multiplicative} (h : op.token = op'.token) :
    op = op' := by
  cases op <;> cases op' <;> first | rfl | cases h

mutual

/-- Where a text begins with the words of two derivations and both end there, they are the same. -/
theorem Sum.words_inj : ∀ {s s' : Sum} {ts ts' : List Token}, s.words ++ ts = s'.words ++ ts' →
    Stops 10 ts → Stops 10 ts' → s = s' ∧ ts = ts'
  | .mk p t, .mk p' t', ts, ts', h, hts, hts' => by
    simp only [Sum.words, List.append_assoc] at h
    obtain ⟨rfl, hrest⟩ := Product.words_inj h ((t.stops hts).mono (by decide))
      ((t'.stops hts').mono (by decide))
    obtain ⟨rfl, hend⟩ := Addends.words_inj hrest hts hts'
    exact ⟨rfl, hend⟩

theorem Addends.words_inj : ∀ {t t' : Addends} {ts ts' : List Token},
    t.words ++ ts = t'.words ++ ts' → Stops 10 ts → Stops 10 ts' → t = t' ∧ ts = ts'
  | .nil, .nil, _, _, h, _, _ => ⟨rfl, h⟩
  | .nil, .cons op p t, _, _, h, hts, _ => by
    rw [Addends.words, Addends.words, List.nil_append, List.cons_append] at h
    exact absurd (stops_additive.1 (h ▸ hts)) (by decide)
  | .cons op p t, .nil, _, _, h, _, hts' => by
    rw [Addends.words, Addends.words, List.nil_append, List.cons_append] at h
    exact absurd (stops_additive.1 (h ▸ hts')) (by decide)
  | .cons op p t, .cons op' p' t', _, _, h, hts, hts' => by
    simp only [Addends.words, List.cons_append, List.append_assoc, List.cons.injEq] at h
    obtain rfl := Additive.token_inj h.1
    obtain ⟨rfl, hrest⟩ := Product.words_inj h.2 ((t.stops hts).mono (by decide))
      ((t'.stops hts').mono (by decide))
    obtain ⟨rfl, hend⟩ := Addends.words_inj hrest hts hts'
    exact ⟨rfl, hend⟩

theorem Product.words_inj : ∀ {p p' : Product} {ts ts' : List Token},
    p.words ++ ts = p'.words ++ ts' → Stops 20 ts → Stops 20 ts' → p = p' ∧ ts = ts'
  | .mk u t, .mk u' t', ts, ts', h, hts, hts' => by
    simp only [Product.words, List.append_assoc] at h
    obtain ⟨rfl, hrest⟩ := Unary.words_inj h ((t.stops hts).mono (by decide))
      ((t'.stops hts').mono (by decide))
    obtain ⟨rfl, hend⟩ := Factors.words_inj hrest hts hts'
    exact ⟨rfl, hend⟩

theorem Factors.words_inj : ∀ {t t' : Factors} {ts ts' : List Token},
    t.words ++ ts = t'.words ++ ts' → Stops 20 ts → Stops 20 ts' → t = t' ∧ ts = ts'
  | .nil, .nil, _, _, h, _, _ => ⟨rfl, h⟩
  | .nil, .cons op u t, _, _, h, hts, _ => by
    rw [Factors.words, Factors.words, List.nil_append, List.cons_append] at h
    exact absurd (stops_multiplicative.1 (h ▸ hts)) (by decide)
  | .cons op u t, .nil, _, _, h, _, hts' => by
    rw [Factors.words, Factors.words, List.nil_append, List.cons_append] at h
    exact absurd (stops_multiplicative.1 (h ▸ hts')) (by decide)
  | .cons op u t, .cons op' u' t', _, _, h, hts, hts' => by
    simp only [Factors.words, List.cons_append, List.append_assoc, List.cons.injEq] at h
    obtain rfl := Multiplicative.token_inj h.1
    obtain ⟨rfl, hrest⟩ := Unary.words_inj h.2 ((t.stops hts).mono (by decide))
      ((t'.stops hts').mono (by decide))
    obtain ⟨rfl, hend⟩ := Factors.words_inj hrest hts hts'
    exact ⟨rfl, hend⟩

theorem Unary.words_inj : ∀ {u u' : Unary} {ts ts' : List Token},
    u.words ++ ts = u'.words ++ ts' → Stops signStrength ts → Stops signStrength ts' →
    u = u' ∧ ts = ts'
  | .minus u, .minus u', _, _, h, hts, hts' => by
    obtain ⟨rfl, hend⟩ := Unary.words_inj (List.cons.inj h).2 hts hts'
    exact ⟨rfl, hend⟩
  | .plus u, .plus u', _, _, h, hts, hts' => by
    obtain ⟨rfl, hend⟩ := Unary.words_inj (List.cons.inj h).2 hts hts'
    exact ⟨rfl, hend⟩
  | .power p, .power p', _, _, h, hts, hts' => by
    obtain ⟨rfl, hend⟩ := Power.words_inj h hts hts'
    exact ⟨rfl, hend⟩
  | .minus _, .plus _, _, _, h, _, _ => nomatch (List.cons.inj h).1
  | .plus _, .minus _, _, _, h, _, _ => nomatch (List.cons.inj h).1
  | .minus _, .power _, _, _, h, _, _ => absurd h.symm (Power.words_ne_cons nofun)
  | .plus _, .power _, _, _, h, _, _ => absurd h.symm (Power.words_ne_cons nofun)
  | .power _, .minus _, _, _, h, _, _ => absurd h (Power.words_ne_cons nofun)
  | .power _, .plus _, _, _, h, _, _ => absurd h (Power.words_ne_cons nofun)

theorem Power.words_inj : ∀ {p p' : Power} {ts ts' : List Token},
    p.words ++ ts = p'.words ++ ts' → Stops signStrength ts → Stops signStrength ts' →
    p = p' ∧ ts = ts'
  | .mk a x, .mk a' x', _, _, h, hts, hts' => by
    simp only [Power.words, List.append_assoc] at h
    obtain ⟨rfl, hrest⟩ := Atom.words_inj h (x.stops hts) (x'.stops hts')
    obtain ⟨rfl, hend⟩ := Exponent.words_inj hrest hts hts'
    exact ⟨rfl, hend⟩

theorem Exponent.words_inj : ∀ {x x' : Exponent} {ts ts' : List Token},
    x.words ++ ts = x'.words ++ ts' → Stops signStrength ts → Stops signStrength ts' →
    x = x' ∧ ts = ts'
  | .nil, .nil, _, _, h, _, _ => ⟨rfl, h⟩
  | .nil, .mk u, _, _, h, hts, _ => by
    rw [Exponent.words, Exponent.words, List.nil_append, List.cons_append] at h
    exact absurd (stops_pow.1 (h ▸ hts)) (by decide)
  | .mk u, .nil, _, _, h, _, hts' => by
    rw [Exponent.words, Exponent.words, List.nil_append, List.cons_append] at h
    exact absurd (stops_pow.1 (h ▸ hts')) (by decide)
  | .mk u, .mk u', _, _, h, hts, hts' => by
    obtain ⟨rfl, hend⟩ := Unary.words_inj (List.cons.inj h).2 hts hts'
    exact ⟨rfl, hend⟩

theorem Atom.words_inj : ∀ {a a' : Atom} {ts ts' : List Token}, a.words ++ ts = a'.words ++ ts' →
    Stops 41 ts → Stops 41 ts' → a = a' ∧ ts = ts'
  | .number n, .number n', _, _, h, _, _ => by
    simpa [Atom.words] using h
  | .name x, .name x', _, _, h, _, _ => by
    simpa [Atom.words] using h
  | .emptyCall f, .emptyCall f', _, _, h, _, _ => by
    simpa [Atom.words] using h
  | .call f as, .call f' as', _, _, h, _, _ => by
    simp only [Atom.words, List.cons_append, List.append_assoc, List.nil_append, List.cons.injEq,
      Token.ident.injEq, true_and] at h
    obtain ⟨rfl, hargs⟩ := h
    obtain ⟨rfl, hend⟩ := Arguments.words_inj hargs
    exact ⟨rfl, hend⟩
  | .bracketed s, .bracketed s', _, _, h, _, _ => by
    simp only [Atom.words, List.cons_append, List.append_assoc, List.nil_append, List.cons.injEq,
      true_and] at h
    obtain ⟨rfl, hend⟩ := Sum.words_inj h stops_rightParen stops_rightParen
    exact ⟨rfl, (List.cons.inj hend).2⟩
  -- a name alone is followed by no bracket, and no argument begins with a closing one
  | .name _, .emptyCall _, _, _, h, hts, _ => absurd (List.cons.inj h).2 hts.ne_leftParen
  | .name _, .call _ _, _, _, h, hts, _ => absurd (List.cons.inj h).2 hts.ne_leftParen
  | .emptyCall _, .name _, _, _, h, _, hts' => absurd (List.cons.inj h).2.symm hts'.ne_leftParen
  | .call _ _, .name _, _, _, h, _, hts' => absurd (List.cons.inj h).2.symm hts'.ne_leftParen
  | .emptyCall f, .call f' as, _, _, h, _, _ => by
    simp only [Atom.words, List.cons_append, List.append_assoc, List.cons.injEq] at h
    exact absurd h.2.2.symm as.words_ne_rightParen
  | .call f as, .emptyCall f', _, _, h, _, _ => by
    simp only [Atom.words, List.cons_append, List.append_assoc, List.cons.injEq] at h
    exact absurd h.2.2 as.words_ne_rightParen
  -- the others begin with words of different kinds
  | .number _, .name _, _, _, h, _, _ => nomatch (List.cons.inj h).1
  | .number _, .emptyCall _, _, _, h, _, _ => nomatch (List.cons.inj h).1
  | .number _, .call _ _, _, _, h, _, _ => nomatch (List.cons.inj h).1
  | .number _, .bracketed _, _, _, h, _, _ => nomatch (List.cons.inj h).1
  | .name _, .number _, _, _, h, _, _ => nomatch (List.cons.inj h).1
  | .name _, .bracketed _, _, _, h, _, _ => nomatch (List.cons.inj h).1
  | .emptyCall _, .number _, _, _, h, _, _ => nomatch (List.cons.inj h).1
  | .emptyCall _, .bracketed _, _, _, h, _, _ => nomatch (List.cons.inj h).1
  | .call _ _, .number _, _, _, h, _, _ => nomatch (List.cons.inj h).1
  | .call _ _, .bracketed _, _, _, h, _, _ => nomatch (List.cons.inj h).1
  | .bracketed _, .number _, _, _, h, _, _ => nomatch (List.cons.inj h).1
  | .bracketed _, .name _, _, _, h, _, _ => nomatch (List.cons.inj h).1
  | .bracketed _, .emptyCall _, _, _, h, _, _ => nomatch (List.cons.inj h).1
  | .bracketed _, .call _ _, _, _, h, _, _ => nomatch (List.cons.inj h).1

/-- Arguments end at a closing bracket. -/
theorem Arguments.words_inj : ∀ {as as' : Arguments} {ts ts' : List Token},
    as.words ++ .rightParen :: ts = as'.words ++ .rightParen :: ts' → as = as' ∧ ts = ts'
  | .last s, .last s', _, _, h => by
    obtain ⟨rfl, hend⟩ := Sum.words_inj h stops_rightParen stops_rightParen
    exact ⟨rfl, (List.cons.inj hend).2⟩
  | .more s as, .more s' as', _, _, h => by
    simp only [Arguments.words, List.append_assoc, List.cons_append] at h
    obtain ⟨rfl, hrest⟩ := Sum.words_inj h stops_comma stops_comma
    obtain ⟨rfl, hend⟩ := Arguments.words_inj (List.cons.inj hrest).2
    exact ⟨rfl, hend⟩
  | .last s, .more s' as', _, _, h => by
    simp only [Arguments.words, List.append_assoc, List.cons_append] at h
    exact nomatch (List.cons.inj (Sum.words_inj h stops_rightParen stops_comma).2).1
  | .more s as, .last s', _, _, h => by
    simp only [Arguments.words, List.append_assoc, List.cons_append] at h
    exact nomatch (List.cons.inj (Sum.words_inj h stops_comma stops_rightParen).2).1

end

/-- The grammar is unambiguous: no list of words has two derivations. -/
theorem Sum.eq_of_words_eq {s s' : Sum} (h : s.words = s'.words) : s = s' := by
  have happ : s.words ++ [] = s'.words ++ [] := by rw [h]
  exact (Sum.words_inj happ stops_nil stops_nil).1

end Grammar

end ParamSweep.Expression
