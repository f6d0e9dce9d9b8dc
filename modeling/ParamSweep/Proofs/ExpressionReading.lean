import ParamSweep.Proofs.ExpressionGrammar
import ParamSweep.Proofs.Outcome

/-!
Reading by strengths is reading by the grammar.

The readers find every derivation (`Sum.ofWords_eq`), and what they find is derived
(`derivation_of_ofWords`). Where they fail, they stand at a word or at the end of the text
(`errsOnly_ofWords`). The words themselves are spelled by the text at the places that come with them
(`standsIn_of_mem_tokens`).
-/

namespace ParamSweep.Expression

open Grammar

theorem Words.tokens_append (us vs : Words) : Words.tokens (us ++ vs) = us.tokens ++ vs.tokens :=
  List.map_append

theorem Words.tokens_eq_append {ws : Words} {ts ts' : List Token} (h : ws.tokens = ts ++ ts') :
    ∃ us vs : Words, ws = us ++ vs ∧ us.tokens = ts ∧ vs.tokens = ts' :=
  List.map_eq_append_iff.1 h

theorem Words.tokens_eq_cons {ws : Words} {t : Token} {ts : List Token} (h : ws.tokens = t :: ts) :
    ∃ o us, ws = (o, t) :: us ∧ Words.tokens us = ts := by
  obtain ⟨⟨o, _⟩, us, rfl, rfl, hus⟩ := List.map_eq_cons_iff.1 h
  exact ⟨o, us, rfl, hus⟩

@[simp] theorem Words.tokens_cons (o : Nat) (t : Token) (ws : Words) :
    Words.tokens ((o, t) :: ws) = t :: Words.tokens ws := rfl

theorem Grammar.Stops.operator? {least : Nat} {ws : Words} (h : Stops least ws.tokens) :
    ws.operator? least = none := by
  cases ws with
  | nil => rfl
  | cons w rest =>
    obtain ⟨o, t⟩ := w
    have ht := (stops_cons.1 h).2
    rw [Words.operator?]
    cases hb : t.binding? with
    | none => rfl
    | some b => exact if_pos (ht b hb)

/-! ### The readers with enough fuel -/

section Reads

variable (textEnd : Nat)

/-- However much fuel there is above a bound, the words read as `r`. -/
def ReadsAbove (least : Nat) (ws : Words) (r : Expr × Words) : Prop :=
  ∀ fuel, 3 * ws.length + 3 ≤ fuel → readAbove textEnd fuel least ws = .ok r

@[inherit_doc ReadsAbove]
def ReadsOperators (least : Nat) (left : Expr) (ws : Words) (r : Expr × Words) : Prop :=
  ∀ fuel, 3 * ws.length + 1 ≤ fuel → readOperators textEnd fuel least left ws = .ok r

@[inherit_doc ReadsAbove]
def ReadsOperand (ws : Words) (r : Expr × Words) : Prop :=
  ∀ fuel, 3 * ws.length + 2 ≤ fuel → readOperand textEnd fuel ws = .ok r

@[inherit_doc ReadsAbove]
def ReadsAtom (ws : Words) (r : Expr × Words) : Prop :=
  ∀ fuel, 3 * ws.length + 1 ≤ fuel → readAtom textEnd fuel ws = .ok r

@[inherit_doc ReadsAbove]
def ReadsArguments (ws : Words) (r : List Expr × Words) : Prop :=
  ∀ fuel, 3 * ws.length + 4 ≤ fuel → readArguments textEnd fuel ws = .ok r

end Reads

/-- Where the bound is not zero, some of the fuel can be used up. -/
theorem forall_fuel {P : Nat → Prop} {bound : Nat} (hbound : 0 < bound)
    (h : ∀ fuel, bound ≤ fuel + 1 → P (fuel + 1)) : ∀ fuel, bound ≤ fuel → P fuel
  | 0, hfuel => absurd hfuel (Nat.not_le.2 hbound)
  | fuel + 1, hfuel => h fuel hfuel

variable {textEnd least : Nat} {used rest : Words} {e left right : Expr} {r : Expr × Words}

theorem ReadsAbove.of_operand (h : ReadsOperand textEnd (used ++ rest) (e, rest))
    (hrest : ReadsOperators textEnd least e rest r) :
    ReadsAbove textEnd least (used ++ rest) r := by
  refine forall_fuel (Nat.succ_pos _) fun fuel hfuel => ?_
  rw [List.length_append] at hfuel
  rw [readAbove, h fuel (by rw [List.length_append]; omega)]
  exact hrest fuel (by omega)

theorem ReadsOperators.of_stops (h : Stops least rest.tokens) :
    ReadsOperators textEnd least left rest (left, rest) := by
  refine forall_fuel (Nat.succ_pos _) fun fuel hfuel => ?_
  rw [readOperators, h.operator?]

theorem ReadsOperators.of_operator {o : Nat} {t : Token} {b : Binding} (hb : t.binding? = some b)
    (hleast : least ≤ b.strength)
    (hright : ReadsAbove textEnd b.behind (used ++ rest) (right, rest))
    (hrest : ReadsOperators textEnd least (.binary b.op left right) rest r) :
    ReadsOperators textEnd least left ((o, t) :: (used ++ rest)) r := by
  refine forall_fuel (Nat.succ_pos _) fun fuel hfuel => ?_
  rw [List.length_cons, List.length_append] at hfuel
  have hop : Words.operator? least ((o, t) :: (used ++ rest)) = some (b, used ++ rest) := by
    simp [Words.operator?, hb, Nat.not_lt.2 hleast]
  rw [readOperators, hop]
  simp only
  rw [hright fuel (by rw [List.length_append]; omega)]
  exact hrest fuel (by omega)

theorem ReadsOperand.minus {o : Nat} (h : ReadsAbove textEnd signStrength used (e, rest)) :
    ReadsOperand textEnd ((o, .minus) :: used) (.neg e, rest) := by
  refine forall_fuel (Nat.succ_pos _) fun fuel hfuel => ?_
  rw [List.length_cons] at hfuel
  rw [readOperand, h fuel (by omega)]
  rfl

theorem ReadsOperand.plus {o : Nat} (h : ReadsAbove textEnd signStrength used r) :
    ReadsOperand textEnd ((o, .plus) :: used) r := by
  refine forall_fuel (Nat.succ_pos _) fun fuel hfuel => ?_
  rw [List.length_cons] at hfuel
  rw [readOperand, h fuel (by omega)]

theorem ReadsOperand.of_atom {o : Nat} {t : Token} (ht : StartsAtom t)
    (h : ReadsAtom textEnd ((o, t) :: used) r) : ReadsOperand textEnd ((o, t) :: used) r := by
  refine forall_fuel (Nat.succ_pos _) fun fuel hfuel => ?_
  cases ht <;> exact h fuel (by omega)

theorem readsAtom_name {o : Nat} {x : String} (h : Stops 41 rest.tokens) :
    ReadsAtom textEnd ((o, .ident x) :: rest) (.var x, rest) := by
  refine forall_fuel (Nat.succ_pos _) fun fuel hfuel => ?_
  match rest, h with
  | [], _ => rfl
  | (o', t) :: rest, h =>
    have ht : t ≠ .leftParen := (stops_cons.1 h).1
    cases t <;> first | exact absurd rfl ht | rfl

theorem readsAtom_number {o : Nat} {n : Number} :
    ReadsAtom textEnd ((o, .num n) :: rest) (.num n, rest) := by
  refine forall_fuel (Nat.succ_pos _) fun fuel hfuel => ?_
  rfl

theorem readsAtom_emptyCall {o o' o'' : Nat} {f : String} :
    ReadsAtom textEnd ((o, .ident f) :: (o', .leftParen) :: (o'', .rightParen) :: rest)
      (.call f [], rest) := by
  refine forall_fuel (Nat.succ_pos _) fun fuel hfuel => ?_
  rfl

theorem readsAtom_call {o o' o'' : Nat} {f : String} {es : List Expr}
    (hne : ∀ o rest', used ≠ (o, .rightParen) :: rest')
    (h : ReadsArguments textEnd used (es, (o'', .rightParen) :: rest)) :
    ReadsAtom textEnd ((o, .ident f) :: (o', .leftParen) :: used) (.call f es, rest) := by
  refine forall_fuel (Nat.succ_pos _) fun fuel hfuel => ?_
  simp only [List.length_cons] at hfuel
  rw [readAtom, h fuel (by omega)]
  · rfl
  · exact hne

theorem readsAtom_bracketed {o o' : Nat}
    (h : ReadsAbove textEnd 0 used (e, (o', .rightParen) :: rest)) :
    ReadsAtom textEnd ((o, .leftParen) :: used) (e, rest) := by
  refine forall_fuel (Nat.succ_pos _) fun fuel hfuel => ?_
  rw [List.length_cons] at hfuel
  rw [readAtom, h fuel (by omega)]
  rfl

theorem ReadsArguments.last {o : Nat}
    (h : ReadsAbove textEnd 0 (used ++ (o, .rightParen) :: rest) (e, (o, .rightParen) :: rest)) :
    ReadsArguments textEnd (used ++ (o, .rightParen) :: rest) ([e], (o, .rightParen) :: rest) := by
  refine forall_fuel (Nat.succ_pos _) fun fuel hfuel => ?_
  rw [readArguments, h fuel (by omega)]
  rfl

theorem ReadsArguments.more {o : Nat} {es : List Expr} {rest' : Words}
    (h : ReadsAbove textEnd 0 (used ++ (o, .comma) :: rest) (e, (o, .comma) :: rest))
    (hrest : ReadsArguments textEnd rest (es, rest')) :
    ReadsArguments textEnd (used ++ (o, .comma) :: rest) (e :: es, rest') := by
  refine forall_fuel (Nat.succ_pos _) fun fuel hfuel => ?_
  have hfirst := h fuel (by omega)
  rw [List.length_append, List.length_cons] at hfuel
  have hothers := hrest fuel (by omega)
  simp only [readArguments, hfirst, hothers, bind, Except.bind]

/-! ### Every derivation is found -/

namespace Grammar

mutual

theorem Sum.reads {s : Sum} {used rest : Words} (h : used.tokens = s.words)
    (hrest : Stops 0 rest.tokens) : ReadsAbove textEnd 0 (used ++ rest) (s.tree, rest) := by
  match s, h with
  | .mk p t, h =>
    obtain ⟨us, vs, rfl, hus, hvs⟩ := Words.tokens_eq_append h
    have hstops : Stops 20 (Words.tokens (vs ++ rest)) := by
      rw [Words.tokens_append, hvs]
      exact (t.stops (hrest.mono (by decide))).mono (by decide)
    rw [List.append_assoc]
    exact Product.reads (by decide) hus hstops (Addends.reads hvs hrest)

theorem Addends.reads {t : Addends} {used rest : Words} {left : Expr} (h : used.tokens = t.words)
    (hrest : Stops 0 rest.tokens) :
    ReadsOperators textEnd 0 left (used ++ rest) (t.treeAfter left, rest) := by
  match t, h with
  | .nil, h =>
    obtain rfl := List.map_eq_nil_iff.1 h
    exact .of_stops hrest
  | .cons op p t, h =>
    obtain ⟨o, ws, rfl, hws⟩ := Words.tokens_eq_cons h
    obtain ⟨us, vs, rfl, hus, hvs⟩ := Words.tokens_eq_append hws
    have hstops : Stops 11 (Words.tokens (vs ++ rest)) := by
      rw [Words.tokens_append, hvs]
      exact t.stops (hrest.mono (by decide))
    rw [List.cons_append, List.append_assoc]
    refine .of_operator (Additive.binding?_token op) (Nat.zero_le _) ?_ (Addends.reads hvs hrest)
    exact Product.reads (Nat.le_of_lt (by decide : 11 < 20)) hus (hstops.mono (by decide))
      (.of_stops hstops)

theorem Product.reads {p : Product} {least : Nat} {used rest : Words} {r : Expr × Words}
    (hleast : least ≤ 20) (h : used.tokens = p.words) (hrest : Stops 20 rest.tokens)
    (hr : ReadsOperators textEnd least p.tree rest r) :
    ReadsAbove textEnd least (used ++ rest) r := by
  match p, h, hr with
  | .mk u t, h, hr =>
    obtain ⟨us, vs, rfl, hus, hvs⟩ := Words.tokens_eq_append h
    have hstops : Stops signStrength (Words.tokens (vs ++ rest)) := by
      rw [Words.tokens_append, hvs]
      exact (t.stops hrest).mono (by decide)
    rw [List.append_assoc]
    exact Unary.reads (Nat.le_trans hleast (by decide)) hus hstops
      (Factors.reads hleast hvs hrest hr)

theorem Factors.reads {t : Factors} {least : Nat} {used rest : Words} {left : Expr}
    {r : Expr × Words} (hleast : least ≤ 20) (h : used.tokens = t.words)
    (hrest : Stops 20 rest.tokens) (hr : ReadsOperators textEnd least (t.treeAfter left) rest r) :
    ReadsOperators textEnd least left (used ++ rest) r := by
  match t, h, hr with
  | .nil, h, hr =>
    obtain rfl := List.map_eq_nil_iff.1 h
    exact hr
  | .cons op u t, h, hr =>
    obtain ⟨o, ws, rfl, hws⟩ := Words.tokens_eq_cons h
    obtain ⟨us, vs, rfl, hus, hvs⟩ := Words.tokens_eq_append hws
    have hstops : Stops 21 (Words.tokens (vs ++ rest)) := by
      rw [Words.tokens_append, hvs]
      exact t.stops hrest
    rw [List.cons_append, List.append_assoc]
    refine .of_operator (Multiplicative.binding?_token op) hleast ?_
      (Factors.reads hleast hvs hrest hr)
    exact Unary.reads (Nat.le_of_lt (by decide : 21 < 40)) hus (hstops.mono (by decide))
      (.of_stops hstops)

theorem Unary.reads {u : Unary} {least : Nat} {used rest : Words} {r : Expr × Words}
    (hleast : least ≤ 40) (h : used.tokens = u.words) (hrest : Stops signStrength rest.tokens)
    (hr : ReadsOperators textEnd least u.tree rest r) :
    ReadsAbove textEnd least (used ++ rest) r := by
  match u, h, hr with
  | .minus u, h, hr =>
    obtain ⟨o, ws, rfl, hws⟩ := Words.tokens_eq_cons h
    exact .of_operand (.minus (Unary.reads (by decide) hws hrest (.of_stops hrest))) hr
  | .plus u, h, hr =>
    obtain ⟨o, ws, rfl, hws⟩ := Words.tokens_eq_cons h
    exact .of_operand (.plus (Unary.reads (by decide) hws hrest (.of_stops hrest))) hr
  | .power p, h, hr => exact Power.reads hleast h hrest hr

theorem Power.reads {p : Power} {least : Nat} {used rest : Words} {r : Expr × Words}
    (hleast : least ≤ 40) (h : used.tokens = p.words) (hrest : Stops signStrength rest.tokens)
    (hr : ReadsOperators textEnd least p.tree rest r) :
    ReadsAbove textEnd least (used ++ rest) r := by
  match p, h, hr with
  | .mk a x, h, hr =>
    obtain ⟨us, vs, rfl, hus, hvs⟩ := Words.tokens_eq_append h
    have hstops : Stops 41 (Words.tokens (vs ++ rest)) := by
      rw [Words.tokens_append, hvs]
      exact x.stops hrest
    rw [List.append_assoc]
    exact .of_operand (Atom.reads hus hstops) (Exponent.reads hleast hvs hrest hr)

theorem Exponent.reads {x : Exponent} {least : Nat} {used rest : Words} {base : Expr}
    {r : Expr × Words} (hleast : least ≤ 40) (h : used.tokens = x.words)
    (hrest : Stops signStrength rest.tokens)
    (hr : ReadsOperators textEnd least (x.treeAfter base) rest r) :
    ReadsOperators textEnd least base (used ++ rest) r := by
  match x, h, hr with
  | .nil, h, hr =>
    obtain rfl := List.map_eq_nil_iff.1 h
    exact hr
  | .mk u, h, hr =>
    obtain ⟨o, us, rfl, hus⟩ := Words.tokens_eq_cons h
    refine .of_operator rfl hleast ?_ hr
    exact Unary.reads (Nat.le_refl 40) hus hrest (.of_stops (hrest.mono (by decide)))

/-- An atom is an operand as it stands. -/
theorem Atom.reads {a : Atom} {used rest : Words} (h : used.tokens = a.words)
    (hrest : Stops 41 rest.tokens) : ReadsOperand textEnd (used ++ rest) (a.tree, rest) := by
  match a, h with
  | .number n, h =>
    obtain ⟨o, ws, rfl, hws⟩ := Words.tokens_eq_cons h
    obtain rfl := List.map_eq_nil_iff.1 hws
    exact .of_atom (.number n) (readsAtom_number)
  | .name x, h =>
    obtain ⟨o, ws, rfl, hws⟩ := Words.tokens_eq_cons h
    obtain rfl := List.map_eq_nil_iff.1 hws
    exact .of_atom (.name x) (readsAtom_name hrest)
  | .emptyCall f, h =>
    obtain ⟨o, ws, rfl, hws⟩ := Words.tokens_eq_cons h
    obtain ⟨o', ws', rfl, hws'⟩ := Words.tokens_eq_cons hws
    obtain ⟨o'', ws'', rfl, hws''⟩ := Words.tokens_eq_cons hws'
    obtain rfl := List.map_eq_nil_iff.1 hws''
    exact .of_atom (.name f) readsAtom_emptyCall
  | .call f as, h =>
    obtain ⟨o, ws, rfl, hws⟩ := Words.tokens_eq_cons h
    obtain ⟨o', ws', rfl, hws'⟩ := Words.tokens_eq_cons hws
    obtain ⟨us, ws'', rfl, hus, hws''⟩ := Words.tokens_eq_append hws'
    obtain ⟨o'', vs, rfl, hvs⟩ := Words.tokens_eq_cons hws''
    obtain rfl := List.map_eq_nil_iff.1 hvs
    simp only [List.cons_append, List.append_assoc, List.nil_append]
    refine .of_atom (.name f) (readsAtom_call (fun o₁ rest₁ heq => ?_) (Arguments.reads hus))
    -- no argument begins with a closing bracket
    have htokens := congrArg Words.tokens heq
    rw [Words.tokens_append, hus] at htokens
    exact as.words_ne_rightParen htokens
  | .bracketed s, h =>
    obtain ⟨o, ws, rfl, hws⟩ := Words.tokens_eq_cons h
    obtain ⟨us, ws', rfl, hus, hws'⟩ := Words.tokens_eq_append hws
    obtain ⟨o', vs, rfl, hvs⟩ := Words.tokens_eq_cons hws'
    obtain rfl := List.map_eq_nil_iff.1 hvs
    simp only [List.cons_append, List.append_assoc, List.nil_append]
    exact .of_atom .leftParen (readsAtom_bracketed (Sum.reads hus stops_rightParen))

theorem Arguments.reads {as : Arguments} {used rest : Words} {o : Nat}
    (h : used.tokens = as.words) :
    ReadsArguments textEnd (used ++ (o, .rightParen) :: rest)
      (as.trees, (o, .rightParen) :: rest) := by
  match as, h with
  | .last s, h => exact .last (Sum.reads h stops_rightParen)
  | .more s as, h =>
    obtain ⟨us, ws, rfl, hus, hws⟩ := Words.tokens_eq_append h
    obtain ⟨o', vs, rfl, hvs⟩ := Words.tokens_eq_cons hws
    rw [List.append_assoc]
    exact .more (Sum.reads hus stops_comma) (Arguments.reads hvs)

end

/-- The readers find every derivation. -/
theorem Sum.ofWords_eq {s : Sum} {ws : Words} (h : ws.tokens = s.words) :
    ofWords textEnd ws = .ok s.tree := by
  have hread : ReadsAbove textEnd 0 (ws ++ []) (s.tree, []) := Sum.reads h stops_nil
  rw [List.append_nil] at hread
  rw [ofWords, hread (readingFuel ws) (Nat.le_refl _)]
  rfl

end Grammar

/-! ### What is found is derived -/

/-- What an operand is read off: an atom, or a sign with what is behind it. -/
inductive DerivesOperand (ws : Words) : Expr × Words → Prop
  | atom (a : Atom) (rest : Words) (words : ws.tokens = a.words ++ rest.tokens) :
    DerivesOperand ws (a.tree, rest)
  | signed (u : Unary) (rest : Words) (words : ws.tokens = u.words ++ rest.tokens)
      (ends : rest.operator? signStrength = none) :
    DerivesOperand ws (u.tree, rest)

/-- What an expression with operators of at least a strength is read off. -/
inductive DerivesAbove (least : Nat) (ws : Words) : Expr × Words → Prop
  | intro (u : Unary) (t : Factors) (a : Addends) (rest : Words)
      (words : ws.tokens = u.words ++ (t.words ++ (a.words ++ rest.tokens)))
      (noFactors : 20 < least → t = .nil) (noAddends : 10 < least → a = .nil)
      (ends : rest.operator? least = none) :
    DerivesAbove least ws (a.treeAfter (t.treeAfter u.tree), rest)

/-- What the operators of at least a strength behind `left` are read off, if the next one has less
than the strength `bound`: they get weaker, as what is behind each of them was read before. -/
inductive DerivesOperators (bound least : Nat) (left : Expr) (ws : Words) : Expr × Words → Prop
  | intro (x : Exponent) (t : Factors) (a : Addends) (rest : Words)
      (words : ws.tokens = x.words ++ (t.words ++ (a.words ++ rest.tokens)))
      (noExponent : bound ≤ 40 → x = .nil)
      (noFactors : bound ≤ 20 ∨ 20 < least → t = .nil)
      (noAddends : 10 < least → a = .nil)
      (ends : rest.operator? least = none) :
    DerivesOperators bound least left ws (a.treeAfter (t.treeAfter (x.treeAfter left)), rest)

/-- With sums and products left out, an operand is left. -/
theorem DerivesAbove.unary {ws : Words} (h : DerivesAbove least ws (e, rest))
    (hleast : 20 < least) :
    ∃ u : Unary, ws.tokens = u.words ++ rest.tokens ∧ e = u.tree ∧ rest.operator? least = none := by
  cases h with
  | intro u t a rest words noFactors noAddends ends =>
    obtain rfl := noFactors hleast
    obtain rfl := noAddends (Nat.lt_trans (by decide) hleast)
    exact ⟨u, words, rfl, ends⟩

theorem DerivesAbove.ends {ws : Words} (h : DerivesAbove least ws (e, rest)) :
    rest.operator? least = none := by
  cases h with
  | intro _ _ _ _ _ _ _ ends => exact ends

theorem closing_ok {ws : Words} (h : closing textEnd ws = .ok rest) :
    ∃ o, ws = (o, .rightParen) :: rest := by
  unfold closing at h
  split at h
  · obtain rfl := Except.ok.inj h
    exact ⟨_, rfl⟩
  · cases h

/-- With sums left out, a product is left. -/
theorem DerivesAbove.product {ws : Words} (h : DerivesAbove least ws (e, rest))
    (hleast : 10 < least) :
    ∃ p : Product, ws.tokens = p.words ++ rest.tokens ∧ e = p.tree := by
  cases h with
  | intro u t a rest words _ noAddends _ =>
    obtain rfl := noAddends hleast
    exact ⟨.mk u t, by rw [words, Product.words, List.append_assoc]; rfl, rfl⟩

theorem DerivesAbove.sum {ws : Words} (h : DerivesAbove least ws (e, rest)) :
    ∃ s : Sum, ws.tokens = s.words ++ rest.tokens ∧ e = s.tree := by
  cases h with
  | intro u t a rest words _ _ _ =>
    refine ⟨.mk (.mk u t) a, ?_, rfl⟩
    rw [words, Sum.words, Product.words, List.append_assoc, List.append_assoc]

theorem Token.binding?_cases {t : Token} {b : Binding} (h : t.binding? = some b) :
    (∃ op : Additive, t = op.token ∧ b = { op := op.op, strength := 10 }) ∨
    (∃ op : Multiplicative, t = op.token ∧ b = { op := op.op, strength := 20 }) ∨
    (t = .pow ∧ b = { op := .pow, strength := 40, rightFirst := true }) := by
  cases t <;> simp only [Token.binding?, Option.some.injEq, reduceCtorEq] at h
  · exact .inl ⟨.plus, rfl, h.symm⟩
  · exact .inl ⟨.minus, rfl, h.symm⟩
  · exact .inr (.inl ⟨.times, rfl, h.symm⟩)
  · exact .inr (.inl ⟨.over, rfl, h.symm⟩)
  · exact .inr (.inl ⟨.modulo, rfl, h.symm⟩)
  · exact .inr (.inr ⟨rfl, h.symm⟩)

theorem Words.operator?_eq_some {ws rest : Words} {b : Binding}
    (h : ws.operator? least = some (b, rest)) :
    ∃ o t, ws = (o, t) :: rest ∧ t.binding? = some b ∧ least ≤ b.strength := by
  match ws, h with
  | (o, t) :: ws, h =>
    rw [Words.operator?] at h
    split at h
    · rename_i b' hb'
      split at h
      · cases h
      · obtain ⟨rfl, rfl⟩ := Prod.mk.inj (Option.some.inj h)
        exact ⟨o, t, rfl, hb', Nat.not_lt.1 ‹_›⟩
    · cases h

theorem Words.strength_lt {bound o : Nat} {t : Token} {ws : Words} {b : Binding}
    (h : Words.operator? bound ((o, t) :: ws) = none) (hb : t.binding? = some b) :
    b.strength < bound := by
  rw [Words.operator?, hb] at h
  refine Decidable.byContradiction fun hle => ?_
  simp [hle] at h

/-- No operator is as strong as that. -/
theorem Words.operator?_strongest (ws : Words) : ws.operator? 41 = none := by
  cases h : ws.operator? 41 with
  | none => rfl
  | some p =>
    obtain ⟨b, rest⟩ := p
    obtain ⟨o, t, -, hb, hle⟩ := Words.operator?_eq_some h
    rcases Token.binding?_cases hb with ⟨op, -, rfl⟩ | ⟨op, -, rfl⟩ | ⟨-, rfl⟩ <;>
      exact absurd hle (Nat.not_le_of_lt (Nat.lt_of_sub_pos (Nat.succ_pos _)))

namespace DerivesOperators

variable {bound o : Nat} {ws ws' : Words}

/-- A product is added. -/
theorem add (op : Additive) (hleast : least ≤ 10) (hright : DerivesAbove 11 ws (right, ws'))
    (hrest : DerivesOperators 11 least (.binary op.op left right) ws' r) :
    DerivesOperators bound least left ((o, op.token) :: ws) r := by
  obtain ⟨p, hws, rfl⟩ := hright.product (by decide)
  cases hrest with
  | intro x t a rest words noExponent noFactors _ ends =>
    obtain rfl := noExponent (by decide)
    obtain rfl := noFactors (.inl (by decide))
    refine .intro .nil .nil (.cons op p a) rest ?_ (fun _ => rfl) (fun _ => rfl) ?_ ends
    · rw [Words.tokens_cons, hws, words]
      simp [Addends.words, Factors.words, Exponent.words]
    · intro h; omega

/-- An operand is multiplied. -/
theorem multiply (op : Multiplicative) (hleast : least ≤ 20) (hbound : 20 < bound)
    (hright : DerivesAbove 21 ws (right, ws'))
    (hrest : DerivesOperators 21 least (.binary op.op left right) ws' r) :
    DerivesOperators bound least left ((o, op.token) :: ws) r := by
  obtain ⟨u, hws, rfl, -⟩ := hright.unary (by decide)
  cases hrest with
  | intro x t a rest words noExponent noFactors noAddends ends =>
    obtain rfl := noExponent (by decide)
    refine .intro .nil (.cons op u t) a rest ?_ (fun _ => rfl) ?_ noAddends ends
    · rw [Words.tokens_cons, hws, words]
      simp [Factors.words, Exponent.words]
    · intro h; omega

/-- An atom is raised. -/
theorem raise (hbound : 40 < bound) (hright : DerivesAbove 40 ws (right, ws'))
    (hrest : DerivesOperators 40 least (.binary .pow left right) ws' r) :
    DerivesOperators bound least left ((o, .pow) :: ws) r := by
  obtain ⟨u, hws, rfl, -⟩ := hright.unary (by decide)
  cases hrest with
  | intro x t a rest words noExponent noFactors noAddends ends =>
    obtain rfl := noExponent (by decide)
    refine .intro (.mk u) t a rest ?_ ?_ ?_ noAddends ends
    · rw [Words.tokens_cons, hws, words]
      simp [Exponent.words]
    · intro h; omega
    · intro h; exact noFactors (by omega)

/-- An operator with what is behind it, and the operators behind that. -/
theorem cons {t : Token} {b : Binding} (hb : t.binding? = some b) (hleast : least ≤ b.strength)
    (hbound : b.strength < bound) (hright : DerivesAbove b.behind ws (right, ws'))
    (hrest : DerivesOperators b.behind least (.binary b.op left right) ws' r) :
    DerivesOperators bound least left ((o, t) :: ws) r := by
  rcases Token.binding?_cases hb with ⟨op, rfl, rfl⟩ | ⟨op, rfl, rfl⟩ | ⟨rfl, rfl⟩
  · exact add op hleast hright hrest
  · exact multiply op hleast hbound hright hrest
  · exact raise hbound hright hrest

end DerivesOperators

mutual

theorem derives_readAbove : ∀ {fuel least : Nat} {ws : Words} {r : Expr × Words},
    readAbove textEnd fuel least ws = .ok r → DerivesAbove least ws r
  | fuel + 1, least, ws, r, h => by
    rw [readAbove] at h
    obtain ⟨⟨e, rest⟩, hoperand, hrest⟩ := except_bind_ok h
    cases derives_readOperand hoperand with
    | atom a _ words =>
      cases derives_readOperators hrest rest.operator?_strongest with
      | intro x t as rest' words' _ noFactors noAddends ends =>
        refine .intro (.power (.mk a x)) t as rest' ?_ (fun h => noFactors (.inr h)) noAddends ends
        rw [words, words', Unary.words, Power.words, List.append_assoc]
    | signed u _ words ends =>
      cases derives_readOperators hrest ends with
      | intro x t as rest' words' noExponent noFactors noAddends ends' =>
        obtain rfl := noExponent (by decide)
        refine .intro u t as rest' ?_ (fun h => noFactors (.inr h)) noAddends ends'
        rw [words, words', Exponent.words, List.nil_append]

theorem derives_readOperators : ∀ {fuel bound least : Nat} {left : Expr} {ws : Words}
    {r : Expr × Words}, readOperators textEnd fuel least left ws = .ok r →
    ws.operator? bound = none → DerivesOperators bound least left ws r
  | fuel + 1, bound, least, left, ws, r, h, hbound => by
    rw [readOperators] at h
    cases hop : ws.operator? least with
    | none =>
      rw [hop] at h
      obtain rfl := Except.ok.inj h
      exact .intro .nil .nil .nil ws rfl (fun _ => rfl) (fun _ => rfl) (fun _ => rfl) hop
    | some p =>
      obtain ⟨b, rest⟩ := p
      rw [hop] at h
      obtain ⟨⟨right, rest'⟩, habove, hrest⟩ := except_bind_ok h
      obtain ⟨o, t, rfl, hb, hleast⟩ := Words.operator?_eq_some hop
      have hright := derives_readAbove habove
      exact .cons hb hleast (Words.strength_lt hbound hb) hright
        (derives_readOperators hrest hright.ends)

theorem derives_readOperand : ∀ {fuel : Nat} {ws : Words} {r : Expr × Words},
    readOperand textEnd fuel ws = .ok r → DerivesOperand ws r
  | fuel + 1, ws, (e, rest), h => by
    unfold readOperand at h
    split at h
    · cases ‹_ = 0›
    · -- a minus sign
      obtain ⟨⟨e', rest'⟩, habove, hr⟩ := except_bind_ok h
      obtain ⟨rfl, rfl⟩ := Prod.mk.inj (Except.ok.inj hr)
      obtain ⟨u, hu, rfl, ends⟩ := (derives_readAbove habove).unary (by decide)
      exact .signed (.minus u) _ (congrArg (Token.minus :: ·) hu) ends
    · -- a plus sign
      obtain ⟨u, hu, rfl, ends⟩ := (derives_readAbove h).unary (by decide)
      exact .signed (.plus u) _ (congrArg (Token.plus :: ·) hu) ends
    · obtain ⟨a, ha, rfl⟩ := derives_readAtom h
      exact .atom a rest ha

theorem derives_readAtom : ∀ {fuel : Nat} {ws rest : Words} {e : Expr},
    readAtom textEnd fuel ws = .ok (e, rest) →
    ∃ a : Atom, ws.tokens = a.words ++ rest.tokens ∧ e = a.tree
  | fuel + 1, ws, rest, e, h => by
    unfold readAtom at h
    split at h
    · cases ‹_ = 0›
    · -- a number
      obtain ⟨rfl, rfl⟩ := Prod.mk.inj (Except.ok.inj h)
      exact ⟨.number _, rfl, rfl⟩
    · -- a call without arguments
      obtain ⟨rfl, rfl⟩ := Prod.mk.inj (Except.ok.inj h)
      exact ⟨.emptyCall _, rfl, rfl⟩
    · -- a call with arguments
      obtain ⟨⟨es, rest₁⟩, hargs, h⟩ := except_bind_ok h
      obtain ⟨rest₂, hclosing, hr⟩ := except_bind_ok h
      obtain ⟨rfl, rfl⟩ := Prod.mk.inj (Except.ok.inj hr)
      obtain ⟨as, hws, rfl⟩ := derives_readArguments hargs
      obtain ⟨o, rfl⟩ := closing_ok hclosing
      refine ⟨.call _ as, ?_, rfl⟩
      simp [hws, Atom.words]
    · -- a name
      obtain ⟨rfl, rfl⟩ := Prod.mk.inj (Except.ok.inj h)
      exact ⟨.name _, rfl, rfl⟩
    · -- brackets
      obtain ⟨⟨e', rest₁⟩, habove, h⟩ := except_bind_ok h
      obtain ⟨rest₂, hclosing, hr⟩ := except_bind_ok h
      obtain ⟨rfl, rfl⟩ := Prod.mk.inj (Except.ok.inj hr)
      obtain ⟨s, hws, rfl⟩ := (derives_readAbove habove).sum
      obtain ⟨o, rfl⟩ := closing_ok hclosing
      refine ⟨.bracketed s, ?_, rfl⟩
      simp [hws, Atom.words]
    · cases h
    · cases h

theorem derives_readArguments : ∀ {fuel : Nat} {ws rest : Words} {es : List Expr},
    readArguments textEnd fuel ws = .ok (es, rest) →
    ∃ as : Arguments, ws.tokens = as.words ++ rest.tokens ∧ es = as.trees
  | fuel + 1, ws, rest, es, h => by
    rw [readArguments] at h
    obtain ⟨⟨e, rest₁⟩, habove, h⟩ := except_bind_ok h
    obtain ⟨s, hws, rfl⟩ := (derives_readAbove habove).sum
    dsimp only at h
    split at h
    · obtain ⟨⟨es', rest₃⟩, hmore, hr⟩ := except_bind_ok h
      obtain ⟨rfl, rfl⟩ := Prod.mk.inj (Except.ok.inj hr)
      obtain ⟨as, hws', rfl⟩ := derives_readArguments hmore
      refine ⟨.more s as, ?_, rfl⟩
      simp [hws, hws', Arguments.words]
    · obtain ⟨rfl, rfl⟩ := Prod.mk.inj (Except.ok.inj h)
      exact ⟨.last s, hws, rfl⟩

end

/-- The expression that is found is the one of a derivation. -/
theorem derivation_of_ofWords {ws : Words} (h : ofWords textEnd ws = .ok e) :
    ∃ s : Sum, s.words = ws.tokens ∧ s.tree = e := by
  obtain ⟨⟨e', rest'⟩, habove, hr⟩ := except_bind_ok h
  obtain ⟨s, hws, rfl⟩ := (derives_readAbove habove).sum
  match rest', hws, hr with
  | [], hws, hr =>
    refine ⟨s, ?_, Except.ok.inj hr⟩
    rw [hws]
    exact (List.append_nil _).symm

/-! ### Where reading fails -/

/-- No word starts behind the end of the text. -/
def Words.Inside (textEnd : Nat) (ws : Words) : Prop := ∀ w ∈ ws, w.1 ≤ textEnd

/-- Reading leaves words of the text or fails at a place in it. -/
def Within {α : Type} (textEnd : Nat) : Reading (α × Words) → Prop
  | .ok (_, rest) => rest.Inside textEnd
  | .error (o, _) => o ≤ textEnd

variable {ws : Words}

theorem Words.Inside.tail {w : Nat × Token} (h : Words.Inside textEnd (w :: ws)) :
    ws.Inside textEnd :=
  fun _ hw => h _ (List.mem_cons_of_mem _ hw)

theorem Words.Inside.offset_le (h : ws.Inside textEnd) : ws.offset textEnd ≤ textEnd := by
  cases ws with
  | nil => exact Nat.le_refl _
  | cons w rest => exact h w List.mem_cons_self

namespace Within

variable {α β : Type}

theorem bind {x : Reading (α × Words)} {f : α × Words → Reading (β × Words)}
    (hx : Within textEnd x)
    (hf : ∀ a rest, rest.Inside textEnd → Within textEnd (f (a, rest))) :
    Within textEnd (x >>= f) := by
  match x, hx with
  | .error e, hx => exact hx
  | .ok (a, rest), hx => exact hf a rest hx

theorem closing {f : Words → Reading (α × Words)} (h : ws.Inside textEnd)
    (hf : ∀ rest, rest.Inside textEnd → Within textEnd (f rest)) :
    Within textEnd (closing textEnd ws >>= f) := by
  unfold Expression.closing
  split
  · exact hf _ h.tail
  · exact h.offset_le

end Within

mutual

theorem within_readAbove : ∀ {fuel least : Nat} {ws : Words}, ws.Inside textEnd →
    Within textEnd (readAbove textEnd fuel least ws)
  | 0, _, _, h => h.offset_le
  | _ + 1, _, _, h => (within_readOperand h).bind fun _ _ hrest => within_readOperators hrest

theorem within_readOperators : ∀ {fuel least : Nat} {left : Expr} {ws : Words},
    ws.Inside textEnd → Within textEnd (readOperators textEnd fuel least left ws)
  | 0, _, _, _, h => h.offset_le
  | fuel + 1, least, left, ws, h => by
    rw [readOperators]
    split
    · rename_i b rest hop
      obtain ⟨o, t, rfl, -, -⟩ := Words.operator?_eq_some hop
      exact (within_readAbove h.tail).bind fun _ _ hrest => within_readOperators hrest
    · exact h

theorem within_readOperand : ∀ {fuel : Nat} {ws : Words}, ws.Inside textEnd →
    Within textEnd (readOperand textEnd fuel ws)
  | 0, _, h => h.offset_le
  | fuel + 1, ws, h => by
    unfold readOperand
    split
    · exact h.offset_le
    · exact (within_readAbove h.tail).bind fun _ _ hrest => hrest
    · exact within_readAbove h.tail
    · exact within_readAtom h

theorem within_readAtom : ∀ {fuel : Nat} {ws : Words}, ws.Inside textEnd →
    Within textEnd (readAtom textEnd fuel ws)
  | 0, _, h => h.offset_le
  | fuel + 1, ws, h => by
    unfold readAtom
    split
    · exact h.offset_le
    · exact h.tail
    · exact h.tail.tail.tail
    · exact (within_readArguments h.tail.tail).bind fun _ _ hrest =>
        .closing hrest fun _ hrest' => hrest'
    · exact h.tail
    · exact (within_readAbove h.tail).bind fun _ _ hrest => .closing hrest fun _ hrest' => hrest'
    · exact h _ List.mem_cons_self
    · exact Nat.le_refl textEnd

theorem within_readArguments : ∀ {fuel : Nat} {ws : Words}, ws.Inside textEnd →
    Within textEnd (readArguments textEnd fuel ws)
  | 0, _, h => h.offset_le
  | fuel + 1, ws, h => by
    rw [readArguments]
    refine (within_readAbove h).bind fun e rest hrest => ?_
    dsimp only
    split
    · exact (within_readArguments hrest.tail).bind fun _ _ hrest' => hrest'
    · exact hrest

end

/-- Words that are no expression are refused at one of them or at the end of the text. -/
theorem errsOnly_ofWords (h : ws.Inside textEnd) :
    ErrsOnly (·.1 ≤ textEnd) (ofWords textEnd ws) := by
  have hread : Within textEnd (readAbove textEnd (readingFuel ws) 0 ws) := within_readAbove h
  rw [ofWords]
  match readAbove textEnd (readingFuel ws) 0 ws, hread with
  | .error e, hread => exact .error hread
  | .ok (e, []), _ => exact .ok e
  | .ok (e, (o, t) :: rest), hrest => exact .error (hrest (o, t) List.mem_cons_self)

/-! ### Where words stand -/

/-- A text that is read as one word. -/
inductive Spells : List Char → Token → Prop
  | power : Spells ['*', '*'] .pow
  | symbol {c : Char} {t : Token} (h : symbol? c = some t) : Spells [c] t
  | number {text : List Char} {decimal : Bool} {n : Number}
    (h : readNumber? text decimal = some n) : Spells text (.num n)
  | name (text : List Char) : Spells text (.ident (String.ofList text))

/-- The place of the word is that of a text for it among the characters, which start at `offset`. -/
def StandsIn (offset : Nat) (cs : List Char) (w : Nat × Token) : Prop :=
  ∃ front text behind, cs = front ++ text ++ behind ∧ w.1 = offset + front.length ∧ Spells text w.2

/-- No operator or bracket is a number or a name. -/
theorem symbol?_ne {c : Char} {t : Token} (h : symbol? c = some t) :
    (∀ n, t ≠ .num n) ∧ ∀ name, t ≠ .ident name := by
  unfold symbol? at h
  split at h <;> cases h <;> exact ⟨nofun, nofun⟩

theorem Spells.toList_of_ident {text : List Char} {name : String} (h : Spells text (.ident name)) :
    name.toList = text := by
  generalize hword : Token.ident name = t at h
  cases h with
  | power => cases hword
  | symbol hsymbol => exact absurd hword.symm ((symbol?_ne hsymbol).2 name)
  | number => cases hword
  | name =>
    cases hword
    exact String.toList_ofList

theorem StandsIn.append {offset : Nat} {front cs : List Char} {w : Nat × Token}
    (h : StandsIn (offset + front.length) cs w) : StandsIn offset (front ++ cs) w := by
  obtain ⟨front', text, behind, rfl, hplace, hspells⟩ := h
  refine ⟨front ++ front', text, behind, by simp only [List.append_assoc], ?_, hspells⟩
  rw [hplace, List.length_append, Nat.add_assoc]

/-- Each step reads one word and goes on behind its text. -/
theorem standsIn_of_bind {offset : Nat} {text cs : List Char} {t : Token}
    {x : Except (Nat × Malformed) Words}
    (h : (do let ts ← x; .ok ((offset, t) :: ts)) = Except.ok ws) (ht : Spells text t)
    (hx : ∀ ts, x = .ok ts → ∀ w ∈ ts, StandsIn (offset + text.length) cs w) :
    ∀ w ∈ ws, StandsIn offset (text ++ cs) w := by
  obtain ⟨ts, hts, hws⟩ := except_bind_ok h
  obtain rfl := Except.ok.inj hws
  exact List.forall_mem_cons.2 ⟨⟨[], text, cs, rfl, rfl, ht⟩, fun w hw => (hx ts hts w hw).append⟩

theorem numberText_append (cs : List Char) : (numberText cs).1 ++ (numberText cs).2.2 = cs := by
  fun_induction numberText cs <;> simp_all

/-- Every word of a text stands in it, at the place that comes with the word. -/
theorem standsIn_of_mem_tokens {fuel offset : Nat} {cs : List Char}
    (h : tokens fuel offset cs = .ok ws) : ∀ w ∈ ws, StandsIn offset cs w := by
  fun_induction tokens fuel offset cs generalizing ws with
  | case1 =>
    obtain rfl := Except.ok.inj h
    exact nofun
  | case2 => cases h
  | case3 fuel offset c rest _ ih =>
    -- a blank
    intro w hw
    have hbehind : StandsIn (offset + [c].length) rest w := ih h w hw
    exact hbehind.append
  | case4 fuel offset c rest _ hpower ih =>
    -- a power
    obtain ⟨hc, hstar⟩ := Bool.and_eq_true_iff.1 hpower
    obtain rfl := of_decide_eq_true hc
    obtain ⟨rest', rfl⟩ := List.head?_eq_some_iff.1 (of_decide_eq_true hstar)
    exact standsIn_of_bind h .power fun ts hts => ih hts
  | case5 fuel offset c rest _ _ t hsymbol ih =>
    exact standsIn_of_bind h (.symbol hsymbol) fun ts hts => ih hts
  | case6 fuel offset c rest _ _ _ _ text decimal rest' htext n hnumber ih =>
    have hsplit := numberText_append (c :: rest)
    rw [htext] at hsplit
    rw [← hsplit]
    exact standsIn_of_bind h (.number hnumber) fun ts hts => ih hts
  | case7 => cases h
  | case8 fuel offset c rest _ _ _ _ _ name =>
    rename_i ih
    have hsplit : name ++ rest.dropWhile continuesName = c :: rest :=
      congrArg (c :: ·) List.takeWhile_append_dropWhile
    rw [← hsplit]
    exact standsIn_of_bind h (.name name) fun ts hts => ih hts
  | case9 => cases h

/-- A character takes a byte at least. -/
theorem length_toList_le_utf8ByteSize (text : String) :
    text.toList.length ≤ text.utf8ByteSize := by
  suffices h : ∀ cs : List Char, cs.length ≤ (String.ofList cs).utf8ByteSize by
    simpa using h text.toList
  intro cs
  induction cs with
  | nil => exact Nat.zero_le _
  | cons c cs ih =>
    have hc : (String.ofList [c]).utf8ByteSize = c.utf8Size := by
      simp [← String.size_toByteArray, List.utf8Encode_singleton]
    have hpos := c.utf8Size_pos
    rw [← List.singleton_append, String.ofList_append, String.utf8ByteSize_append, hc,
      List.length_append, List.length_singleton]
    omega

/-- No word of a text starts behind its end. -/
theorem inside_tokenize {text : String} (h : tokenize text = .ok ws) :
    ws.Inside text.utf8ByteSize := by
  intro w hw
  obtain ⟨front, word, behind, hsplit, hplace, -⟩ := standsIn_of_mem_tokens h w hw
  have hlength := length_toList_le_utf8ByteSize text
  rw [hsplit, List.length_append, List.length_append] at hlength
  omega

end ParamSweep.Expression
