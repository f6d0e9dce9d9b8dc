import Mathlib
import ParamSweep.Expression.Evaluate
import ParamSweep.Proofs.ExpressionReading

/-!
Writing expressions.

Every expression has a derivation in which brackets stand only where the grammar has no place for
the operand without them (`Expr.derivation`). Its words are the fewest that any derivation of the
expression has, and reading them gives the expression back.

Main statement: `reads_grammar`, on the texts that can be read and on what is read off them.
-/

namespace ParamSweep.Expression

namespace Grammar

/-! ### Narrow derivations in place of wide ones -/

/-- A sum of one product. -/
def Product.toSum (p : Product) : Sum := .mk p .nil

/-- A product of one operand. -/
def Unary.toProduct (u : Unary) : Product := .mk u .nil

/-- An atom that is not raised. -/
def Atom.toUnary (a : Atom) : Unary := .power (.mk a .nil)

/-- The operand of a sum: a sum itself only in brackets. -/
def Sum.asProduct : Sum → Product
  | .mk p .nil => p
  | s => (Atom.bracketed s).toUnary.toProduct

/-- The operand of a product or of a sign: a sum or a product only in brackets. -/
def Sum.asUnary : Sum → Unary
  | .mk (.mk u .nil) .nil => u
  | s => (Atom.bracketed s).toUnary

/-- What is raised to a power: all but atoms only in brackets. -/
def Sum.asAtom : Sum → Atom
  | .mk (.mk (.power (.mk a .nil)) .nil) .nil => a
  | s => .bracketed s

def Addends.concat : Addends → Additive → Product → Addends
  | .nil, op, p => .cons op p .nil
  | .cons op' p' t, op, p => .cons op' p' (t.concat op p)

def Factors.concat : Factors → Multiplicative → Unary → Factors
  | .nil, op, u => .cons op u .nil
  | .cons op' u' t, op, u => .cons op' u' (t.concat op u)

/-- A sum with one more product. -/
def Sum.add : Sum → Additive → Product → Sum
  | .mk p t, op, q => .mk p (t.concat op q)

/-- A product with one more operand. -/
def Product.multiply : Product → Multiplicative → Unary → Product
  | .mk u t, op, v => .mk u (t.concat op v)

/-- The derivation of an operation from those of its operands. -/
def join : BinOp → Sum → Sum → Sum
  | .add, l, r => l.add .plus r.asProduct
  | .sub, l, r => l.add .minus r.asProduct
  | .mul, l, r => (l.asProduct.multiply .times r.asUnary).toSum
  | .div, l, r => (l.asProduct.multiply .over r.asUnary).toSum
  | .mod, l, r => (l.asProduct.multiply .modulo r.asUnary).toSum
  | .pow, l, r => (Unary.power (.mk l.asAtom (.mk r.asUnary))).toProduct.toSum

end Grammar

open Grammar

mutual

/-- The derivation of an expression with as few brackets as can be. -/
def Expr.derivation : Expr → Grammar.Sum
  | .num n => (Atom.number n).toUnary.toProduct.toSum
  | .var x => (Atom.name x).toUnary.toProduct.toSum
  | .neg e => (Unary.minus e.derivation.asUnary).toProduct.toSum
  | .binary op l r => join op l.derivation r.derivation
  | .call f es => (callOf f es).toUnary.toProduct.toSum

/-- The derivation of a call. -/
def callOf (f : String) : List Expr → Atom
  | [] => .emptyCall f
  | e :: es => .call f (argumentsOf e.derivation es)

/-- The derivation of arguments behind the first one. -/
def argumentsOf (first : Grammar.Sum) : List Expr → Arguments
  | [] => .last first
  | e :: es => .more first (argumentsOf e.derivation es)

end

/-- The words that an expression is written with. -/
def Expr.words (e : Expr) : List Token := e.derivation.words

namespace Grammar

variable {s : Sum}

/-! ### The expression of a derivation stays -/

@[simp] theorem Sum.tree_asProduct (s : Sum) : s.asProduct.tree = s.tree := by
  unfold Sum.asProduct
  split <;> rfl

@[simp] theorem Sum.tree_asUnary (s : Sum) : s.asUnary.tree = s.tree := by
  unfold Sum.asUnary
  split <;> rfl

@[simp] theorem Sum.tree_asAtom (s : Sum) : s.asAtom.tree = s.tree := by
  unfold Sum.asAtom
  split <;> rfl

@[simp] theorem Product.tree_toSum (p : Product) : p.toSum.tree = p.tree := rfl

@[simp] theorem Unary.tree_toProduct (u : Unary) : u.toProduct.tree = u.tree := rfl

@[simp] theorem Atom.tree_toUnary (a : Atom) : a.toUnary.tree = a.tree := rfl

theorem Addends.treeAfter_concat (t : Addends) (op : Additive) (p : Product) (left : Expr) :
    (t.concat op p).treeAfter left = .binary op.op (t.treeAfter left) p.tree := by
  match t with
  | .nil => rfl
  | .cons op' p' t => exact t.treeAfter_concat op p _

theorem Factors.treeAfter_concat (t : Factors) (op : Multiplicative) (u : Unary) (left : Expr) :
    (t.concat op u).treeAfter left = .binary op.op (t.treeAfter left) u.tree := by
  match t with
  | .nil => rfl
  | .cons op' u' t => exact t.treeAfter_concat op u _

@[simp] theorem Sum.tree_add (s : Sum) (op : Additive) (p : Product) :
    (s.add op p).tree = .binary op.op s.tree p.tree := by
  obtain ⟨q, t⟩ := s
  exact t.treeAfter_concat op p q.tree

@[simp] theorem Product.tree_multiply (p : Product) (op : Multiplicative) (u : Unary) :
    (p.multiply op u).tree = .binary op.op p.tree u.tree := by
  obtain ⟨v, t⟩ := p
  exact t.treeAfter_concat op u v.tree

@[simp] theorem tree_join (op : BinOp) (l r : Sum) :
    (join op l r).tree = .binary op l.tree r.tree := by
  cases op <;>
    simp [join, Additive.op, Multiplicative.op, Unary.tree, Power.tree, Exponent.treeAfter]

end Grammar

mutual

/-- The derivation of an expression derives it. -/
theorem tree_derivation : ∀ e : Expr, e.derivation.tree = e
  | .num n => rfl
  | .var x => rfl
  | .neg e => by
    simp [Expr.derivation, Unary.tree, tree_derivation e]
  | .binary op l r => by
    simp [Expr.derivation, tree_derivation l, tree_derivation r]
  | .call f es => tree_callOf f es

theorem tree_callOf (f : String) : ∀ es : List Expr, (callOf f es).tree = .call f es
  | [] => rfl
  | e :: es => by
    rw [callOf, Atom.tree, trees_argumentsOf e.derivation es, tree_derivation e]

theorem trees_argumentsOf (first : Grammar.Sum) : ∀ es : List Expr,
    (argumentsOf first es).trees = first.tree :: es
  | [] => rfl
  | e :: es => by
    rw [argumentsOf, Arguments.trees, trees_argumentsOf e.derivation es, tree_derivation e]

end

/-! ### No derivation has fewer words -/

namespace Grammar

@[simp] theorem Product.words_toSum (p : Product) : p.toSum.words = p.words := by
  simp [Product.toSum, Sum.words, Addends.words]

@[simp] theorem Unary.words_toProduct (u : Unary) : u.toProduct.words = u.words := by
  simp [Unary.toProduct, Product.words, Factors.words]

@[simp] theorem Atom.words_toUnary (a : Atom) : a.toUnary.words = a.words := by
  simp [Atom.toUnary, Unary.words, Power.words, Exponent.words]

@[simp] theorem Atom.length_bracketed (s : Sum) :
    (Atom.bracketed s).words.length = s.words.length + 2 := by
  simp [Atom.words]

-- The narrower the place, the more brackets are needed, but one pair is always enough.

theorem Sum.length_le_asProduct (s : Sum) : s.words.length ≤ s.asProduct.words.length := by
  unfold Sum.asProduct
  split
  · exact Nat.le_of_eq (congrArg List.length (Product.words_toSum _))
  · simp

theorem Sum.length_asProduct_le_asUnary (s : Sum) :
    s.asProduct.words.length ≤ s.asUnary.words.length := by
  unfold Sum.asUnary
  split
  · exact Nat.le_of_eq (congrArg List.length (Unary.words_toProduct _))
  · unfold Sum.asProduct
    split
    · rw [← Product.toSum]
      simp
    · simp

theorem Sum.length_asUnary_le_asAtom (s : Sum) :
    s.asUnary.words.length ≤ s.asAtom.words.length := by
  unfold Sum.asAtom
  split
  · exact Nat.le_of_eq (congrArg List.length (Atom.words_toUnary _))
  · unfold Sum.asUnary
    split
    · rw [← Unary.toProduct, ← Product.toSum]
      simp
    · simp

theorem Sum.length_asAtom_le (s : Sum) : s.asAtom.words.length ≤ s.words.length + 2 := by
  unfold Sum.asAtom
  split
  · rw [← Atom.toUnary, ← Unary.toProduct, ← Product.toSum]
    simp
  · simp

theorem Addends.length_concat (t : Addends) (op : Additive) (p : Product) :
    (t.concat op p).words.length = t.words.length + 1 + p.words.length := by
  match t with
  | .nil => simp [Addends.concat, Addends.words, Nat.add_comm]
  | .cons op' p' t =>
    simp only [Addends.concat, Addends.words, List.length_cons, List.length_append,
      t.length_concat op p]
    omega

theorem Factors.length_concat (t : Factors) (op : Multiplicative) (u : Unary) :
    (t.concat op u).words.length = t.words.length + 1 + u.words.length := by
  match t with
  | .nil => simp [Factors.concat, Factors.words, Nat.add_comm]
  | .cons op' u' t =>
    simp only [Factors.concat, Factors.words, List.length_cons, List.length_append,
      t.length_concat op u]
    omega

theorem Sum.length_add (s : Sum) (op : Additive) (p : Product) :
    (s.add op p).words.length = s.words.length + 1 + p.words.length := by
  obtain ⟨q, t⟩ := s
  simp only [Sum.add, Sum.words, List.length_append, t.length_concat op p]
  omega

theorem Product.length_multiply (p : Product) (op : Multiplicative) (u : Unary) :
    (p.multiply op u).words.length = p.words.length + 1 + u.words.length := by
  obtain ⟨v, t⟩ := p
  simp only [Product.multiply, Product.words, List.length_append, t.length_concat op u]
  omega

theorem join_additive (op : Additive) (l r : Sum) : join op.op l r = l.add op r.asProduct := by
  cases op <;> rfl

theorem join_multiplicative (op : Multiplicative) (l r : Sum) :
    join op.op l r = (l.asProduct.multiply op r.asUnary).toSum := by
  cases op <;> rfl

@[simp] theorem Product.asProduct_toSum (p : Product) : p.toSum.asProduct = p := rfl

@[simp] theorem Unary.asUnary_toSum (u : Unary) : u.toProduct.toSum.asUnary = u := rfl

@[simp] theorem Atom.asAtom_toSum (a : Atom) : a.toUnary.toProduct.toSum.asAtom = a := rfl

mutual

theorem Sum.length_derivation_le : ∀ s : Sum, s.tree.derivation.words.length ≤ s.words.length
  | .mk p t => by
    have hp := Nat.le_trans p.tree.derivation.length_le_asProduct p.length_derivation_le
    rw [Sum.words, List.length_append]
    exact t.length_derivation_le hp

theorem Addends.length_derivation_le : ∀ (t : Addends) {left : Expr} {n : Nat},
    left.derivation.words.length ≤ n →
    (t.treeAfter left).derivation.words.length ≤ n + t.words.length
  | .nil, _, _, h => h
  | .cons op p t, left, n, h => by
    have hp := p.length_derivation_le
    have hleft : (Expr.binary op.op left p.tree).derivation.words.length
        ≤ n + 1 + p.words.length := by
      rw [Expr.derivation, join_additive, Sum.length_add]
      omega
    have hrest := t.length_derivation_le hleft
    rw [Addends.treeAfter, Addends.words, List.length_cons, List.length_append]
    omega

theorem Product.length_derivation_le : ∀ p : Product,
    p.tree.derivation.asProduct.words.length ≤ p.words.length
  | .mk u t => by
    have hu := Nat.le_trans u.tree.derivation.length_asProduct_le_asUnary u.length_derivation_le
    rw [Product.words, List.length_append]
    exact t.length_derivation_le hu

theorem Factors.length_derivation_le : ∀ (t : Factors) {left : Expr} {n : Nat},
    left.derivation.asProduct.words.length ≤ n →
    (t.treeAfter left).derivation.asProduct.words.length ≤ n + t.words.length
  | .nil, _, _, h => h
  | .cons op u t, left, n, h => by
    have hu := u.length_derivation_le
    have hleft : (Expr.binary op.op left u.tree).derivation.asProduct.words.length
        ≤ n + 1 + u.words.length := by
      rw [Expr.derivation, join_multiplicative, Product.asProduct_toSum, Product.length_multiply]
      omega
    have hrest := t.length_derivation_le hleft
    rw [Factors.treeAfter, Factors.words, List.length_cons, List.length_append]
    omega

theorem Unary.length_derivation_le : ∀ u : Unary,
    u.tree.derivation.asUnary.words.length ≤ u.words.length
  | .minus u => Nat.succ_le_succ u.length_derivation_le
  | .plus u => Nat.le_succ_of_le u.length_derivation_le
  | .power p => p.length_derivation_le

theorem Power.length_derivation_le : ∀ p : Power,
    p.tree.derivation.asUnary.words.length ≤ p.words.length
  | .mk a .nil => by
    have ha := Nat.le_trans a.tree.derivation.length_asUnary_le_asAtom a.length_derivation_le
    rw [Power.words, Exponent.words, List.append_nil]
    exact ha
  | .mk a (.mk u) => by
    have ha := a.length_derivation_le
    have hu := u.length_derivation_le
    have hjoin : (Power.mk a (.mk u)).tree.derivation.asUnary =
        .power (.mk a.tree.derivation.asAtom (.mk u.tree.derivation.asUnary)) := rfl
    simp only [hjoin, Unary.words, Power.words, Exponent.words, List.length_append,
      List.length_cons]
    omega

theorem Atom.length_derivation_le : ∀ a : Atom,
    a.tree.derivation.asAtom.words.length ≤ a.words.length
  | .number _ => Nat.le_refl _
  | .name _ => Nat.le_refl _
  | .emptyCall _ => Nat.le_refl _
  | .call f as => by
    obtain ⟨e, es, htrees, has⟩ := as.length_derivation_le
    have hcall : (Atom.call f as).tree.derivation.asAtom =
        .call f (argumentsOf e.derivation es) := by
      rw [Atom.tree, htrees]
      rfl
    simp only [hcall, Atom.words, List.length_cons, List.length_append]
    omega
  | .bracketed s => by
    have hs := s.length_derivation_le
    have hatom := s.tree.derivation.length_asAtom_le
    rw [Atom.length_bracketed, Atom.tree]
    omega

theorem Arguments.length_derivation_le : ∀ as : Arguments,
    ∃ e es, as.trees = e :: es ∧
      (argumentsOf e.derivation es).words.length ≤ as.words.length
  | .last s => ⟨s.tree, [], rfl, s.length_derivation_le⟩
  | .more s as => by
    obtain ⟨e, es, htrees, has⟩ := as.length_derivation_le
    have hs := s.length_derivation_le
    refine ⟨s.tree, e :: es, by rw [Arguments.trees, htrees], ?_⟩
    simp only [argumentsOf, Arguments.words, List.length_append, List.length_cons]
    omega

end

end Grammar

/-! ### The texts that can be read -/

/-- Reading a text finds the expression of its words' only derivation. Where they have none it
fails at a place in the text. An expression that is written with the fewest words is read back. -/
theorem reads_grammar {text : String} {ws : Words} (h : tokenize text = .ok ws) :
    (∀ e, read text = .ok e ↔ ∃ s : Grammar.Sum, s.words = ws.tokens ∧ s.tree = e) ∧
    (∀ s s' : Grammar.Sum, s.words = ws.tokens → s'.words = ws.tokens → s = s') ∧
    ((∀ s : Grammar.Sum, s.words ≠ ws.tokens) →
      ∃ offset cause, offset ≤ text.utf8ByteSize ∧ read text = .error (offset, cause) ∧
        ∀ context, evaluate text context = .error (.malformed offset cause)) ∧
    (∀ e textEnd (us : Words), us.tokens = e.words → ofWords textEnd us = .ok e) ∧
    ∀ e (s : Grammar.Sum), s.tree = e → e.words.length ≤ s.words.length := by
  have hread : read text = ofWords text.utf8ByteSize ws := by
    rw [read, h]
    rfl
  have hfound : ∀ s : Grammar.Sum, s.words = ws.tokens → read text = .ok s.tree :=
    fun s hs => hread.trans (Sum.ofWords_eq hs.symm)
  refine ⟨fun e => ⟨fun he => ?_, ?_⟩, fun s s' hs hs' => Sum.eq_of_words_eq (hs.trans hs'.symm),
    fun hnone => ?_, fun e textEnd us hus => ?_, ?_⟩
  · exact derivation_of_ofWords (hread.symm.trans he)
  · rintro ⟨s, hs, rfl⟩
    exact hfound s hs
  · cases hr : read text with
    | ok e =>
      obtain ⟨s, hs, -⟩ := derivation_of_ofWords (hread.symm.trans hr)
      exact absurd hs (hnone s)
    | error e =>
      obtain ⟨offset, cause⟩ := e
      have hoffset := errsOnly_ofWords (inside_tokenize h) _ (hread.symm.trans hr)
      refine ⟨offset, cause, hoffset, rfl, fun context => ?_⟩
      rw [evaluate, hr]
  · rw [Sum.ofWords_eq hus, tree_derivation]
  · rintro e s rfl
    exact s.length_derivation_le

/-- A sign is weaker than a power and stronger than a product, and a minus sign in a sum takes what
is left of it as a whole. -/
theorem read_signed_power :
    tokenize "a - -b ** 2 * f(c)" = .ok [(0, .ident "a"), (2, .minus), (4, .minus),
      (5, .ident "b"), (7, .pow), (10, .num (.int 2)), (12, .star), (14, .ident "f"),
      (15, .leftParen), (16, .ident "c"), (17, .rightParen)] ∧
    read "a - -b ** 2 * f(c)" = .ok (.binary .sub (.var "a") (.binary .mul
      (.neg (.binary .pow (.var "b") (.num (.int 2)))) (.call "f" [.var "c"]))) := by
  have htokens : tokenize "a - -b ** 2 * f(c)" = .ok [(0, .ident "a"), (2, .minus), (4, .minus),
      (5, .ident "b"), (7, .pow), (10, .num (.int 2)), (12, .star), (14, .ident "f"),
      (15, .leftParen), (16, .ident "c"), (17, .rightParen)] := by cbv
  refine ⟨htokens, ((reads_grammar htokens).1 _).2 ⟨Expr.derivation _, ?_, tree_derivation _⟩⟩
  rfl

end ParamSweep.Expression
