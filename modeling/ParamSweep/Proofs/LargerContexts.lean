import Mathlib
import ParamSweep.Proofs.Derivation
import ParamSweep.Proofs.ExpressionReading

/-!
The value of a text in a context and in one that holds more.

A context extends another if it has all of its bindings. What was found in the smaller one, a value
or a failure, is found in the larger one (`evaluate_of_extends`): of two results the second can
differ only where the first is that a name is missing (`Outlasts`), and evaluation stops at the
first name that is. Such a name is one of the expression's variables (`Missing`), and those are
names among the words of the text (`Sum.ident_mem_words`), which are taken from its characters
(`infix_of_mem_tokens`).
-/

namespace ParamSweep.Expression

open Grammar

/-- All bindings of `t` are bindings of `t'`. -/
def Extends (t t' : Entries Value) : Prop := ∀ key v, t.find? key = some v → t'.find? key = some v

variable {t t' : Entries Value} {x : String}

theorem Extends.lookup {path : String} {v : Value} (h : Extends t t') (hv : t.lookup path = some v) :
    t'.lookup path = some v := by
  rw [Entries.lookup] at hv ⊢
  cases hkeys : pathKeys path with
  | nil => exact absurd hkeys (pathKeys_ne_nil path)
  | cons key rest =>
    rw [hkeys, Value.descend, Value.get?] at hv
    obtain ⟨w, hw, hdescend⟩ := Option.bind_eq_some_iff.1 hv
    rw [Value.descend, Value.get?, h key w hw]
    exact hdescend

/-! ### What a larger context can change -/

/-- The second result is the first, unless the first is that a name is missing. -/
def Outlasts {α : Type} (r r' : Except Fault α) : Prop :=
  (∀ x, r ≠ .error (.unknownIdentifier x)) → r' = r

namespace Outlasts

variable {α β : Type} {r r' : Except Fault α} {f f' : α → Except Fault β}

theorem refl (r : Except Fault α) : Outlasts r r := fun _ => rfl

/-- Results are compared step by step: where the first step lacks no name, both go on alike. -/
theorem bind (h : Outlasts r r') (hf : ∀ a, Outlasts (f a) (f' a)) :
    Outlasts (r >>= f) (r' >>= f') := by
  intro hsettled
  cases r with
  | error e =>
    rw [h fun x hx => hsettled x (by rw [hx]; rfl)]
    rfl
  | ok a =>
    rw [h nofun]
    exact hf a hsettled

end Outlasts

mutual

theorem Expr.outlasts_eval (h : Extends t t') : ∀ e : Expr, Outlasts (e.eval t) (e.eval t')
  | .num n => .refl _
  | .var name => by
    intro hsettled
    rw [Expr.eval] at hsettled ⊢
    rw [Expr.eval]
    cases hname : t.lookup name with
    | none => exact absurd (by rw [hname]) (hsettled name)
    | some v => rw [h.lookup hname]
  | .neg e => by
    rw [Expr.eval, Expr.eval]
    exact (e.outlasts_eval h).bind fun _ => .refl _
  | .binary op l r => by
    rw [Expr.eval, Expr.eval]
    exact (l.outlasts_eval h).bind fun _ => (r.outlasts_eval h).bind fun _ => .refl _
  | .call f arguments => by
    rw [Expr.eval, Expr.eval]
    exact (outlasts_evalAll h arguments).bind fun _ => .refl _

theorem outlasts_evalAll (h : Extends t t') : ∀ es : List Expr,
    Outlasts (evalAll t es) (evalAll t' es)
  | [] => .refl _
  | e :: rest => by
    rw [evalAll, evalAll]
    exact (e.outlasts_eval h).bind fun _ => (outlasts_evalAll h rest).bind fun _ => .refl _

end

/-! ### Which name is missing -/

mutual

/-- The variables of an expression, as they are written. -/
def Expr.variables : Expr → List String
  | .num _ => []
  | .var name => [name]
  | .neg e => e.variables
  | .binary _ l r => l.variables ++ r.variables
  | .call _ arguments => variablesOf arguments

@[inherit_doc Expr.variables]
def variablesOf : List Expr → List String
  | [] => []
  | e :: rest => e.variables ++ variablesOf rest

end

/-- If the result is that a name is missing, it is one of `names` and is not in the context. -/
def Missing {α : Type} (names : List String) (t : Entries Value) (r : Except Fault α) : Prop :=
  ∀ x, r = .error (.unknownIdentifier x) → x ∈ names ∧ t.lookup x = none

namespace Missing

variable {α β : Type} {names more : List String} {r : Except Fault α} {f : α → Except Fault β}

theorem ok (a : α) : Missing names t (.ok a) := nofun

theorem failed (cause : Failure) : Missing (α := α) names t (.error (.failed cause)) := nofun

theorem bind (hr : Missing names t r) (hf : ∀ a, Missing more t (f a)) :
    Missing (names ++ more) t (r >>= f) := by
  intro x hx
  cases r with
  | error e =>
    obtain ⟨hmem, hnone⟩ := hr x (by cases hx; rfl)
    exact ⟨List.mem_append_left _ hmem, hnone⟩
  | ok a =>
    obtain ⟨hmem, hnone⟩ := hf a x hx
    exact ⟨List.mem_append_right _ hmem, hnone⟩

/-- A last step that never lacks a name. -/
theorem bind_last (hr : Missing names t r) (hf : ∀ a, Missing [] t (f a)) :
    Missing names t (r >>= f) :=
  List.append_nil names ▸ hr.bind hf

end Missing

theorem missing_numberOf (name : String) (v : Value) : Missing [] t (numberOf name v) := by
  unfold numberOf
  split
  · exact .ok _
  · exact .ok _
  · exact .ok _
  · exact .failed _

theorem missing_applyDouble (op : BinOp) (a b : Float) : Missing [] t (applyDouble op a b) := by
  unfold applyDouble
  split
  · exact .ok _
  · exact .ok _
  · exact .ok _
  · split
    · exact .failed _
    · exact .ok _
  · split
    · exact .failed _
    · exact .ok _
  · exact .ok _

theorem missing_applyBinary (op : BinOp) (a b : Number) : Missing [] t (applyBinary op a b) := by
  unfold applyBinary
  split
  · exact .failed _
  · exact .failed _
  · split
    · exact .ok _
    · exact missing_applyDouble _ _ _
  · exact missing_applyDouble _ _ _

theorem missing_unary (function : String) (f : Number → Number) (arguments : List Number) :
    Missing [] t (unary function f arguments) := by
  unfold unary
  split
  · exact .ok _
  · exact .failed _

theorem missing_applyFunction (function : String) (arguments : List Number) :
    Missing [] t (applyFunction function arguments) := by
  unfold applyFunction
  dsimp only
  split
  · exact missing_unary _ _ _
  · exact missing_unary _ _ _
  · exact missing_unary _ _ _
  · exact missing_unary _ _ _
  · split
    · exact missing_applyBinary _ _ _
    · exact .failed _
  · split
    · exact .failed _
    · exact .ok _
  · split
    · exact .failed _
    · exact .ok _
  · exact .failed _

mutual

theorem Expr.missing_eval : ∀ e : Expr, Missing e.variables t (e.eval t)
  | .num n => .ok n
  | .var name => by
    rw [Expr.eval]
    cases hname : t.lookup name with
    | none =>
      rintro x hx
      cases hx
      exact ⟨List.mem_cons_self, hname⟩
    | some v => exact fun x hx => absurd (missing_numberOf (t := t) name v x hx).1 List.not_mem_nil
  | .neg e => by
    rw [Expr.eval]
    exact e.missing_eval.bind_last fun a => .ok (negate a)
  | .binary op l r => by
    rw [Expr.eval]
    exact l.missing_eval.bind fun a => r.missing_eval.bind_last fun b => missing_applyBinary op a b
  | .call f arguments => by
    rw [Expr.eval]
    exact (missing_evalAll arguments).bind_last fun values => missing_applyFunction f values

theorem missing_evalAll : ∀ es : List Expr, Missing (variablesOf es) t (evalAll t es)
  | [] => .ok []
  | e :: rest => by
    rw [evalAll]
    exact e.missing_eval.bind fun a => (missing_evalAll rest).bind_last fun as => .ok (a :: as)

end

/-! ### Variables and words -/

namespace Grammar

mutual

/-- A variable of a derived expression is a name among the words. -/
theorem Sum.ident_mem_words : ∀ {s : Sum}, x ∈ s.tree.variables → Token.ident x ∈ s.words
  | .mk p t, h => by
    rw [Sum.words, List.mem_append]
    exact (t.ident_mem_words h).imp_left p.ident_mem_words

theorem Addends.ident_mem_words : ∀ (t : Addends) {left : Expr},
    x ∈ (t.treeAfter left).variables → x ∈ left.variables ∨ Token.ident x ∈ t.words
  | .nil, _, h => .inl h
  | .cons op p t, left, h => by
    rw [Addends.words, List.mem_cons, List.mem_append]
    obtain h | h := t.ident_mem_words h
    · exact (List.mem_append.1 h).imp_right fun hp => .inr (.inl (p.ident_mem_words hp))
    · exact .inr (.inr (.inr h))

theorem Product.ident_mem_words : ∀ p : Product, x ∈ p.tree.variables → Token.ident x ∈ p.words
  | .mk u t, h => by
    rw [Product.words, List.mem_append]
    exact (t.ident_mem_words h).imp_left u.ident_mem_words

theorem Factors.ident_mem_words : ∀ (t : Factors) {left : Expr},
    x ∈ (t.treeAfter left).variables → x ∈ left.variables ∨ Token.ident x ∈ t.words
  | .nil, _, h => .inl h
  | .cons op u t, left, h => by
    rw [Factors.words, List.mem_cons, List.mem_append]
    obtain h | h := t.ident_mem_words h
    · exact (List.mem_append.1 h).imp_right fun hu => .inr (.inl (u.ident_mem_words hu))
    · exact .inr (.inr (.inr h))

theorem Unary.ident_mem_words : ∀ u : Unary, x ∈ u.tree.variables → Token.ident x ∈ u.words
  | .minus u, h => List.mem_cons_of_mem _ (u.ident_mem_words h)
  | .plus u, h => List.mem_cons_of_mem _ (u.ident_mem_words h)
  | .power p, h => p.ident_mem_words h

theorem Power.ident_mem_words : ∀ p : Power, x ∈ p.tree.variables → Token.ident x ∈ p.words
  | .mk a e, h => by
    rw [Power.words, List.mem_append]
    exact (e.ident_mem_words h).imp_left a.ident_mem_words

theorem Exponent.ident_mem_words : ∀ (e : Exponent) {base : Expr},
    x ∈ (e.treeAfter base).variables → x ∈ base.variables ∨ Token.ident x ∈ e.words
  | .nil, _, h => .inl h
  | .mk u, _, h =>
    (List.mem_append.1 h).imp_right fun hu => List.mem_cons_of_mem _ (u.ident_mem_words hu)

theorem Atom.ident_mem_words : ∀ a : Atom, x ∈ a.tree.variables → Token.ident x ∈ a.words
  | .number n, h => nomatch h
  | .name y, h => by
    obtain rfl := List.mem_singleton.1 h
    exact List.mem_cons_self
  | .emptyCall f, h => nomatch h
  | .call f as, h => by
    rw [Atom.words]
    exact .tail _ (.tail _ (List.mem_append_left _ (as.ident_mem_words h)))
  | .bracketed s, h => by
    rw [Atom.words]
    exact .tail _ (List.mem_append_left _ (Sum.ident_mem_words h))

theorem Arguments.ident_mem_words : ∀ as : Arguments, x ∈ variablesOf as.trees →
    Token.ident x ∈ as.words
  | .last s, h => by
    rw [Arguments.trees, variablesOf, variablesOf, List.append_nil] at h
    exact Sum.ident_mem_words h
  | .more s as, h => by
    rw [Arguments.words, List.mem_append, List.mem_cons]
    obtain h | h := List.mem_append.1 h
    · exact .inl (Sum.ident_mem_words h)
    · exact .inr (.inr (as.ident_mem_words h))

end

end Grammar

/-- A name among the words stands in the text. -/
theorem infix_of_mem_tokens {fuel offset o : Nat} {cs : List Char} {ws : Words}
    (h : tokens fuel offset cs = .ok ws) (hx : (o, Token.ident x) ∈ ws) : x.toList <:+: cs := by
  obtain ⟨front, text, behind, rfl, -, hspells⟩ := standsIn_of_mem_tokens h _ hx
  rw [hspells.toList_of_ident]
  exact List.infix_append front text behind

/-- A variable of the expression that is read off a text is a word of the text and stands in it. -/
theorem ident_mem_of_read {text : String} {e : Expr} (h : read text = .ok e)
    (hx : x ∈ e.variables) :
    ∃ ws o, tokenize text = .ok ws ∧ (o, Token.ident x) ∈ ws ∧ x.toList <:+: text.toList := by
  obtain ⟨ws, hws, he⟩ := except_bind_ok h
  obtain ⟨s, hwords, rfl⟩ := derivation_of_ofWords he
  have hident := Sum.ident_mem_words hx
  rw [hwords] at hident
  obtain ⟨⟨o, word⟩, hmem, rfl⟩ := List.mem_map.1 hident
  exact ⟨ws, o, hws, hmem, infix_of_mem_tokens hws hmem⟩

/-! ### Texts -/

/-- In a context that holds more, a text has the same value or the same fault, unless the fault is
that a name is missing. A name that is missing is a word of the text, and its path leads to nothing
in the context. -/
theorem evaluate_of_extends (h : Extends t t') (text : String) :
    ((∀ x, evaluate text t ≠ .error (.unknownIdentifier x)) →
      evaluate text t' = evaluate text t) ∧
    ∀ x, evaluate text t = .error (.unknownIdentifier x) → t.lookup x = none ∧
      ∃ ws o, tokenize text = .ok ws ∧ (o, Token.ident x) ∈ ws ∧ x.toList <:+: text.toList := by
  rw [evaluate, evaluate]
  cases hread : read text with
  | error e =>
    refine ⟨fun _ => rfl, fun x hx => ?_⟩
    cases hx
  | ok e =>
    refine ⟨e.outlasts_eval h, fun x hx => ?_⟩
    obtain ⟨hvariable, hnone⟩ := e.missing_eval x hx
    exact ⟨hnone, ident_mem_of_read hread hvariable⟩

/-- One more binding leaves a value and a division by zero as they are. A name is missing with its
whole path, and of two the first one. -/
theorem evaluate_with_one_more :
    evaluate "-a + 2" [("a", .int 1), ("b", .int 0)] = .ok (.int 1) ∧
    evaluate "a / 0 + b" [("a", .int 1), ("b", .int 0)] = .error (.failed .divisionByZero) ∧
    Entries.lookup "b.c" [("a", .int 1)] = none ∧ "b.c".toList <:+: "a + b.c * d".toList := by
  have hextends : Extends [("a", .int 1)] [("a", .int 1), ("b", .int 0)] := by
    intro key v hv
    rw [Entries.find?] at hv ⊢
    split at hv
    · next heq => rw [if_pos heq, hv]
    · cases hv
  have hvalue : evaluate "-a + 2" [("a", .int 1)] = .ok (.int 1) := by cbv
  have hfailed : evaluate "a / 0 + b" [("a", .int 1)] = .error (.failed .divisionByZero) := by cbv
  have hmissing : evaluate "a + b.c * d" [("a", .int 1)] = .error (.unknownIdentifier "b.c") := by
    cbv
  obtain ⟨hnone, -, -, -, -, hinfix⟩ := (evaluate_of_extends hextends _).2 _ hmissing
  refine ⟨?_, ?_, hnone, hinfix⟩
  · rw [(evaluate_of_extends hextends _).1 (by rw [hvalue]; simp), hvalue]
  · rw [(evaluate_of_extends hextends _).1 (by rw [hfailed]; simp), hfailed]

end ParamSweep.Expression
