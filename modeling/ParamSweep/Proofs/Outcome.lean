import ParamSweep.Files.Site

/-!
What an operation comes to: its answer, and the state that it leaves.

`outcome x s` runs an operation that may fail on a state. Operations on a site and operations on a
resolver are both of this kind, so the laws here serve both. The two inversion lemmas
`outcome_bind_ok` and `outcome_bind_error` take a sequence of operations apart, and `Keeps` says
that an operation keeps a property of the state however it ends.
-/

namespace ParamSweep

variable {σ ε α β : Type}

/-- The answer of an operation on a state, and the state after it. -/
def outcome (x : ExceptT ε (StateM σ) α) (s : σ) : Except ε α × σ := x.run.run s

/-! ### Running single operations -/

@[simp] theorem outcome_pure (a : α) (s : σ) :
    outcome (pure a : ExceptT ε (StateM σ) α) s = (.ok a, s) := rfl

@[simp] theorem outcome_get (s : σ) :
    outcome (get : ExceptT ε (StateM σ) σ) s = (.ok s, s) := rfl

@[simp] theorem outcome_modify (f : σ → σ) (s : σ) :
    outcome (modify f : ExceptT ε (StateM σ) PUnit) s = (.ok ⟨⟩, f s) := rfl

theorem outcome_bind (x : ExceptT ε (StateM σ) α) (f : α → ExceptT ε (StateM σ) β) (s : σ) :
    outcome (x >>= f) s =
      match outcome x s with
      | (.ok a, s') => outcome (f a) s'
      | (.error e, s') => (.error e, s') := by
  simp only [outcome, ExceptT.run_bind, StateT.run_bind]
  show (match x.run.run s with | (r, s') => _) = _
  rcases x.run.run s with ⟨_ | _, _⟩ <;> rfl

theorem outcome_tryCatch (x : ExceptT ε (StateM σ) α) (f : ε → ExceptT ε (StateM σ) α) (s : σ) :
    outcome (tryCatch x f) s =
      match outcome x s with
      | (.ok a, s') => (.ok a, s')
      | (.error e, s') => outcome (f e) s' := by
  simp only [outcome, ExceptT.run_tryCatch, StateT.run_bind]
  show (match x.run.run s with | (r, s') => _) = _
  rcases x.run.run s with ⟨_ | _, _⟩ <;> rfl

/-- A sequence that succeeds is two operations that succeed. -/
theorem outcome_bind_ok {x : ExceptT ε (StateM σ) α} {f : α → ExceptT ε (StateM σ) β} {s s' : σ}
    {b : β} (h : outcome (x >>= f) s = (.ok b, s')) :
    ∃ a s₁, outcome x s = (.ok a, s₁) ∧ outcome (f a) s₁ = (.ok b, s') := by
  rw [outcome_bind] at h
  rcases hx : outcome x s with ⟨e | a, s₁⟩ <;> rw [hx] at h
  · simp at h
  · exact ⟨a, s₁, rfl, h⟩

/-- A sequence that fails does so in its first or in its second part. -/
theorem outcome_bind_error {x : ExceptT ε (StateM σ) α} {f : α → ExceptT ε (StateM σ) β}
    {s s' : σ} {e : ε} (h : outcome (x >>= f) s = (.error e, s')) :
    outcome x s = (.error e, s') ∨
      ∃ a s₁, outcome x s = (.ok a, s₁) ∧ outcome (f a) s₁ = (.error e, s') := by
  rw [outcome_bind] at h
  rcases hx : outcome x s with ⟨e' | a, s₁⟩ <;> rw [hx] at h
  · left
    simpa using h
  · exact Or.inr ⟨a, s₁, rfl, h⟩

/-! ### Properties that outlast an operation -/

/-- The operation keeps a property of the state, whether it fails or not. -/
def Keeps (P : σ → Prop) (x : ExceptT ε (StateM σ) α) : Prop := ∀ s, P s → P (outcome x s).2

theorem Keeps.pure {P : σ → Prop} (a : α) : Keeps P (pure a : ExceptT ε (StateM σ) α) :=
  fun _ h => h

theorem Keeps.bind {P : σ → Prop} {x : ExceptT ε (StateM σ) α} {f : α → ExceptT ε (StateM σ) β}
    (hx : Keeps P x) (hf : ∀ a, Keeps P (f a)) : Keeps P (x >>= f) := by
  intro s hs
  have hs₁ := hx s hs
  rw [outcome_bind]
  rcases h : outcome x s with ⟨e | a, s₁⟩ <;> rw [h] at hs₁
  · exact hs₁
  · exact hf a s₁ hs₁

theorem Keeps.tryCatch {P : σ → Prop} {x : ExceptT ε (StateM σ) α}
    {f : ε → ExceptT ε (StateM σ) α} (hx : Keeps P x) (hf : ∀ e, Keeps P (f e)) :
    Keeps P (MonadExcept.tryCatch x f) := by
  intro s hs
  have hs₁ := hx s hs
  rw [outcome_tryCatch]
  rcases h : outcome x s with ⟨e | a, s₁⟩ <;> rw [h] at hs₁
  · exact hf e s₁ hs₁
  · exact hs₁

theorem Keeps.after {P : σ → Prop} {x : ExceptT ε (StateM σ) α} {s s' : σ} {r : Except ε α}
    (h : Keeps P x) (hs : P s) (hx : outcome x s = (r, s')) : P s' := by
  have hs' := h s hs
  rwa [hx] at hs'

/-- From a state with `P` the operation leads to an answer and a state with `Q`, or fails in a state
with `R`. -/
structure Leads (P : σ → Prop) (x : ExceptT ε (StateM σ) α) (Q : α → σ → Prop) (R : σ → Prop) :
    Prop where
  ok : ∀ {s a s'}, P s → outcome x s = (.ok a, s') → Q a s'
  error : ∀ {s e s'}, P s → outcome x s = (.error e, s') → R s'

namespace Leads

variable {P R : σ → Prop} {Q : α → σ → Prop} {Q' : β → σ → Prop}

theorem pure {a : α} (h : ∀ s, P s → Q a s) :
    Leads P (Pure.pure a : ExceptT ε (StateM σ) α) Q R := by
  constructor
  · rintro s _ _ hs ⟨⟩
    exact h s hs
  · rintro _ _ _ _ ⟨⟩

theorem bind {x : ExceptT ε (StateM σ) α} {f : α → ExceptT ε (StateM σ) β} (hx : Leads P x Q R)
    (hf : ∀ a, Leads (Q a) (f a) Q' R) : Leads P (x >>= f) Q' R := by
  constructor
  · intro s b s' hs h
    obtain ⟨a, s₁, hx₁, hf₁⟩ := outcome_bind_ok h
    exact (hf a).ok (hx.ok hs hx₁) hf₁
  · intro s e s' hs h
    rcases outcome_bind_error h with hx₁ | ⟨a, s₁, hx₁, hf₁⟩
    · exact hx.error hs hx₁
    · exact (hf a).error (hx.ok hs hx₁) hf₁

theorem of_keeps {x : ExceptT ε (StateM σ) α} (h : Keeps P x) (hR : ∀ s, P s → R s) :
    Leads P x (fun _ => P) R :=
  ⟨fun hs hx => h.after hs hx, fun hs hx => hR _ (h.after hs hx)⟩

theorem state {x : ExceptT ε (StateM σ) α} (h : Leads P x (fun _ => R) R) {s : σ} (hs : P s) :
    R (outcome x s).2 := by
  rcases hx : outcome x s with ⟨e | a, s'⟩
  · exact h.error hs hx
  · exact h.ok hs hx

end Leads

/-! ### Failures that operations can have -/

/-- Every failure of the operation is of a kind. -/
def FailsOnly (K : ε → Prop) (x : ExceptT ε (StateM σ) α) : Prop :=
  ∀ s e, (outcome x s).1 = .error e → K e

theorem FailsOnly.pure {K : ε → Prop} (a : α) :
    FailsOnly K (pure a : ExceptT ε (StateM σ) α) := by
  intro s e h
  simp at h

theorem FailsOnly.bind {K : ε → Prop} {x : ExceptT ε (StateM σ) α}
    {f : α → ExceptT ε (StateM σ) β} (hx : FailsOnly K x) (hf : ∀ a, FailsOnly K (f a)) :
    FailsOnly K (x >>= f) := by
  intro s e h
  rw [outcome_bind] at h
  rcases hx' : outcome x s with ⟨e' | a, s₁⟩ <;> rw [hx'] at h
  · have he : e' = e := by simpa using h
    exact hx s e (by rw [hx', he])
  · exact hf a s₁ e h

/-- An operation does not fail otherwise. -/
theorem FailsOnly.ne_error {K : ε → Prop} {x : ExceptT ε (StateM σ) α} (h : FailsOnly K x) {e : ε}
    (he : ¬ K e) (s s' : σ) : outcome x s ≠ (.error e, s') :=
  fun hx => he (h s e (by rw [hx]))

/-! ### Answers without effect -/

theorem except_bind_ok {f : α → Except ε β} {b : β} :
    ∀ {x : Except ε α}, (x >>= f) = .ok b → ∃ a, x = .ok a ∧ f a = .ok b
  | .ok a, h => ⟨a, rfl, h⟩

@[simp] theorem except_ok_bind (a : α) (f : α → Except ε β) : (Except.ok a >>= f) = f a := rfl

@[simp] theorem except_error_bind (e : ε) (f : α → Except ε β) :
    (Except.error e >>= f) = .error e := rfl

@[simp] theorem mapError_of_ok {ε' : Type} (f : ε → ε') (a : α) :
    (Except.ok a).mapError f = .ok a := rfl

theorem except_map_ok {x : Except ε α} {f : α → β} {b : β} (h : x.map f = .ok b) :
    ∃ a, x = .ok a ∧ f a = b := by
  cases x with
  | error e => cases h
  | ok a => exact ⟨a, rfl, by cases h; rfl⟩

theorem mapError_ok {ε' : Type} {x : Except ε α} {f : ε → ε'} {a : α}
    (h : x.mapError f = .ok a) : x = .ok a := by
  cases x with
  | error e => cases h
  | ok b => cases h; rfl

theorem eq_ok_of_isOk [Inhabited α] {r : Except ε α} (h : r.isOk = true) :
    r = .ok (r.toOption.getD default) := by
  cases r with
  | error e => cases h
  | ok a => rfl

-- At a use with a fixed state, comparing the pair by `rfl` would run the operation once more.
theorem outcome_of_answer {x : ExceptT ε (StateM σ) α} {s : σ} {r : Except ε α}
    (h : (outcome x s).1 = r) : outcome x s = (r, (outcome x s).2) :=
  Prod.ext h rfl

theorem outcome_of_isOk [Inhabited α] {x : ExceptT ε (StateM σ) α} {s : σ}
    (h : (outcome x s).1.isOk = true) :
    outcome x s = (.ok ((outcome x s).1.toOption.getD default), (outcome x s).2) :=
  outcome_of_answer (eq_ok_of_isOk h)

theorem eq_ok_of_toOption {r : Except ε α} {a : α} (h : r.toOption = some a) : r = .ok a := by
  cases r with
  | error e => cases h
  | ok b => cases h; rfl

theorem ok_of_any {r : Except ε α} {p : α → Bool} (h : r.toOption.any p = true) :
    ∃ a, r = .ok a ∧ p a = true := by
  cases r with
  | error e => cases h
  | ok a => exact ⟨a, rfl, h⟩

/-- Every failure that an answer can be is of a kind. -/
def ErrsOnly (K : ε → Prop) (x : Except ε α) : Prop := ∀ e, x = .error e → K e

namespace ErrsOnly

variable {K : ε → Prop}

theorem ok (a : α) : ErrsOnly K (.ok a) := nofun

theorem error {e : ε} (h : K e) : ErrsOnly K (.error e : Except ε α) := by
  rintro _ ⟨⟩
  exact h

theorem bind {x : Except ε α} {f : α → Except ε β} (hx : ErrsOnly K x)
    (hf : ∀ a, ErrsOnly K (f a)) : ErrsOnly K (x >>= f) := by
  cases x with
  | error e => exact error (hx e rfl)
  | ok a => exact hf a

theorem map {x : Except ε α} (hx : ErrsOnly K x) (f : α → β) : ErrsOnly K (x.map f) := by
  cases x with
  | error e => exact error (hx e rfl)
  | ok a => exact ok (f a)

theorem mapError {ε' : Type} {K' : ε' → Prop} {x : Except ε α} {f : ε → ε'} (hx : ErrsOnly K x)
    (hf : ∀ e, K e → K' (f e)) : ErrsOnly K' (x.mapError f) := by
  cases x with
  | error e => exact error (hf e (hx e rfl))
  | ok a => exact ok a

theorem mono {K' : ε → Prop} {x : Except ε α} (hx : ErrsOnly K x) (h : ∀ e, K e → K' e) :
    ErrsOnly K' x :=
  fun e he => h e (hx e he)

end ErrsOnly

namespace Action

variable {τ : Type}

@[simp] theorem outcome_ofExcept (r : Except Error α) (s : Site τ) :
    outcome (ofExcept r) s = (r, s) := rfl

@[simp] theorem outcome_ofCause (r : Except Cause α) (s : Site τ) :
    outcome (ofCause r) s = (r.mapError Error.configuration, s) := rfl

@[simp] theorem outcome_refuse (c : Cause) (s : Site τ) :
    outcome (refuse c : Action τ α) s = (.error (.configuration c), s) := rfl

@[simp] theorem outcome_tree (s : Site τ) : outcome tree s = (.ok s.tree, s) := rfl

@[simp] theorem outcome_now (s : Site τ) : outcome now s = (.ok s.now, s) := rfl

@[simp] theorem outcome_look (f : FileTree → Except Error α) (s : Site τ) :
    outcome (look f) s = (f s.tree, s) := rfl

@[simp] theorem outcome_say (line : String) (s : Site τ) :
    outcome (say line) s = (.ok ⟨⟩, { s with console := s.console ++ [line] }) := rfl

theorem outcome_change (path : String) (f : FileTree → Except FileFault FileTree) (s : Site τ) :
    outcome (change path f) s =
      match f s.tree with
      | .ok t => (.ok ⟨⟩, { s with tree := t })
      | .error fault => (.error (.file path fault), s) := by
  rw [change, outcome_bind, outcome_tree]
  simp only
  cases f s.tree <;> rfl

theorem outcome_changeAsFar (path : String) (f : FileTree → FileTree × Option FileFault)
    (s : Site τ) :
    outcome (changeAsFar path f) s =
      (match (f s.tree).2 with
        | some fault => .error (.file path fault)
        | none => .ok ⟨⟩,
       { s with tree := (f s.tree).1 }) := by
  rw [changeAsFar, outcome_bind, outcome_tree]
  simp only [outcome_bind, outcome_modify]
  cases (f s.tree).2 <;> rfl

end Action

end ParamSweep
