import ParamSweep.Naming.Template
import ParamSweep.Proofs.Placeholders
import ParamSweep.Proofs.TextLines

/-!
What a template stands for.

A text is rendered where every path has a value and every filter is known, and it is what all pieces
stand for, one after the other, if that has no doubled brace. The pieces are those of the template,
so nothing that stands for a placeholder is read again.
-/

namespace ParamSweep.Naming

open Pattern

variable {context : Entries Value} {template : String}

/-! ### One piece -/

/-- The filters that there are. -/
def filters : List (String × (String → String)) :=
  [("fs_safe", fsSafe), ("lower", Text.lower), ("upper", Text.upper)]

/-- What a filter makes of a text; without a filter a text is left as it is. -/
def filter? : Option String → Option (String → String)
  | none => some id
  | some name => filters.lookup name

theorem applyFilter_eq (name text : String) :
    applyFilter name text =
      match filter? (some name) with
      | some f => .ok (f text)
      | none => .error (.unknownFilter name) := by
  rw [applyFilter.eq_def]
  split
  · rfl
  · rfl
  · rfl
  · rename_i hsafe hlower hupper
    have hname : filter? (some name) = none := by
      simp only [filter?, filters, List.lookup_cons, List.lookup_nil, beq_eq_false_iff_ne.2 hsafe,
        beq_eq_false_iff_ne.2 hlower, beq_eq_false_iff_ne.2 hupper]
    rw [hname]

/-- The path has a value and the filter is known. -/
def Piece.Known (context : Entries Value) : Piece → Prop
  | .literal _ => True
  | .placeholder path filter => (∃ v, context.lookup path = some v) ∧ ∃ f, filter? filter = some f

/-- The character, or the value of the path, spelled and filtered. -/
def Piece.filled (context : Entries Value) : Piece → List Char
  | .literal c => [c]
  | .placeholder path filter =>
    match context.lookup path, filter? filter with
    | some v, some f => (f (spell v)).toList
    | _, _ => []

/-- What is wrong with a piece: first the path is looked up, then the filter. -/
def Piece.fault? (template : String) (context : Entries Value) : Piece → Option Cause
  | .literal _ => none
  | .placeholder path filter =>
    if (context.lookup path).isNone then some (.unknownTemplateName template path)
    else if (filter? filter).isNone then filter.map .unknownFilter
    else none

theorem fault?_eq_none_iff (piece : Piece) :
    piece.fault? template context = none ↔ piece.Known context := by
  cases piece with
  | literal c => exact iff_of_true rfl trivial
  | placeholder path filter =>
    rw [Piece.fault?, Piece.Known]
    cases context.lookup path with
    | none => simp
    | some v =>
      cases hfilter : filter? filter with
      | none =>
        have hsome : filter ≠ none := by
          rintro rfl
          cases hfilter
        simp [hsome]
      | some f => simp

theorem fill_eq (template : String) (context : Entries Value) (piece : Piece) :
    piece.fill template context =
      match piece.fault? template context with
      | some cause => .error cause
      | none => .ok (piece.filled context) := by
  cases piece with
  | literal c => rfl
  | placeholder path filter =>
    rw [Piece.fill, Piece.fault?, Piece.filled]
    cases context.lookup path with
    | none => rfl
    | some v =>
      cases filter with
      | none => rfl
      | some name =>
        simp only [applyFilter_eq]
        cases filter? (some name) <;> rfl

/-! ### All pieces -/

/-- What a list of pieces stands for, one after the other. -/
def filledAll (context : Entries Value) (ps : List Piece) : List Char :=
  ps.flatMap (Piece.filled context)

/-- Pieces stand for what each of them stands for, unless there is something wrong with one; the
first such piece decides. -/
theorem fillAll_eq (template : String) (context : Entries Value) (ps : List Piece) :
    fillAll template context ps =
      match ps.findSome? (Piece.fault? template context) with
      | some cause => .error cause
      | none => .ok (filledAll context ps) := by
  induction ps with
  | nil => rfl
  | cons piece rest ih =>
    rw [fillAll, fill_eq, ih, List.findSome?_cons]
    cases piece.fault? template context with
    | some cause => rfl
    | none => cases rest.findSome? (Piece.fault? template context) <;> rfl

/-- Two opening or two closing braces stand next to each other. -/
def Doubled (cs : List Char) : Prop :=
  ['\x7b', '\x7b'] <:+: cs ∨ ['\x7d', '\x7d'] <:+: cs

/-- Without two opening braces next to each other every piece is literal. -/
theorem pieces_eq_literals {fuel : Nat} {cs : List Char} (h : ¬ ['\x7b', '\x7b'] <:+: cs)
    (hfuel : cs.length ≤ fuel) : pieces fuel cs = cs.map .literal := by
  induction fuel generalizing cs with
  | zero =>
    obtain rfl := List.length_eq_zero_iff.1 (Nat.le_zero.1 hfuel)
    rfl
  | succ fuel ih =>
    cases cs with
    | nil => rfl
    | cons c cs =>
      have hnone : placeholder? (c :: cs) = none := placeholder?_of_ne fun rest hrest =>
        h (hrest ▸ ⟨[], rest, rfl⟩)
      have htail : ¬ ['\x7b', '\x7b'] <:+: cs := fun htail => h (List.infix_cons htail)
      rw [pieces, hnone, List.map_cons]
      exact congrArg _ (ih htail (Nat.le_of_succ_le_succ hfuel))

theorem known_iff {ps : List Piece} :
    ps.findSome? (Piece.fault? template context) = none ↔ ∀ piece ∈ ps, piece.Known context := by
  simp only [List.findSome?_eq_none_iff, fault?_eq_none_iff]

theorem doubled_iff {cs : List Char} :
    (Text.containsPart ['\x7b', '\x7b'] cs || Text.containsPart ['\x7d', '\x7d'] cs) = true ↔
      Doubled cs := by
  rw [Bool.or_eq_true, Text.containsPart_iff, Text.containsPart_iff, Doubled]

/-- What a template is rendered as. -/
theorem renderTemplate_cases (template : String) (context : Entries Value) {ps : List Piece}
    (hps : pieces template.toList.length template.toList = ps) :
    (∃ cause, ps.findSome? (Piece.fault? template context) = some cause ∧
      renderTemplate template context = .error cause) ∨
    ((∀ piece ∈ ps, piece.Known context) ∧ Doubled (filledAll context ps) ∧
      renderTemplate template context = .error (.unsupportedPlaceholder template)) ∨
    ((∀ piece ∈ ps, piece.Known context) ∧ ¬ Doubled (filledAll context ps) ∧
      renderTemplate template context = .ok (String.ofList (filledAll context ps))) := by
  rw [renderTemplate, hps, fillAll_eq]
  cases hfault : ps.findSome? (Piece.fault? template context) with
  | some cause => exact .inl ⟨cause, rfl, rfl⟩
  | none =>
    have hknown := known_iff.1 hfault
    by_cases hdoubled : Doubled (filledAll context ps)
    · exact .inr (.inl ⟨hknown, hdoubled, if_pos (doubled_iff.2 hdoubled)⟩)
    · exact .inr (.inr ⟨hknown, hdoubled, if_neg fun hparts => hdoubled (doubled_iff.1 hparts)⟩)

theorem renderTemplate_eq_ok_iff {ps : List Piece} {text : String}
    (hps : pieces template.toList.length template.toList = ps) :
    renderTemplate template context = .ok text ↔
      (∀ piece ∈ ps, piece.Known context) ∧ ¬ Doubled (filledAll context ps) ∧
        text = String.ofList (filledAll context ps) := by
  obtain ⟨cause, hfault, hrender⟩ | ⟨-, hdoubled, hrender⟩ | ⟨hknown, hdoubled, hrender⟩ :=
    renderTemplate_cases template context hps
  · rw [hrender]
    refine iff_of_false nofun fun h => ?_
    cases hfault.symm.trans (known_iff.2 h.1)
  · rw [hrender]
    exact iff_of_false nofun fun h => h.2.1 hdoubled
  · rw [hrender, Except.ok.injEq]
    exact ⟨fun h => ⟨hknown, hdoubled, h.symm⟩, fun h => h.2.2.symm⟩

theorem renderTemplate_eq_error_iff {ps : List Piece} {cause : Cause}
    (hps : pieces template.toList.length template.toList = ps) :
    renderTemplate template context = .error cause ↔
      ps.findSome? (Piece.fault? template context) = some cause ∨
        (∀ piece ∈ ps, piece.Known context) ∧ Doubled (filledAll context ps) ∧
          cause = .unsupportedPlaceholder template := by
  obtain ⟨cause', hfault, hrender⟩ | ⟨hknown, hdoubled, hrender⟩ | ⟨hknown, hdoubled, hrender⟩ :=
    renderTemplate_cases template context hps
  · have hnot : ¬ ∀ piece ∈ ps, piece.Known context := fun h => by
      cases hfault.symm.trans (known_iff.2 h)
    rw [hrender, Except.error.injEq, hfault, Option.some.injEq]
    exact ⟨.inl, fun h => h.resolve_right fun h => hnot h.1⟩
  · rw [hrender, Except.error.injEq, known_iff.2 hknown]
    exact ⟨fun h => .inr ⟨hknown, hdoubled, h.symm⟩, fun h => (h.resolve_left nofun).2.2.symm⟩
  · rw [hrender, known_iff.2 hknown]
    exact iff_of_false nofun fun h => hdoubled (h.resolve_left nofun).2.1

theorem filledAll_literals (context : Entries Value) (cs : List Char) :
    filledAll context (cs.map .literal) = cs := by
  induction cs with
  | nil => rfl
  | cons c cs ih => exact congrArg (c :: ·) ih

/-- Without doubled braces a template is left as it is. -/
theorem renderTemplate_of_not_doubled (h : ¬ Doubled template.toList) :
    renderTemplate template context = .ok template := by
  have hps := pieces_eq_literals (fun hopen => h (.inl hopen)) (Nat.le_refl template.toList.length)
  refine (renderTemplate_eq_ok_iff hps).2 ⟨fun piece hpiece => ?_, ?_, ?_⟩
  · obtain ⟨c, -, rfl⟩ := List.mem_map.1 hpiece
    trivial
  · rwa [filledAll_literals]
  · rw [filledAll_literals, String.ofList_toList]

/-- A template is split between the matches of the pattern of a placeholder. It is rendered exactly
if every path has a value, every filter is known and what the pieces stand for has no doubled brace,
and it is rendered as what the pieces stand for, one after the other. In every other case the
configuration is refused, because of the first piece with something wrong or because of the braces.
Without doubled braces a template is left as it is. -/
theorem renderTemplate_splits (template : String) (context : Entries Value) :
    ∃ r ps, read? placeholderPattern = some (r, 2) ∧
      (∀ ps', Splits r template.toList 0 ps' ↔ ps' = ps) ∧
      (∀ text, renderTemplate template context = .ok text ↔
        (∀ piece ∈ ps, piece.Known context) ∧ ¬ Doubled (filledAll context ps) ∧
          text = String.ofList (filledAll context ps)) ∧
      (∀ e, (renderTemplate template context).mapError Error.configuration = .error e ↔
        ∃ cause, e = .configuration cause ∧
          (ps.findSome? (Piece.fault? template context) = some cause ∨
            (∀ piece ∈ ps, piece.Known context) ∧ Doubled (filledAll context ps) ∧
              cause = .unsupportedPlaceholder template)) ∧
      (¬ Doubled template.toList → renderTemplate template context = .ok template) := by
  obtain ⟨ps, hps⟩ : ∃ ps, pieces template.toList.length template.toList = ps := ⟨_, rfl⟩
  refine ⟨placeholderRegex, ps, read?_placeholderPattern, fun ps' => ?_,
    fun text => renderTemplate_eq_ok_iff hps, fun e => ?_, renderTemplate_of_not_doubled⟩
  · have hsplits : Splits placeholderRegex template.toList 0 ps' ↔ _ :=
      splits_iff (Nat.zero_le _) (Nat.le_of_eq (Nat.zero_add _).symm)
    rwa [List.drop_zero, hps] at hsplits
  · simp only [← renderTemplate_eq_error_iff hps]
    cases renderTemplate template context with
    | error cause =>
      refine ⟨fun h => ⟨cause, (Except.error.inj h).symm, rfl⟩, fun h => ?_⟩
      obtain ⟨cause', rfl, h⟩ := h
      rw [← Except.error.inj h]
      rfl
    | ok text =>
      refine ⟨fun h => ?_, fun h => ?_⟩
      · cases h
      · obtain ⟨cause, -, h⟩ := h
        cases h

end ParamSweep.Naming
