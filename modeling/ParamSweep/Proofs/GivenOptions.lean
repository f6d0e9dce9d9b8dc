import ParamSweep.CommandLine.Arguments
import ParamSweep.Proofs.Place

/-!
What the command line promises of the values that it hands on.

Every option that has been read has a value of its kind, wherever among the arguments it stood. The
roots are paths, so none of them is empty, and neither is the directory of an experiment.
-/

namespace ParamSweep.CommandLine

variable {specs : List OptionSpec} {given given' : Given}

/-- Every option that is given and has a value has one of its kind. -/
def Given.Accepted (specs : List OptionSpec) (given : Given) : Prop :=
  ∀ name kind value, specs.lookup name = some kind → kind ≠ .flag →
    given.lookup name = some value → kind.accepts value = true

theorem Given.accepted_nil (specs : List OptionSpec) : Given.Accepted specs [] := by
  intro name kind value _ _ hvalue
  cases hvalue

theorem Given.Accepted.give {name value : String} (h : Given.Accepted specs given)
    (hvalue : ∀ kind, specs.lookup name = some kind → kind ≠ .flag → kind.accepts value = true)
    (hgive : give? given name value = some given') : Given.Accepted specs given' := by
  rw [give?] at hgive
  split at hgive
  · cases hgive
  · cases hgive
    intro name' kind value' hkind hflag hlookup
    rw [List.lookup_cons] at hlookup
    by_cases hsame : name' = name
    · subst hsame
      simp only [beq_self_eq_true] at hlookup
      cases hlookup
      exact hvalue kind hkind hflag
    · rw [beq_eq_false_iff_ne.2 hsame] at hlookup
      exact h name' kind value' hkind hflag hlookup

theorem accepted_readLetters {top : Bool} {rest rest' : List String}
    (hverbose : specs.lookup "verbose" = some .flag) {letters : List Char}
    (h : Given.Accepted specs given)
    (hread : readLetters top rest given letters = .options given' rest') :
    Given.Accepted specs given' := by
  induction letters generalizing given with
  | nil => cases hread; exact h
  | cons c letters ih =>
    unfold readLetters at hread
    split at hread
    · cases hread; exact h
    · rename_i heq
      cases heq
      split at hread
      · rename_i given₁ hgive
        refine ih (h.give ?_ hgive) hread
        intro kind hkind hflag
        rw [hverbose] at hkind
        cases hkind
        exact absurd rfl hflag
      · cases hread
    · cases hread
    · split at hread <;> cases hread
    · cases hread

/-- What `readLong` does with a value: it takes one of the option's kind that is not given yet. -/
theorem Given.Accepted.take {name value : String} {kind : OptionKind} {rest rest' : List String}
    (h : Given.Accepted specs given) (hkind : specs.lookup name = some kind)
    (hread : (if kind.accepts value then
        match give? given name value with
        | some given => Found.options given rest
        | none => .misuse
      else .misuse) = .options given' rest') :
    Given.Accepted specs given' := by
  split at hread
  · rename_i haccepts
    split at hread
    · rename_i given₁ hgive
      cases hread
      refine h.give ?_ hgive
      intro kind' hkind' _
      rw [hkind] at hkind'
      cases hkind'
      exact haccepts
    · cases hread
  · cases hread

theorem accepted_readLong {top : Bool} {body : String} {rest rest' : List String}
    (h : Given.Accepted specs given)
    (hread : readLong specs top given body rest = .options given' rest') :
    Given.Accepted specs given' := by
  unfold readLong at hread
  -- a value is joined to the name or not
  rcases hsplit : Text.splitOnce '=' body.toList with _ | ⟨name, value⟩ <;>
    simp only [hsplit] at hread
  · rcases hkind : specs.lookup body with _ | kind <;> rw [hkind] at hread
    · simp only at hread
      repeat' split at hread
      all_goals cases hread
    · cases kind with
      | flag =>
        rcases hgive : give? given body "" with _ | given₁ <;> rw [hgive] at hread <;> cases hread
        refine h.give ?_ hgive
        intro kind hlookup hnot
        rw [hkind] at hlookup
        cases hlookup
        exact absurd rfl hnot
      | path | word | halfWord =>
        rcases rest with _ | ⟨value, rest⟩
        · cases hread
        · simp only at hread
          split at hread
          · cases hread
          · exact h.take hkind hread
  · rcases hkind : specs.lookup (String.ofList name) with _ | kind <;> rw [hkind] at hread
    · cases hread
    · cases kind with
      | flag => cases hread
      | path | word | halfWord => exact h.take hkind hread

/-- Every option behind the name of a command has a value of its kind. -/
theorem accepted_readArguments (hverbose : specs.lookup "verbose" = some .flag) {fuel : Nat}
    {positional positional' arguments : List String} (h : Given.Accepted specs given)
    (hread : readArguments specs fuel given positional arguments = .done given' positional') :
    Given.Accepted specs given' := by
  induction fuel generalizing given positional arguments with
  | zero => cases hread; exact h
  | succ fuel ih =>
    rcases arguments with _ | ⟨a, rest⟩
    · cases hread
      exact h
    · unfold readArguments at hread
      simp only at hread
      split at hread
      · cases hread
        exact h
      · split at hread
        · split at hread
          · rename_i hlong
            exact ih (accepted_readLong h hlong) hread
          · cases hread
          · cases hread
          · cases hread
        · split at hread
          · split at hread
            · rename_i hletters
              exact ih (accepted_readLetters hverbose h hletters) hread
            · cases hread
            · cases hread
            · cases hread
          · exact ih h hread

/-- Every option before the name of a command has a value of its kind. -/
theorem accepted_readHead {fuel : Nat} {name : String} {arguments rest : List String}
    (h : Given.Accepted globalOptions given)
    (hread : readHead fuel given arguments = .command given' name rest) :
    Given.Accepted globalOptions given' := by
  induction fuel generalizing given arguments with
  | zero => cases hread
  | succ fuel ih =>
    rcases arguments with _ | ⟨a, rest₀⟩
    · cases hread
    · unfold readHead at hread
      simp only at hread
      split at hread
      · cases hread
      · split at hread
        · split at hread
          · rename_i hlong
            exact ih (accepted_readLong h hlong) hread
          · cases hread
          · cases hread
          · cases hread
        · split at hread
          · split at hread
            · rename_i hletters
              exact ih (accepted_readLetters (by decide) h hletters) hread
            · cases hread
            · cases hread
            · cases hread
          · cases hread
            exact h

/-! ### The roots -/

theorem lookup_globalOptions_append {name : String} {kind : OptionKind}
    (h : globalOptions.lookup name = some kind) :
    (globalOptions ++ specs).lookup name = some kind := by
  rw [List.lookup_append, h]
  rfl

theorem accepted_path {name value : String} (h : Given.Accepted specs given)
    (hpath : specs.lookup name = some .path) (hvalue : given.lookup name = some value) :
    value ≠ "" := by
  have haccepts : OptionKind.accepts .path value = true :=
    h name .path value hpath (by decide) hvalue
  simpa [OptionKind.accepts] using haccepts

/-- A root that the command line hands on is never the empty path. -/
theorem runs_ne_empty_of_parse {arguments : List String} {roots : Roots} {command : Command}
    (h : parse arguments = .run roots command) : roots.runs ≠ "" := by
  unfold parse at h
  split at h
  · cases h
  · cases h
  · cases h
  · rename_i before name rest hhead
    split at h
    · cases h
    · split at h
      · cases h
      · rename_i specs _
        split at h
        · cases h
        · cases h
        · cases h
        · rename_i behind positional hbehind
          split at h
          · cases h
            have hbefore : Given.Accepted globalOptions before :=
              accepted_readHead (Given.accepted_nil _) hhead
            have hafter : Given.Accepted (globalOptions ++ specs) behind :=
              accepted_readArguments (lookup_globalOptions_append (by decide))
                (Given.accepted_nil _) hbehind
            simp only [rootsOf]
            rcases hlast : behind.lookup "runs-root" with _ | value
            · rcases hfirst : before.lookup "runs-root" with _ | value
              · decide
              · exact accepted_path hbefore (by decide) hfirst
            · exact accepted_path hafter (lookup_globalOptions_append (by decide)) hlast
          · cases h

theorem experimentDir_ne_empty {l : Layout} (h : l.runsRoot ≠ "") : l.experimentDir ≠ "" :=
  fun hempty => h (Path.join_eq_empty_iff.1 hempty).1

/-- The directory of an experiment that a command is about is never the empty path. -/
theorem experimentDir_ne_empty_of_parse {arguments : List String} {roots : Roots}
    {command : Command} (h : parse arguments = .run roots command) (experiment : String) :
    (roots.layout experiment).experimentDir ≠ "" :=
  experimentDir_ne_empty (runs_ne_empty_of_parse h)

end ParamSweep.CommandLine
