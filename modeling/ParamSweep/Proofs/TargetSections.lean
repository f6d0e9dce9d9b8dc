import ParamSweep.Proofs.Derivation
import ParamSweep.Proofs.FreeParameters
import ParamSweep.Proofs.Inheritance
import ParamSweep.Proofs.RebuildDecisions

/-!
Where a parameter with a target is found in the documents of a run.

A run has for a parameter its derived value, or else its swept value, or else the constant
(`effectiveValue`). The parameter is put into its section first, and whatever is put there after it
leaves it alone (`holds_sectionAfter`). Then the parameters without a target are set wherever they
stand. One that has the name of the section takes the section's place, and one whose name is a key
inside the value is set there; otherwise the section has the value as it is.
-/

namespace ParamSweep

mutual

/-- Whether a key stands somewhere in nested mappings. -/
def Value.hasKey (key : String) : Value → Bool
  | .mapping entries => hasKeyIn key entries
  | _ => false

@[inherit_doc Value.hasKey]
def hasKeyIn (key : String) : List (String × Value) → Bool
  | [] => false
  | (k, v) :: rest => k == key || v.hasKey key || hasKeyIn key rest

end

namespace Compile

variable {plan : Plan} {parameters : Entries Value} {configs configs' : Entries Document}
variable {file key p : String} {value : Value} {d : Derivation}

/-! ### The section of a parameter -/

mutual

/-- Setting a key that is not there changes nothing. -/
theorem replaceKey_of_not_hasKey {replacement : Value} : ∀ v : Value, v.hasKey key = false →
    replaceKey key replacement v = v
  | .mapping entries, h => by rw [replaceKey, replaceKeyIn_of_not_hasKeyIn entries h]
  | .null, _ => rfl
  | .bool _, _ => rfl
  | .num _, _ => rfl
  | .str _, _ => rfl
  | .list _, _ => rfl

theorem replaceKeyIn_of_not_hasKeyIn {replacement : Value} : ∀ t : List (String × Value),
    hasKeyIn key t = false → replaceKeyIn key replacement t = t
  | [], _ => rfl
  | (k, v) :: rest, h => by
    simp only [hasKeyIn, Bool.or_eq_false_iff, beq_eq_false_iff_ne] at h
    obtain ⟨⟨hk, hv⟩, hrest⟩ := h
    rw [replaceKeyIn, if_neg hk, replaceKey_of_not_hasKey v hv,
      replaceKeyIn_of_not_hasKeyIn rest hrest]

end

/-- The entry is a mapping that has the parameter with the value. -/
def Has (p : String) (value : Value) (entry : Option Value) : Prop :=
  ∃ t, entry = some (.mapping t) ∧ Entries.find? p t = some value

theorem has_withParameter (entry : Option Value) :
    Has p value (some (withParameter p value entry)) :=
  ⟨_, rfl, by rw [Entries.find?_insert, if_pos rfl]⟩

/-- What else is put into the section leaves the parameter alone: under its own name it is put there
with its own value. -/
theorem Has.sectionAfter (hvalue : parameters.find? p = some value)
    (targets : List (String × Target)) {entry : Option Value} (h : Has p value entry) :
    Has p value (sectionAfter parameters file key targets entry) := by
  induction targets generalizing entry with
  | nil => exact h
  | cons q rest ih =>
    obtain ⟨other, target⟩ := q
    rw [Compile.sectionAfter]
    refine ih ?_
    split
    next w hw =>
      split
      · obtain ⟨t, rfl, ht⟩ := h
        refine ⟨_, rfl, ?_⟩
        rw [Entries.find?_insert]
        split
        next hsame => rw [← hw, hsame, hvalue]
        next => exact ht
      · exact h
    next => exact h

theorem holds_sectionAfter (hvalue : parameters.find? p = some value)
    {targets : List (String × Target)} (htarget : (p, ⟨file, key⟩) ∈ targets)
    (entry : Option Value) : Has p value (sectionAfter parameters file key targets entry) := by
  induction targets generalizing entry with
  | nil => cases htarget
  | cons q rest ih =>
    rw [sectionAfter]
    rcases List.mem_cons.1 htarget with rfl | hrest
    · simp only [hvalue, if_true]
      exact (has_withParameter entry).sectionAfter hvalue rest
    · exact ih hrest _

/-- A value after parameters have been set wherever they stand in it. -/
def overwritten (free : List (String × Value)) (value : Value) : Value :=
  free.foldl (fun v q => replaceKey q.1 q.2 v) value

theorem overwritten_of_not_hasKey {free : List (String × Value)}
    (h : ∀ q ∈ free, value.hasKey q.1 = false) : overwritten free value = value := by
  induction free with
  | nil => rfl
  | cons q rest ih =>
    rw [overwritten, List.foldl_cons, replaceKey_of_not_hasKey value (h q List.mem_cons_self)]
    exact ih fun q hq => h q (List.mem_cons_of_mem _ hq)

/-- In a mapping that is not itself replaced, a parameter that is not itself set is searched for
those that are. -/
theorem Has.overwritten {free : List (String × Value)} (hkey : ∀ q ∈ free, q.1 ≠ key)
    (hp : ∀ q ∈ free, q.1 ≠ p) {entry : Value} (h : Has p value (some entry)) :
    Has p (overwritten free value) (some (free.foldl (replacedIn key) entry)) := by
  induction free generalizing entry value with
  | nil => exact h
  | cons q rest ih =>
    obtain ⟨t, heq, ht⟩ := h
    cases heq
    refine ih (fun q hq => hkey q (List.mem_cons_of_mem _ hq))
      (fun q hq => hp q (List.mem_cons_of_mem _ hq)) ?_
    rw [replacedIn, if_neg (Ne.symm (hkey q List.mem_cons_self))]
    refine ⟨_, rfl, ?_⟩
    rw [find?_replaceKeyIn, ht, Option.map_some, replacedIn,
      if_neg (Ne.symm (hp q List.mem_cons_self))]

/-- A parameter with a target is found in its section, searched for the parameters without one. -/
theorem targetSection_of_inject (h : inject plan configs parameters = .ok configs')
    (htarget : (p, ⟨file, key⟩) ∈ plan.parameterTargets)
    (hvalue : parameters.find? p = some value)
    (hkey : ∀ q ∈ freeParameters plan parameters, q.1 ≠ key) :
    Has p (overwritten (freeParameters plan parameters) value) (entryOf configs' file key) := by
  have hp : ∀ q ∈ freeParameters plan parameters, q.1 ≠ p := by
    rintro q hq rfl
    have hfree := (List.mem_filter.1 hq).2
    have hthere : plan.parameterTargets.find? q.1 ≠ none := by
      rw [Ne, Entries.find?_eq_none_iff, not_not]
      exact List.mem_map_of_mem (f := Prod.fst) htarget
    simp only [Entries.contains, Bool.not_eq_true', Option.isSome_eq_false_iff,
      Option.isNone_iff_eq_none] at hfree
    exact hthere hfree
  rw [entryOf_inject h, entryAfter]
  have hsection := holds_sectionAfter hvalue htarget (entryOf configs file key)
  obtain ⟨t, ht, hfind⟩ := hsection
  rw [ht, Option.map_some]
  exact Has.overwritten hkey hp ⟨t, rfl, hfind⟩

/-! ### The value that a run has for a parameter -/

/-- The value that a run has for a parameter: the derived one, or else the swept one, or else the
constant. -/
def effectiveValue (plan : Plan) (combo : Combination) (d : Derivation) (p : String) :
    Option Value :=
  if p ∈ plan.derivedParameters.keys then d.context.find? p
  else (combo.toEntries.find? p).or (plan.constants.find? p)

theorem find?_injected {branch : Branch} {combo : Combination} {data : Value} {run : Run}
    (hkeys : plan.derivedParameters.keys.Nodup)
    (h : derive plan (runContext plan branch combo data (outputPrefix plan combo data))
      combo.toEntries = .ok d) (hparameters : run.parameters = d.parameters) :
    (plan.constants.union run.parameters).find? p = effectiveValue plan combo d p := by
  have hnodup : d.parameters.keys.Nodup := by
    obtain ⟨-, values, -, -, -, hset⟩ := derive_ok hkeys h
    rw [hset]
    exact ((Entries.ascending_ofList combo.entries).union values).nodup_keys
  rw [hparameters, Entries.find?_union_of_nodup hnodup, effectiveValue]
  split
  next hderived =>
    obtain ⟨q, hq, rfl⟩ := List.mem_map.1 hderived
    obtain ⟨t, v, hrecorded, hcontext, -⟩ := comesTo_at_turn hkeys h hq
    rw [hrecorded, hcontext]
    rfl
  next hderived => rw [(find?_of_not_derived hkeys h hderived).2]

end Compile

open Compile in
/-- Every run of a compiled suite has a parameter with a target in the section of its target, unless
the section has the name of a parameter without a target. It stands there with the value that the
run has for it, in which the parameters without a target are set; if none of their names is a key in
it, that is the value itself. -/
theorem targetSection_of_compileSuite {source : ConfigSource} {experiment : String} {plan : Plan}
    {o : CompileOptions} {suite : CompiledSuite} {r r' : Resolver} {run : Run}
    (hkeys : plan.derivedParameters.keys.Nodup)
    (h : outcome (compileSuite source experiment plan o) r = (.ok suite, r'))
    (hrun : run ∈ suite.runs) :
    ∃ sweep configs branch combo d, Sweep.ofSpecs plan.parameterSweeps = .ok sweep ∧
      branch ∈ plan.effectiveBranches ∧ combo ∈ sweep.expand ∧
      compileRun plan (prefixData plan configs) configs branch combo = .ok run ∧
      derive plan (runContext plan branch combo (prefixData plan configs)
        (outputPrefix plan combo (prefixData plan configs))) combo.toEntries = .ok d ∧
      ∀ p target value, (p, target) ∈ plan.parameterTargets →
        effectiveValue plan combo d p = some value →
        (∀ q ∈ freeParameters plan (plan.constants.union run.parameters),
          q.1 ≠ target.section) →
        ∃ doc t, run.configs.find? target.file = some doc ∧
          doc.data.get? target.section = some (.mapping t) ∧
          Entries.find? p t = some (overwritten
            (freeParameters plan (plan.constants.union run.parameters)) value) ∧
          ((∀ q ∈ freeParameters plan (plan.constants.union run.parameters),
              value.hasKey q.1 = false) →
            Entries.find? p t = some value) := by
  obtain ⟨sweep, configs, _, runs, hsweep, -, -, -, hruns, hlimit⟩ := compileSuite_ok h
  obtain ⟨branch, hb, combo, hc, hcompiled⟩ := compileRun_of_mem hruns hlimit hrun
  obtain ⟨d, hd, hparameters⟩ := derive_of_compileRun hcompiled
  obtain ⟨_, overlaid, -, -, hinject⟩ := compileRun_ok hcompiled
  refine ⟨sweep, configs, branch, combo, d, hsweep, hb, hc, hcompiled, hd, ?_⟩
  intro p target value htarget hvalue hsection
  rw [← find?_injected hkeys hd hparameters] at hvalue
  obtain ⟨t, ht, hfind⟩ := targetSection_of_inject hinject htarget hvalue hsection
  obtain ⟨doc, hdoc, hentry⟩ := Option.bind_eq_some_iff.1 ht
  refine ⟨doc, t, hdoc, hentry, hfind, fun hnone => ?_⟩
  rw [hfind, overwritten_of_not_hasKey hnone]

/-- A plan with a target for a constant that is swept as well. -/
def sweptPlan : Plan where
  constants := [("k", .int 3), ("nu", .int 7)]
  parameterSweeps := [{ kind := "product", var := some "nu", values := [.int 1] }]
  parameterTargets := [("nu", ⟨"run.yaml", "pars"⟩)]

open Compile Resolver in
/-- The run has the swept value in the section, and not the constant. -/
theorem targetSection_of_sweep :
    ∃ suite, (outcome (compileSuite layeredSource "e" sweptPlan {}) {}).1 = .ok suite ∧
      ∃ run ∈ suite.runs, ∃ doc t, run.configs.find? "run.yaml" = some doc ∧
        doc.data.get? "pars" = some (.mapping t) ∧ Entries.find? "nu" t = some (.int 1) := by
  have hcheck : ((outcome (compileSuite layeredSource "e" sweptPlan {}) {}).1.toOption.any
      fun suite => suite.runs.any fun run =>
        (freeParameters sweptPlan (sweptPlan.constants.union run.parameters)).all
          fun q => q.1 != "pars") = true := by
    decide +kernel
  obtain ⟨suite, hsuite, hcheck⟩ := ok_of_any hcheck
  obtain ⟨run, hrun, hnames⟩ := List.any_eq_true.1 hcheck
  obtain ⟨sweep, configs, branch, combo, d, hsweep, -, hcombo, -, -, htargets⟩ :=
    targetSection_of_compileSuite (by decide) (outcome_of_answer hsuite) hrun
  cases (show Sweep.ofSpecs sweptPlan.parameterSweeps = .ok _ from rfl).symm.trans hsweep
  obtain rfl := List.mem_singleton.1 hcombo
  obtain ⟨doc, t, hdoc, ht, -, hplain⟩ := htargets "nu" _ (.int 1) (.head _) rfl
    fun q hq => by simpa using List.all_eq_true.1 hnames q hq
  exact ⟨suite, hsuite, run, hrun, doc, t, hdoc, ht, hplain fun _ _ => rfl⟩

/-- A plan in which one constant has the name of a section, and one the name of a key inside the
value of another. -/
def clashingPlan : Plan where
  constants := [("k", .int 7), ("nu", .int 1), ("sec", .int 5), ("table", .mapping [("k", .int 1)])]
  parameterTargets := [("nu", ⟨"run.yaml", "sec"⟩), ("table", ⟨"run.yaml", "pars"⟩)]

open Compile Resolver in
/-- The section that `nu` was put into is gone, and the table that was put into the other section is
not the table of the plan. -/
theorem targetSection_lost_of_clash :
    ∃ suite, (outcome (compileSuite layeredSource "e" clashingPlan {}) {}).1 = .ok suite ∧
      ∃ run ∈ suite.runs, entryOf run.configs "run.yaml" "sec" = some (.int 5) ∧
        (((entryOf run.configs "run.yaml" "pars").bind fun v => v.get? "table").bind
          fun v => v.get? "k") = some (.int 7) := by
  have hcheck : ((outcome (compileSuite layeredSource "e" clashingPlan {}) {}).1.toOption.any
      fun suite => suite.runs.any fun run =>
        (entryOf run.configs "run.yaml" "sec").bind Value.asInt? == some 5 &&
        (((entryOf run.configs "run.yaml" "pars").bind fun v => v.get? "table").bind
          fun v => v.get? "k").bind Value.asInt? == some 7) = true := by
    decide +kernel
  obtain ⟨suite, hsuite, hcheck⟩ := ok_of_any hcheck
  obtain ⟨run, hrun, hvalues⟩ := List.any_eq_true.1 hcheck
  simp only [Bool.and_eq_true, beq_iff_eq] at hvalues
  exact ⟨suite, hsuite, run, hrun, eq_int_of_asInt? hvalues.1, eq_int_of_asInt? hvalues.2⟩

end ParamSweep
