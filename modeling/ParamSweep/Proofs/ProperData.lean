import Mathlib
import ParamSweep.Proofs.Derivation
import ParamSweep.Proofs.DocumentData
import ParamSweep.Proofs.ReadDocuments
import ParamSweep.Proofs.RebuildDecisions
import ParamSweep.Proofs.RunFiles
import ParamSweep.Proofs.RunGrid

/-!
All data of a suite is proper.

The documents of a configuration are proper, and so is what a plan takes from its file
(`Plan.Proper`). Laying overlays over documents, deriving parameters and putting them in their
places keep it so. Hence the documents and the parameters of all runs of a suite are proper, and so
is what is recorded of the decision to build (`proper_of_compileExperiment`).
-/

namespace ParamSweep

/-! ### What a plan takes -/

namespace Shape

variable {σ α : Type} {P : σ → Prop} {Q : α → Prop} {read : Reader α} {v : Value}

/-- A field keeps a property of the structure that it is taken into. -/
def Field.Keeps (P : σ → Prop) (f : Field σ) : Prop :=
  ∀ v s s', v.Proper → P s → f.take v s = .ok s' → P s'

theorem keeps_optional {name : String} {set : α → σ → σ}
    (hset : ∀ v a s, v.Proper → read v = .ok a → P s → P (set a s)) :
    (optional name read set).Keeps P := by
  intro v s s' hv hs h
  obtain ⟨a, ha, rfl⟩ := except_map_ok h
  exact hset v a s hv ha hs

theorem keeps_required {name : String} {set : α → σ → σ}
    (hset : ∀ v a s, v.Proper → read v = .ok a → P s → P (set a s)) :
    (required name read set).Keeps P := by
  intro v s s' hv hs h
  obtain ⟨a, ha, rfl⟩ := except_map_ok h
  exact hset v a s hv ha hs

theorem takeEntries_keeps {fields : List (Field σ)} (hfields : ∀ f ∈ fields, f.Keeps P) {s s' : σ}
    (hs : P s) {entries : List (String × Value)} (hentries : ∀ p ∈ entries, p.2.Proper)
    (h : takeEntries fields s entries = .ok s') : P s' := by
  induction entries generalizing s with
  | nil =>
    cases h
    exact hs
  | cons p rest ih =>
    obtain ⟨hp, hrest⟩ := List.forall_mem_cons.1 hentries
    rw [takeEntries] at h
    split at h
    · cases h
    next f hf =>
      obtain ⟨s₁, hs₁, h⟩ := except_bind_ok h
      exact ih (hfields f (List.mem_of_find?_eq_some hf) _ _ _ hp hs hs₁) hrest h

theorem takeItems_keeps {fields : List (Field σ)} (hfields : ∀ f ∈ fields, f.Keeps P) {s s' : σ}
    (hs : P s) {items : List Value} (hitems : ∀ v ∈ items, v.Proper)
    (h : takeItems s fields items = .ok s') : P s' := by
  induction fields generalizing s items with
  | nil =>
    cases items with
    | nil =>
      cases h
      exact hs
    | cons => cases h
  | cons f fields ih =>
    cases items with
    | nil =>
      rw [takeItems] at h
      split at h
      · cases h
      · cases h
        exact hs
      · simp
    | cons v rest =>
      obtain ⟨hv, hrest⟩ := List.forall_mem_cons.1 hitems
      obtain ⟨hf, hfields⟩ := List.forall_mem_cons.1 hfields
      obtain ⟨s₁, hs₁, h⟩ := except_bind_ok h
      exact ih hfields (hf _ _ _ hv hs hs₁) hrest h

/-- A structure has what its defaults have and all its fields keep. -/
theorem structured_keeps {defaults s : σ} {fields : List (Field σ)} (hdefaults : P defaults)
    (hfields : ∀ f ∈ fields, f.Keeps P) (hv : v.Proper)
    (h : structured defaults fields v = .ok s) : P s := by
  cases v with
  | mapping entries =>
    obtain ⟨s', hs', h⟩ := except_bind_ok h
    split at h
    · cases h
    · cases h
      exact takeEntries_keeps hfields hdefaults hv.entries hs'
  | list items => exact takeItems_keeps hfields hdefaults hv.items h
  | _ => cases h

theorem listOf_holds (hread : ∀ v a, v.Proper → read v = .ok a → Q a) {as : List α}
    (hv : v.Proper) (h : listOf read v = .ok as) : ∀ a ∈ as, Q a := by
  cases v with
  | list items =>
    have hitems := hv.items
    replace h : items.mapM read = .ok as := h
    clear hv
    induction items generalizing as with
    | nil =>
      cases h
      simp
    | cons v rest ih =>
      obtain ⟨hv, hrest⟩ := List.forall_mem_cons.1 hitems
      rw [List.mapM_cons] at h
      obtain ⟨a, ha, h⟩ := except_bind_ok h
      obtain ⟨others, hothers, h⟩ := except_bind_ok h
      cases h
      exact List.forall_mem_cons.2 ⟨hread v a hv ha, ih hrest hothers⟩
  | _ => cases h

theorem readEntries_holds (hread : ∀ v a, v.Proper → read v = .ok a → Q a)
    {entries : List (String × Value)} {t : Entries α} (hentries : ∀ p ∈ entries, p.2.Proper)
    (h : readEntries read entries = .ok t) : ∀ p ∈ t, Q p.2 := by
  induction entries generalizing t with
  | nil =>
    cases h
    simp
  | cons p rest ih =>
    obtain ⟨hp, hrest⟩ := List.forall_mem_cons.1 hentries
    obtain ⟨a, ha, h⟩ := except_bind_ok h
    obtain ⟨others, hothers, h⟩ := except_bind_ok h
    cases h
    exact List.forall_mem_cons.2 ⟨hread _ a hp ha, ih hrest hothers⟩

theorem tableOf_holds (hread : ∀ v a, v.Proper → read v = .ok a → Q a) {t : Entries α}
    (hv : v.Proper) (h : tableOf read v = .ok t) : ∀ p ∈ t, Q p.2 := by
  cases v with
  | mapping entries => exact readEntries_holds hread hv.entries h
  | _ => cases h

end Shape

/-- All values in a plan are proper. -/
structure Plan.Proper (plan : Plan) : Prop where
  constants : ∀ p ∈ plan.constants, p.2.Proper
  sweeps : ∀ spec ∈ plan.parameterSweeps, ∀ v ∈ spec.values, v.Proper
  derived : ∀ p ∈ plan.derivedParameters, p.2.Proper
  branches : ∀ b ∈ plan.branches, ∀ p ∈ b.settings, p.2.Proper
  modifications : ∀ p ∈ plan.modifications, p.2.Proper

namespace Plan

open Shape

theorem proper_anything : ∀ v a : Value, v.Proper → anything v = .ok a → a.Proper := by
  rintro v _ hv ⟨⟩
  exact hv

theorem proper_branch {v : Value} {b : Branch} (hv : v.Proper) (h : Branch.reader v = .ok b) :
    ∀ p ∈ b.settings, p.2.Proper := by
  refine structured_keeps (P := fun b : Branch => ∀ p ∈ b.settings, p.2.Proper) (by simp) ?_ hv h
  rw [List.forall_mem_cons, List.forall_mem_singleton]
  exact ⟨keeps_required fun _ _ _ _ _ hs => hs,
    keeps_optional fun v _ _ hv hread _ => tableOf_holds proper_anything hv hread⟩

theorem proper_groupSpec {v : Value} {spec : GroupSpec} (hv : v.Proper)
    (h : GroupSpec.reader v = .ok spec) : ∀ v ∈ spec.values, v.Proper := by
  refine structured_keeps (P := fun spec : GroupSpec => ∀ v ∈ spec.values, v.Proper) (by simp) ?_
    hv h
  simp only [List.forall_mem_cons]
  exact ⟨keeps_required fun _ _ _ _ _ hs => hs, keeps_optional fun _ _ _ _ _ hs => hs,
    keeps_optional fun _ _ _ _ _ hs => hs,
    keeps_optional fun v _ _ hv hread _ => listOf_holds proper_anything hv hread, by simp⟩

theorem proper_reader {v : Value} {plan : Plan} (hv : v.Proper) (h : reader v = .ok plan) :
    plan.Proper := by
  have hdefaults : Plan.Proper {} := by constructor <;> simp
  refine structured_keeps hdefaults ?_ hv h
  simp only [List.forall_mem_cons]
  refine ⟨keeps_optional ?_, keeps_optional ?_, keeps_optional ?_, keeps_optional ?_,
    keeps_optional ?hconstants, keeps_optional ?hsweeps, keeps_optional ?hderived,
    keeps_optional ?_, keeps_optional ?hbranches, keeps_optional ?hmodifications,
    keeps_optional ?_, keeps_optional ?_, keeps_optional ?_, keeps_optional ?_, keeps_optional ?_,
    by simp⟩
  case hconstants =>
    exact fun v _ _ hv hread hs => { hs with constants := tableOf_holds proper_anything hv hread }
  case hsweeps =>
    exact fun v _ _ hv hread hs =>
      { hs with sweeps := listOf_holds (fun _ _ => proper_groupSpec) hv hread }
  case hderived =>
    exact fun v _ _ hv hread hs => { hs with derived := tableOf_holds proper_anything hv hread }
  case hbranches =>
    exact fun v _ _ hv hread hs =>
      { hs with branches := listOf_holds (fun _ _ => proper_branch) hv hread }
  case hmodifications =>
    exact fun v _ _ hv hread hs =>
      { hs with modifications := tableOf_holds proper_anything hv hread }
  -- the other fields hold no values
  all_goals exact fun _ _ _ _ _ hs => { hs with }

/-- A plan on disk is proper. -/
theorem proper_load {t : FileTree} {path : String} {plan : Plan} (h : load t path = .ok plan) :
    plan.Proper := by
  obtain ⟨text, -, h⟩ := except_bind_ok h
  obtain ⟨v, hv, h⟩ := except_bind_ok h
  rw [ofValue] at h
  split at h
  · cases h
  next hread =>
    split at h <;> cases h
    exact proper_reader (Yaml.proper_read hv) hread

end Plan

/-! ### Combinations -/

section Combinations

variable {c d : Combination} {v : Value}

/-- All values of a combination are proper. -/
def Combination.Proper (c : Combination) : Prop := ∀ p ∈ c.entries, p.2.Proper

theorem Combination.Proper.set (hc : c.Proper) (hv : v.Proper) (key : String) :
    (c.set key v).Proper := by
  have hentries : ∀ entries : List (String × Value), (∀ p ∈ entries, p.2.Proper) →
      ∀ p ∈ setEntry key v entries, p.2.Proper := by
    intro entries hentries
    induction entries with
    | nil => exact List.forall_mem_singleton.2 hv
    | cons q rest ih =>
      obtain ⟨hq, hrest⟩ := List.forall_mem_cons.1 hentries
      rw [setEntry]
      split
      · exact List.forall_mem_cons.2 ⟨hv, hrest⟩
      · exact List.forall_mem_cons.2 ⟨hq, ih hrest⟩
  exact hentries c.entries hc

theorem Combination.Proper.extend (hc : c.Proper) (hd : d.Proper) : (c.extend d).Proper :=
  List.foldlRecOn (motive := Combination.Proper) d.entries _ hc
    fun _ hacc p hp => hacc.set (hd p hp) p.1

theorem SweepGroup.proper_choice (vars : List String) (hv : v.Proper) :
    (choice vars v).Proper :=
  List.foldlRecOn (motive := Combination.Proper) vars _ (by simp [Combination.Proper])
    fun _ hacc key _ => hacc.set hv key

/-- The combinations of a sweep have the values of the plan. -/
theorem Sweep.proper_expand {specs : List GroupSpec} {sweep : Sweep}
    (hspecs : ∀ spec ∈ specs, ∀ v ∈ spec.values, v.Proper) (h : ofSpecs specs = .ok sweep) :
    ∀ c ∈ sweep.expand, c.Proper := by
  have hgroups : ∀ g ∈ sweep.groups, ∀ v ∈ g.values, v.Proper := by
    intro g hg
    obtain ⟨spec, hspec, hvalues⟩ :=
      List.mem_map.1 (values_of_ofSpecs h ▸ List.mem_map_of_mem hg)
    exact hvalues ▸ hspecs spec hspec
  refine List.foldlRecOn (motive := fun combos : List Combination => ∀ c ∈ combos, c.Proper)
    sweep.groups _ (by simp [Combination.Proper]) fun combos hcombos g hg c hc => ?_
  obtain ⟨c', hc', hc⟩ := List.mem_flatMap.1 hc
  obtain ⟨choice, hchoice, rfl⟩ := List.mem_map.1 hc
  obtain ⟨v, hv, rfl⟩ := List.mem_map.1 hchoice
  exact (hcombos c' hc').extend (SweepGroup.proper_choice g.names (hgroups g hg v hv))

theorem Combination.Proper.toEntries (h : c.Proper) : (Value.mapping c.toEntries).Proper :=
  Value.proper_record h

end Combinations

/-! ### Parameters and documents of runs -/

namespace Compile

variable {plan : Plan} {data : Value} {configs configs' : Entries Document} {d d' : Derivation}
  {parameters : Entries Value}

theorem proper_exprValue {n : Number} {v : Value} (h : Expression.toValue n = .ok v) :
    v.Proper := by
  cases n with
  | int k =>
    cases h
    exact .num trivial
  | float x =>
    rw [Expression.toValue] at h
    split at h
    next hfinite =>
      cases h
      exact .num hfinite
    next => cases h

theorem proper_deriveFirst {entries : List (String × Value)}
    (hd : (Value.mapping d.parameters).Proper) (hentries : ∀ p ∈ entries, p.2.Proper)
    (h : deriveFirst d entries = .ok d') : (Value.mapping d'.parameters).Proper := by
  induction entries generalizing d with
  | nil =>
    cases h
    exact hd
  | cons p rest ih =>
    obtain ⟨key, entry⟩ := p
    obtain ⟨hentry, hrest⟩ := List.forall_mem_cons.1 hentries
    cases entry with
    | str formula =>
      rw [deriveFirst] at h
      split at h
      · obtain ⟨v, hv, h⟩ := except_bind_ok h
        exact ih (hd.insert (proper_exprValue (mapError_ok hv))) hrest h
      · exact ih (d := { d with deferred := d.deferred ++ [(key, formula)] }) hd hrest h
      · cases h
    | _ => exact ih (hd.insert hentry) hrest h

theorem proper_deriveRest {later : List (String × String)}
    (hd : (Value.mapping d.parameters).Proper) (h : deriveRest d later = .ok d') :
    (Value.mapping d'.parameters).Proper := by
  induction later generalizing d with
  | nil =>
    cases h
    exact hd
  | cons p rest ih =>
    obtain ⟨n, -, h⟩ := except_bind_ok h
    obtain ⟨v, hv, h⟩ := except_bind_ok h
    exact ih (hd.insert (proper_exprValue (mapError_ok hv))) h

theorem proper_derive {context : Entries Value} (hplan : plan.Proper)
    (hparameters : (Value.mapping parameters).Proper)
    (h : derive plan context parameters = .ok d) : (Value.mapping d.parameters).Proper := by
  obtain ⟨d₁, hfirst, h⟩ := except_bind_ok h
  exact proper_deriveRest (proper_deriveFirst hparameters hplan.derived hfirst) h

/-- All data of documents is proper. -/
def ProperDocuments (configs : Entries Document) : Prop := ∀ p ∈ configs, p.2.data.Proper

theorem ProperDocuments.insert {file : String} {doc : Document} (hconfigs : ProperDocuments configs)
    (hdoc : doc.data.Proper) : ProperDocuments (configs.insert file doc) := by
  intro p hp
  rcases Entries.mem_of_mem_insert hp with rfl | hp
  · exact hdoc
  · exact hconfigs p hp

theorem proper_applyOverlays {overlays : List (String × Value)}
    (hconfigs : ProperDocuments configs) (hoverlays : ∀ p ∈ overlays, p.2.Proper)
    (h : applyOverlays configs overlays = .ok configs') : ProperDocuments configs' :=
  applyOverlays_induction h hconfigs fun p hp _ _ _ ht hdoc hv =>
    ht.insert (Value.proper_merged (ht _ (Entries.mem_of_find? hdoc)) (hoverlays p hp) hv)

theorem proper_setInSection {file parameter : String} {«section» : String} {value v v' : Value}
    (hv : v.Proper) (hvalue : value.Proper)
    (h : setInSection file «section» v parameter value = .ok v') : v'.Proper := by
  cases v with
  | mapping t =>
    simp only [setInSection] at h
    split at h
    next inner hinner =>
      cases h
      refine hv.insert (Value.Proper.insert ?_ hvalue)
      cases hfind : Entries.find? «section» t with
      | none =>
        rw [hfind] at hinner
        cases hinner
        exact Value.proper_empty
      | some w =>
        rw [hfind] at hinner
        cases hinner
        exact hv.entries _ (Entries.mem_of_find? hfind)
    next => cases h
  | _ => cases h

theorem keys_replaceKeyIn (key : String) (value : Value) (entries : List (String × Value)) :
    Entries.keys (replaceKeyIn key value entries) = Entries.keys entries := by
  induction entries with
  | nil => rfl
  | cons p rest ih => exact congrArg (p.1 :: ·) ih

mutual

theorem proper_replaceKey {key : String} {value : Value} (hvalue : value.Proper) :
    ∀ {v : Value}, v.Proper → (replaceKey key value v).Proper
  | .mapping entries, h => by
    refine .mapping ?_ (proper_replaceKeyIn hvalue h.entries)
    rw [Entries.Ascending, keys_replaceKeyIn]
    exact h.ascending
  | .null, h => h
  | .bool _, h => h
  | .num _, h => h
  | .str _, h => h
  | .list _, h => h

theorem proper_replaceKeyIn {key : String} {value : Value} (hvalue : value.Proper) :
    ∀ {entries : List (String × Value)}, (∀ p ∈ entries, p.2.Proper) →
      ∀ p ∈ replaceKeyIn key value entries, p.2.Proper
  | [], _ => by simp [replaceKeyIn]
  | (k, v) :: rest, h => by
    obtain ⟨hv, hrest⟩ := List.forall_mem_cons.1 h
    refine List.forall_mem_cons.2 ⟨?_, proper_replaceKeyIn hvalue hrest⟩
    dsimp only
    split
    · exact hvalue
    · exact proper_replaceKey hvalue hv

end

theorem proper_inject (hconfigs : ProperDocuments configs)
    (hparameters : ∀ p ∈ parameters, p.2.Proper)
    (h : inject plan configs parameters = .ok configs') : ProperDocuments configs' := by
  refine inject_induction h hconfigs ?_ fun p hp t ht entry hentry => ?_
  · intro p _ value hvalue t doc v ht hdoc hv
    exact ht.insert (proper_setInSection (ht _ (Entries.mem_of_find? hdoc))
      (hparameters _ (Entries.mem_of_find? hvalue)) hv)
  · obtain ⟨entry', hentry', rfl⟩ := List.mem_map.1 hentry
    exact proper_replaceKey (hparameters p hp) (ht entry' hentry')

theorem proper_parameters {branch : Branch} {combo : Combination} {run : Run} (hplan : plan.Proper)
    (hcombo : combo.Proper) (h : compileRun plan data configs branch combo = .ok run) :
    (Value.mapping run.parameters).Proper := by
  obtain ⟨d, hd, hparameters⟩ := derive_of_compileRun h
  rw [hparameters]
  exact proper_derive hplan hcombo.toEntries hd

theorem proper_configs {branch : Branch} {combo : Combination} {run : Run} (hplan : plan.Proper)
    (hbranch : ∀ p ∈ branch.settings, p.2.Proper) (hcombo : combo.Proper)
    (hconfigs : ProperDocuments configs)
    (h : compileRun plan data configs branch combo = .ok run) : ProperDocuments run.configs := by
  obtain ⟨modified, overlaid, hmodified, hoverlaid, hinjected⟩ := compileRun_ok h
  have hrun := (proper_parameters hplan hcombo h).entries
  have hparameters : ∀ p ∈ plan.constants.union run.parameters, p.2.Proper :=
    List.foldlRecOn (motive := fun t : Entries Value => ∀ p ∈ t, p.2.Proper) run.parameters _
      hplan.constants fun t ht q hq p hp => by
        rcases Entries.mem_of_mem_insert hp with rfl | hp
        · exact hrun q hq
        · exact ht p hp
  exact proper_inject (proper_applyOverlays (proper_applyOverlays hconfigs hplan.modifications
    hmodified) hbranch hoverlaid) hparameters hinjected

end Compile

/-! ### The decision to build -/

namespace RebuildInputs

theorem proper_parameter (name : String) {data : Option Value} (h : ∀ v ∈ data, v.Proper) :
    (parameter name data).Proper := by
  cases data with
  | none => exact .null
  | some v =>
    have hv := h v rfl
    cases hfound : v.get? name with
    | none =>
      rw [parameter, Option.bind_some, hfound]
      exact .null
    | some w =>
      rw [parameter, Option.bind_some, hfound]
      cases v with
      | mapping t => exact hv.entries _ (Entries.mem_of_find? hfound)
      | _ => cases hfound

/-- Of a parameter that differs, the two values are told. -/
theorem proper_changedParameter {i : RebuildInputs} (hbase : ∀ v ∈ i.baseParameters, v.Proper)
    (hsuite : ∀ v ∈ i.suiteParameters, v.Proper) {reason : RebuildReason}
    (h : i.changedParameter = some reason) : reason.toValue.Proper := by
  obtain ⟨base, hb, h⟩ := Option.bind_eq_some_iff.1 h
  obtain ⟨p, -, h⟩ := List.exists_of_findSome?_eq_some h
  dsimp only at h
  split at h
  · cases h
  · cases h
    have hbase' := proper_parameter p (hb ▸ hbase)
    refine Value.proper_record ?_
    simp [Value.Proper.str, hbase', proper_parameter p hsuite]

theorem proper_criticalTrigger {i : RebuildInputs} (hbase : ∀ v ∈ i.baseParameters, v.Proper)
    (hsuite : ∀ v ∈ i.suiteParameters, v.Proper) {reason : RebuildReason}
    (h : i.criticalTrigger = some reason) : reason.toValue.Proper := by
  -- all other reasons tell names
  have hnames : ∀ pairs : List (String × String),
      (Value.record (pairs.map fun p => (p.1, .str p.2))).Proper := by
    intro pairs
    refine Value.proper_record fun p hp => ?_
    obtain ⟨q, -, rfl⟩ := List.mem_map.1 hp
    exact .str q.2
  simp only [criticalTrigger, Option.orElse_eq_or, Option.or_eq_some_iff, Option.map_eq_some_iff]
    at h
  rcases h with h | ⟨-, ⟨var, -, rfl⟩ | ⟨-, ⟨parameter, -, rfl⟩ | ⟨-, ⟨file, -, rfl⟩ | ⟨-, h⟩⟩⟩⟩
  · exact proper_changedParameter hbase hsuite h
  · exact hnames [("kind", "sweep_touches_critical"), ("variable", var)]
  · exact hnames [("kind", "target_touches_critical"), ("param", parameter)]
  · exact hnames [("kind", "plan_modifies_critical_file"), ("file", file)]
  · obtain ⟨b, -, h⟩ := List.exists_of_findSome?_eq_some h
    obtain ⟨file, -, rfl⟩ := Option.map_eq_some_iff.1 h
    exact hnames [("kind", "branch_modifies_critical_file"), ("branch", b.name), ("file", file)]

theorem proper_decide {i : RebuildInputs} (hbase : ∀ v ∈ i.baseParameters, v.Proper)
    (hsuite : ∀ v ∈ i.suiteParameters, v.Proper) (detect force : Bool) :
    (i.decide detect force).toValue.Proper := by
  have hdecision : ∀ {d : RebuildDecision}, d.reason.toValue.Proper → d.toValue.Proper := by
    intro d hreason
    refine Value.proper_record ?_
    simp [hreason, Value.Proper.bool]
  have hkind : ∀ kind, (Value.record [("kind", .str kind)]).Proper := by
    intro kind
    refine Value.proper_record ?_
    simp [Value.Proper.str]
  rw [decide]
  split
  · exact hdecision (hkind "forced")
  · dsimp only
    split
    next reason htrigger =>
      refine hdecision (proper_criticalTrigger hbase hsuite ?_)
      cases detect with
      | false => cases htrigger
      | true => exact htrigger
    next =>
      split
      · exact hdecision (hkind "disabled_by_plan")
      · exact hdecision (hkind "default")

end RebuildInputs

/-! ### Suites -/

/-- The documents and the parameters of all runs are proper, and so is what is recorded of the
decision to build. -/
structure CompiledSuite.Proper (s : CompiledSuite) : Prop where
  rebuild : s.rebuild.toValue.Proper
  parameters : ∀ run ∈ s.runs, (Value.mapping run.parameters).Proper
  configs : ∀ run ∈ s.runs, Compile.ProperDocuments run.configs
  ascending : ∀ run ∈ s.runs, run.configs.Ascending

open Compile Resolver in
theorem proper_of_compileSuite {t : FileTree} {root experiment : String} {plan : Plan}
    {o : CompileOptions} {suite : CompiledSuite} {r' : Resolver} (hplan : plan.Proper)
    (h : outcome (compileSuite (.ofTree t root) experiment plan o) {} = (.ok suite, r')) :
    suite.Proper := by
  obtain ⟨sweep, configs, r₁, runs, hsweep, hresolved, -, hdecision, hruns, hlimit⟩ :=
    compileSuite_ok h
  have hfresh := sound_declareBase? (.ofTree t root) [] experiment plan.baseExperiment
  obtain ⟨hdocs, hr₁⟩ := (answers_resolveAll experiment).of_outcome hfresh hresolved
  have hconfigs : ProperDocuments configs :=
    documentsOf_holds (P := fun doc => doc.data.Proper) proper_layered hdocs
  obtain ⟨top, base, hroot, hbase, hrebuild⟩ := rebuildDecision_ok hr₁ hdecision
  have hbranches : ∀ b ∈ plan.effectiveBranches, ∀ p ∈ b.settings, p.2.Proper := by
    rw [Plan.effectiveBranches]
    split
    · simp
    · exact hplan.branches
  have hexpand := Sweep.proper_expand hplan.sweeps hsweep
  have hown : ∀ doc, configs.find? criticalParameterFile = some doc → doc.data.Proper :=
    fun doc hdoc => hconfigs _ (Entries.mem_of_find? hdoc)
  have htop : ∀ doc, top = some doc → doc.data.Proper := by
    rintro doc rfl
    obtain ⟨link, -, hroot⟩ := except_bind_ok hroot
    split at hroot
    · exact hown doc (Except.ok.inj hroot)
    · exact documentOf_holds (P := fun doc => doc.data.Proper) proper_layered hroot
  refine ⟨?_, fun run hrun => ?_, fun run hrun => ?_, fun run hrun => ?_⟩
  · rw [hrebuild]
    refine RebuildInputs.proper_decide ?_ ?_ _ _
    · rintro v hv
      obtain ⟨doc, rfl, rfl⟩ := Option.map_eq_some_iff.1 hv
      rcases hbase with ⟨-, hnone⟩ | hsame
      · cases hnone
      · exact htop doc hsame
    · rintro v hv
      obtain ⟨doc, hdoc, rfl⟩ := Option.map_eq_some_iff.1 hv
      exact hown doc hdoc
  · obtain ⟨branch, -, combo, hc, hcompiled⟩ := compileRun_of_mem hruns hlimit hrun
    exact proper_parameters hplan (hexpand combo hc) hcompiled
  · obtain ⟨branch, hb, combo, hc, hcompiled⟩ := compileRun_of_mem hruns hlimit hrun
    exact proper_configs hplan (hbranches branch hb) (hexpand combo hc) hconfigs hcompiled
  · obtain ⟨branch, -, combo, -, hcompiled⟩ := compileRun_of_mem hruns hlimit hrun
    exact ascending_compileRun (ascending_documentsOf hdocs) hcompiled

/-- All data of a suite that is compiled from files is proper. -/
theorem proper_of_compileExperiment {t : FileTree} {l : Layout} {o : CompileOptions} {plan : Plan}
    {suite : CompiledSuite} (h : compileExperiment t l o = .ok (plan, suite)) : suite.Proper := by
  obtain ⟨r', hsuite⟩ := compileExperiment_ok h
  exact proper_of_compileSuite (Plan.proper_load (compileExperiment_parts h).1) hsuite

end ParamSweep
