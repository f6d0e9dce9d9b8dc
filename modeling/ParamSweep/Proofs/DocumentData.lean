import ParamSweep.Proofs.Injection
import ParamSweep.Proofs.LaidTrees
import ParamSweep.Proofs.ResolverHistory
import ParamSweep.Proofs.RunFiles

/-!
Whether the data of a document is a mapping.

A file whose data is anything else is refused, and the overlay of one document over another leaves a
mapping. So whatever a resolver answers, the data of a document is a mapping. Parameters do not
change that, but the overlays of a plan and of a branch are not looked at: one that is no mapping
takes the place of all data. `isMapping_data` says what the data of a run's document is, by the last
overlay for it.
-/

namespace ParamSweep

theorem Entries.last?_append {α : Type} (key : String) (t t' : Entries α) :
    last? key (t ++ t') = (last? key t').or (last? key t) := by
  induction t with
  | nil => cases h : last? key t' <;> simp [last?, h]
  | cons p rest ih =>
    obtain ⟨k, v⟩ := p
    rw [List.cons_append, last?, ih, last?]
    cases last? key t' <;> rfl

/-- What is left has the shape of what was laid over. -/
theorem isMapping_merged {base overlay v : Value} (h : merged base overlay = .ok v) :
    v.isMapping = overlay.isMapping := by
  obtain ⟨-, rfl⟩ := merged_eq_ok_iff.1 h
  exact Value.isMapping_laid

/-! ### Documents of the configuration -/

namespace Document

theorem isMapping_dataOf {file : String} {entry : Option Value} {v : Value}
    (h : dataOf file entry = .ok v) : v.isMapping = true := by
  rw [dataOf.eq_def] at h
  split at h <;> cases h <;> rfl

theorem isMapping_ofValue {file : String} {v : Value} {doc : Document}
    (h : ofValue file v = .ok doc) : doc.data.isMapping = true := by
  cases v with
  | mapping entries =>
    rw [ofValue] at h
    split at h
    · cases h
      rfl
    · obtain ⟨format, -, h⟩ := except_bind_ok h
      obtain ⟨data, hdata, h⟩ := except_bind_ok h
      cases h
      exact isMapping_dataOf hdata
  | _ => cases h

theorem isMapping_overlay {base layer doc : Document} (h : base.overlay layer = .ok doc) :
    doc.data.isMapping = layer.data.isMapping := by
  obtain ⟨data, hdata, h⟩ := except_bind_ok h
  cases h
  exact isMapping_merged hdata

end Document

namespace Resolver

variable {source : ConfigSource} {declared : Entries String} {experiment file : String}
  {doc : Document}

theorem isMapping_layerOf (h : layerOf source file experiment = .ok (some doc)) :
    doc.data.isMapping = true := by
  obtain ⟨content, -, h⟩ := except_bind_ok h
  cases content with
  | none => cases h
  | some v =>
    obtain ⟨doc', hdoc', h⟩ := except_map_ok h
    cases h
    exact Document.isMapping_ofValue (mapError_ok hdoc')

theorem isMapping_layered {links : List String}
    (h : layered source file links = .ok (some doc)) : doc.data.isMapping = true :=
  layered_holds (P := fun doc => doc.data.isMapping = true) (fun _ _ => isMapping_layerOf)
    (fun _ _ _ _ hlayer hlaid => (Document.isMapping_overlay hlaid).trans hlayer) h

section Holds

/-! What holds of all documents that are laid together along a chain holds of whatever document a
resolver answers with. -/

variable {P : Document → Prop}
  (hlayered : ∀ {file links doc}, layered source file links = .ok (some doc) → P doc)

include hlayered

theorem documentOf_holds (h : documentOf source declared experiment file = .ok (some doc)) :
    P doc := by
  obtain ⟨links, -, h⟩ := except_bind_ok h
  exact hlayered h

theorem presentDocument_holds (h : presentDocument source declared experiment file = .ok doc) :
    P doc := by
  obtain ⟨found, hfound, h⟩ := except_bind_ok h
  cases found with
  | none =>
    obtain ⟨links, -, h⟩ := except_bind_ok h
    cases h
  | some doc' =>
    cases h
    exact documentOf_holds hlayered hfound

theorem presentDocuments_holds {files : List String} {docs : Entries Document}
    (h : presentDocuments source declared experiment files = .ok docs) :
    ∀ entry ∈ docs, P entry.2 := by
  induction files generalizing docs with
  | nil =>
    cases h
    simp
  | cons file rest ih =>
    obtain ⟨doc, hdoc, h⟩ := except_bind_ok h
    obtain ⟨others, hothers, h⟩ := except_bind_ok h
    cases h
    exact List.forall_mem_cons.2 ⟨presentDocument_holds hlayered hdoc, ih hothers⟩

theorem documentsOf_holds {docs : Entries Document}
    (h : documentsOf source declared experiment = .ok docs) : ∀ entry ∈ docs, P entry.2 := by
  obtain ⟨links, -, h⟩ := except_bind_ok h
  obtain ⟨names, -, h⟩ := except_bind_ok h
  exact presentDocuments_holds hlayered h

end Holds

theorem isMapping_documentsOf {docs : Entries Document}
    (h : documentsOf source declared experiment = .ok docs) :
    ∀ entry ∈ docs, entry.2.data.isMapping = true :=
  documentsOf_holds (P := fun doc => doc.data.isMapping = true) isMapping_layered h

theorem ascending_documentsOf {docs : Entries Document}
    (h : documentsOf source declared experiment = .ok docs) : docs.Ascending := by
  obtain ⟨links, -, h⟩ := except_bind_ok h
  obtain ⟨names, hnames, h⟩ := except_bind_ok h
  rw [Entries.Ascending, (presentDocuments_ok h).1]
  exact (fileNamesOf_ok hnames).1

/-- The documents in a reply. -/
def Reply.docs : Reply → List Document
  | .found doc => doc.toList
  | .document doc => [doc]
  | .documents docs => docs.map Prod.snd
  | _ => []

theorem isMapping_answerOf {question : Question} {reply : Reply}
    (h : answerOf source declared experiment question = .ok reply) :
    ∀ doc ∈ reply.docs, doc.data.isMapping = true := by
  cases question with
  | chain =>
    obtain ⟨links, -, h⟩ := except_bind_ok h
    cases h
    simp [Reply.docs]
  | rootOf =>
    obtain ⟨root, -, h⟩ := except_bind_ok h
    cases h
    simp [Reply.docs]
  | tryResolve file =>
    obtain ⟨found, hfound, h⟩ := except_bind_ok h
    cases h
    rintro doc hdoc
    obtain rfl : found = some doc := by simpa [Reply.docs] using hdoc
    exact documentOf_holds (P := fun doc => doc.data.isMapping = true) isMapping_layered hfound
  | resolve file =>
    obtain ⟨found, hfound, h⟩ := except_bind_ok h
    cases h
    rintro doc hdoc
    obtain rfl : doc = found := by simpa [Reply.docs] using hdoc
    exact presentDocument_holds (P := fun doc => doc.data.isMapping = true) isMapping_layered hfound
  | resolveAll =>
    obtain ⟨docs, hdocs, h⟩ := except_bind_ok h
    cases h
    rintro doc hdoc
    obtain ⟨entry, hentry, rfl⟩ := List.mem_map.1 hdoc
    exact isMapping_documentsOf hdocs entry hentry

/-- A resolver after calls. -/
def afterCalls (source : ConfigSource) (declared : Entries String) (calls : List Call) : Resolver :=
  calls.foldl (Call.after source) { declared := declared }

/-- The documents that a resolver answers with, whatever it was called for before. -/
theorem isMapping_answerAfter {calls : List Call} {question : Question} {reply : Reply}
    (h : answerAfter source declared calls experiment question = .ok reply) :
    ∀ doc ∈ reply.docs, doc.data.isMapping = true := by
  have hremembers := (remembers_fresh source declared).after calls
  rw [answerAfter, (answers_ask experiment question).answer hremembers.sound] at h
  exact isMapping_answerOf h

end Resolver

/-! ### Documents of runs -/

namespace Compile

variable {plan : Plan} {data : Value} {configs configs' : Entries Document} {file : String}
  {parameters : Entries Value}

/-- Whether the data of a file is a mapping, if there is the file. -/
def shapeOf (configs : Entries Document) (file : String) : Option Bool :=
  (configs.find? file).map fun doc => doc.data.isMapping

theorem shapeOf_insert (other : String) (doc : Document) :
    shapeOf (configs.insert other doc) file =
      if other = file then some doc.data.isMapping else shapeOf configs file := by
  rw [shapeOf, Entries.find?_insert]
  split <;> rfl

/-- The last overlay for a file says what its data is. -/
theorem shapeOf_applyOverlays {overlays : List (String × Value)}
    (h : applyOverlays configs overlays = .ok configs') :
    shapeOf configs' file =
      ((Entries.last? file overlays).map Value.isMapping).or (shapeOf configs file) := by
  induction overlays generalizing configs with
  | nil => cases h; rfl
  | cons p rest ih =>
    obtain ⟨other, overlay⟩ := p
    rw [applyOverlays] at h
    split at h
    · cases h
    · obtain ⟨laid, hlaid, h⟩ := except_bind_ok h
      rw [ih h, Entries.last?, shapeOf_insert, isMapping_merged hlaid]
      cases Entries.last? file rest with
      | some _ => rfl
      | none => split <;> rfl

/-- A parameter is set only in a mapping, which stays one. -/
theorem shape_of_setInSection {parameter : String} {«section» : String} {value v v' : Value}
    (h : setInSection file «section» v parameter value = .ok v') :
    v'.isMapping = true ∧ v.isMapping = true := by
  cases v with
  | mapping t =>
    simp only [setInSection] at h
    split at h <;> cases h
    exact ⟨rfl, rfl⟩
  | _ => cases h

theorem shapeOf_replaceEverywhere (parameter : String) (value : Value) :
    shapeOf (replaceEverywhere configs parameter value) file = shapeOf configs file := by
  have hfind := Entries.find?_map
    (fun doc : Document => { doc with data := replaceKey parameter value doc.data }) file configs
  rw [shapeOf, replaceEverywhere, hfind, shapeOf, Option.map_map]
  simp only [Function.comp_def, isMapping_replaceKey]

/-- Parameters leave the data of a file a mapping, or what else it was. -/
theorem shapeOf_inject (h : inject plan configs parameters = .ok configs') :
    shapeOf configs' file = shapeOf configs file := by
  refine inject_induction (P := fun t => shapeOf t file = shapeOf configs file) h rfl ?_ ?_
  · intro p _ value _ t doc v ht hdoc hv
    obtain ⟨hafter, hbefore⟩ := shape_of_setInSection hv
    rw [← ht, shapeOf_insert]
    split
    next hfile => rw [shapeOf, ← hfile, hdoc, Option.map_some, hafter, hbefore]
    · rfl
  · exact fun p _ t ht => (shapeOf_replaceEverywhere p.1 p.2).trans ht

theorem ascending_applyOverlays {overlays : List (String × Value)} (hconfigs : configs.Ascending)
    (h : applyOverlays configs overlays = .ok configs') : configs'.Ascending :=
  applyOverlays_induction h hconfigs fun _ _ _ _ _ ht _ _ => ht.insert

theorem ascending_inject (hconfigs : configs.Ascending)
    (h : inject plan configs parameters = .ok configs') : configs'.Ascending := by
  refine inject_induction h hconfigs (fun _ _ _ _ _ _ _ ht _ _ => ht.insert) fun p _ t ht => ?_
  rw [Entries.Ascending, keys_replaceEverywhere]
  exact ht

/-- A run has each of its documents once. -/
theorem ascending_compileRun {branch : Branch} {combo : Combination} {run : Run}
    (hconfigs : configs.Ascending)
    (h : compileRun plan data configs branch combo = .ok run) : run.configs.Ascending := by
  obtain ⟨modified, overlaid, hmodified, hoverlaid, hinjected⟩ := compileRun_ok h
  exact ascending_inject
    (ascending_applyOverlays (ascending_applyOverlays hconfigs hmodified) hoverlaid) hinjected

theorem shapeOf_compileRun {branch : Branch} {combo : Combination} {run : Run} (file : String)
    (h : compileRun plan data configs branch combo = .ok run) :
    shapeOf run.configs file =
      ((Entries.last? file (plan.modifications ++ branch.settings)).map Value.isMapping).or
        (shapeOf configs file) := by
  obtain ⟨modified, overlaid, hmodified, hoverlaid, hinjected⟩ := compileRun_ok h
  rw [shapeOf_inject hinjected, shapeOf_applyOverlays hoverlaid, shapeOf_applyOverlays hmodified,
    Entries.last?_append]
  cases Entries.last? file branch.settings <;> rfl

/-- Where all documents of the experiment are mappings, the last overlay for a file decides whether
its document in a run is one. -/
theorem isMapping_compileRun_iff {branch : Branch} {combo : Combination} {run : Run}
    {doc : Document} (hascending : configs.Ascending)
    (hconfigs : ∀ entry ∈ configs, entry.2.data.isMapping = true)
    (h : compileRun plan data configs branch combo = .ok run) (hdoc : (file, doc) ∈ run.configs) :
    doc.data.isMapping = true ↔
      ∀ overlay, Entries.last? file (plan.modifications ++ branch.settings) = some overlay →
        overlay.isMapping = true := by
  have hfind := (ascending_compileRun hascending h).find?_eq_some_iff.2 hdoc
  obtain ⟨known, hknown⟩ := Entries.mem_keys_iff.1
    (keys_of_compileRun h (List.mem_map_of_mem hdoc))
  have hshape := shapeOf_compileRun file h
  rw [shapeOf, hfind, shapeOf, hknown, Option.map_some, Option.map_some,
    hconfigs _ (hascending.find?_eq_some_iff.1 hknown)] at hshape
  cases hlast : Entries.last? file (plan.modifications ++ branch.settings) with
  | none =>
    rw [hlast] at hshape
    exact iff_of_true (Option.some.inj hshape) nofun
  | some overlay =>
    rw [hlast] at hshape
    rw [Option.some.inj hshape]
    simp

end Compile

/-- The data of a document is a mapping when it comes from a file, and when a resolver answers with
it, whatever it was called for before. In a run of a compiled suite it is one exactly if the last
overlay for its file, in the plan or in the branch, is one or there is none. -/
theorem isMapping_data (source : ConfigSource) (declared : Entries String)
    (calls : List Resolver.Call) :
    (∀ file v doc, Document.ofValue file v = .ok doc → doc.data.isMapping = true) ∧
    (∀ experiment question reply,
      Resolver.answerAfter source declared calls experiment question = .ok reply →
        ∀ doc ∈ reply.docs, doc.data.isMapping = true) ∧
    ∀ experiment plan o suite,
      (outcome (compileSuite source experiment plan o)
        (Resolver.afterCalls source declared calls)).1 = .ok suite →
      ∀ run ∈ suite.runs, ∃ branch ∈ plan.effectiveBranches, run.branch = branch.name ∧
        ∀ file doc, (file, doc) ∈ run.configs →
          (doc.data.isMapping = true ↔
            ∀ overlay, Entries.last? file (plan.modifications ++ branch.settings) = some overlay →
              overlay.isMapping = true) := by
  refine ⟨fun file v doc h => Document.isMapping_ofValue h,
    fun experiment question reply h => Resolver.isMapping_answerAfter h,
    fun experiment plan o suite h run hrun => ?_⟩
  obtain ⟨sweep, configs, r₁, runs, -, hresolved, -, -, hruns, hlimit⟩ :=
    compileSuite_ok (Prod.ext h rfl)
  have hremembers := (Resolver.remembers_fresh source declared).after calls
  obtain ⟨bases, hsound⟩ : ∃ bases, Resolver.Sound source bases
      (Resolver.declareBase? experiment plan.baseExperiment
        (Resolver.afterCalls source declared calls)) := by
    cases plan.baseExperiment with
    | none => exact ⟨_, hremembers.sound⟩
    | some base => exact ⟨_, (hremembers.declareBase experiment base).sound⟩
  obtain ⟨hdocs, -⟩ := (Resolver.answers_resolveAll experiment).of_outcome hsound hresolved
  obtain ⟨branch, hbranch, combo, -, hcompiled⟩ := compileRun_of_mem hruns hlimit hrun
  exact ⟨branch, hbranch, (Compile.compileRun_parts hcompiled).2.1, fun file doc hdoc =>
    Compile.isMapping_compileRun_iff (Resolver.ascending_documentsOf hdocs)
      (Resolver.isMapping_documentsOf hdocs) hcompiled hdoc⟩

/-- A plan with an overlay that is no mapping. -/
def flatPlan : Plan := { modifications := [("run.yaml", .int 5)] }

/-- The same plan with a branch that has a mapping for that file. -/
def restoringPlan : Plan :=
  { flatPlan with branches := [{ name := "x", settings := [("run.yaml", .mapping [])] }] }

/-- The data of `run.yaml` is a mapping in its file, in the answer of a resolver, and in the run of
a branch that lays a mapping over what the plan makes of it. -/
theorem isMapping_data_of_branch :
    (∃ doc, Document.ofValue "run.yaml" (.mapping []) = .ok doc ∧ doc.data.isMapping = true) ∧
    (∃ reply, Resolver.answerAfter Resolver.layeredSource [] [] "e" (.resolve "run.yaml") =
      .ok reply ∧ ∃ doc ∈ reply.docs, doc.data.isMapping = true) ∧
    ∃ suite, (outcome (compileSuite Resolver.layeredSource "e" restoringPlan {}) {}).1 = .ok suite ∧
      ∃ run ∈ suite.runs, ∃ doc, ("run.yaml", doc) ∈ run.configs ∧ doc.data.isMapping = true := by
  have hrun : ((Resolver.answerAfter Resolver.layeredSource [] [] "e"
        (.resolve "run.yaml")).toOption.any fun reply => !reply.docs.isEmpty) = true ∧
      ((outcome (compileSuite Resolver.layeredSource "e" restoringPlan {}) {}).1.toOption.any
        fun suite => suite.runs.any fun run => run.configs.any fun p => p.1 == "run.yaml") =
          true := by
    decide +kernel
  obtain ⟨hreply, hsuite⟩ := hrun
  obtain ⟨hvalues, hreplies, hruns⟩ := isMapping_data Resolver.layeredSource [] []
  refine ⟨⟨_, rfl, hvalues "run.yaml" (.mapping []) _ rfl⟩, ?_, ?_⟩
  · obtain ⟨reply, hreply, hfound⟩ := ok_of_any hreply
    obtain ⟨doc, hdoc⟩ : ∃ doc, doc ∈ reply.docs :=
      List.exists_mem_of_ne_nil _ (by simpa using hfound)
    exact ⟨reply, hreply, doc, hdoc, hreplies _ _ reply hreply doc hdoc⟩
  · obtain ⟨suite, hsuite, hfound⟩ := ok_of_any hsuite
    obtain ⟨run, hmem, hfound⟩ := List.any_eq_true.1 hfound
    obtain ⟨doc, hdoc⟩ : ∃ doc, ("run.yaml", doc) ∈ run.configs := by
      obtain ⟨⟨file, doc⟩, hdoc, hfile⟩ := List.any_eq_true.1 hfound
      exact ⟨doc, (beq_iff_eq.1 hfile) ▸ hdoc⟩
    obtain ⟨branch, hbranch, -, hdocs⟩ := hruns "e" restoringPlan {} suite hsuite run hmem
    obtain rfl := List.mem_singleton.1 hbranch
    refine ⟨suite, hsuite, run, hmem, doc, hdoc, (hdocs "run.yaml" doc hdoc).2 ?_⟩
    rintro overlay hoverlay
    cases hoverlay
    rfl

/-- A modification that is no mapping makes the data of a run's document what it is. -/
theorem not_isMapping_data_of_scalar :
    ¬ ∀ (source : ConfigSource) (experiment : String) (plan : Plan) (o : CompileOptions)
        (suite : CompiledSuite),
      (outcome (compileSuite source experiment plan o) {}).1 = .ok suite →
        ∀ run ∈ suite.runs, ∀ file doc, (file, doc) ∈ run.configs →
          doc.data.isMapping = true := by
  intro hclaim
  have hrun : ((outcome (compileSuite Resolver.layeredSource "e" flatPlan {}) {}).1.toOption.any
      fun suite => suite.runs.any fun run => run.configs.any fun p => !p.2.data.isMapping) =
        true := by
    decide +kernel
  obtain ⟨suite, hsuite, hrun⟩ := ok_of_any hrun
  obtain ⟨run, hmem, hrun⟩ := List.any_eq_true.1 hrun
  obtain ⟨⟨file, doc⟩, hdoc, hshape⟩ := List.any_eq_true.1 hrun
  have hall := hclaim _ _ _ _ _ hsuite run hmem file doc hdoc
  simp only [hall] at hshape
  cases hshape

end ParamSweep
