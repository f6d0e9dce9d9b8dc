import Mathlib.Data.List.Find
import Mathlib.Logic.Relation
import ParamSweep.Proofs.RunFiles
import ParamSweep.Proofs.RunGrid

/-!
What a suite is made from.

Generation reads the plan, finds out what the experiment builds on, and reads the files of these
experiments; a plan may have a program render the documents, and that may read whatever it likes.
`SameConfiguration` says that two trees do not differ in any of this. Then what is prepared from them
is the same (`prepareSuite_unique`), however much they differ otherwise.
-/

namespace ParamSweep

namespace Resolver

variable {source source' : ConfigSource} {declared : Entries String} {experiment file : String}
  {links links' : List String}

/-! ### What an experiment builds on -/

/-- An experiment builds on another one by way of bases, or is the same. -/
def BuildsOn (source : ConfigSource) (declared : Entries String) : String → String → Prop :=
  Relation.ReflTransGen fun experiment base => nextBase source declared experiment = .ok (some base)

/-- A file that is looked for along the bases of an experiment: one of them has it, or it holds the
compiled parameters. -/
def LookedFor (source : ConfigSource) (declared : Entries String) (experiment file : String) :
    Prop :=
  file = criticalParameterFile ∨ ∃ link own, BuildsOn source declared experiment link ∧
    source.fileNames link = .ok own ∧ file ∈ own

/-- Two sources do not differ in anything that an experiment builds on. -/
structure Alike (source source' : ConfigSource) (declared : Entries String) (experiment : String) :
    Prop where
  base? : ∀ link, BuildsOn source declared experiment link → source'.base? link = source.base? link
  fileNames : ∀ link, BuildsOn source declared experiment link →
    source'.fileNames link = source.fileNames link
  load : ∀ link file, BuildsOn source declared experiment link →
    LookedFor source declared experiment file → source'.load link file = source.load link file

theorem buildsOn_of_chainFrom {steps : Nat} {seen : List String} {current : String}
    (h : chainFrom source declared steps seen current = .ok links) :
    ∀ link ∈ links, link ∈ seen ∨ BuildsOn source declared current link := by
  induction steps generalizing seen current with
  | zero => cases h
  | succ steps ih =>
    obtain ⟨next, hnext, h⟩ := except_bind_ok h
    rcases next with _ | base
    · cases h
      exact fun link hlink => .inl hlink
    · simp only at h
      split at h
      · cases h
      · split at h
        · cases h
        · intro link hlink
          rcases ih h link hlink with hseen | hbelow
          · rcases List.mem_append.1 hseen with hseen | hbase
            · exact .inl hseen
            · exact .inr (List.mem_singleton.1 hbase ▸ .single hnext)
          · exact .inr (.head hnext hbelow)

/-- All experiments of a chain are ones that the first of them builds on. -/
theorem buildsOn_of_chainOf (h : chainOf source declared experiment = .ok links) :
    ∀ link ∈ links, BuildsOn source declared experiment link := by
  rw [chainOf] at h
  split at h
  · intro link hlink
    rcases buildsOn_of_chainFrom h link hlink with hself | hbelow
    · exact List.mem_singleton.1 hself ▸ .refl
    · exact hbelow
  · cases h

/-! ### Chains and documents -/

theorem chainFrom_unique {steps steps' : Nat} {seen : List String} {current : String}
    (hbase : ∀ link, BuildsOn source declared current link →
      source'.base? link = source.base? link)
    (h : chainFrom source declared steps seen current = .ok links)
    (h' : chainFrom source' declared steps' seen current = .ok links') : links = links' := by
  induction steps generalizing steps' seen current with
  | zero => cases h
  | succ steps ih =>
    rcases steps' with _ | steps'
    · cases h'
    obtain ⟨next, hnext, h⟩ := except_bind_ok h
    obtain ⟨next', hnext', h'⟩ := except_bind_ok h'
    have hsame : nextBase source' declared current = nextBase source declared current := by
      rw [nextBase, nextBase, hbase current .refl]
    obtain rfl : next = next' := Except.ok.inj (hnext.symm.trans (hsame.symm.trans hnext'))
    rcases next with _ | base
    · cases h
      cases h'
      rfl
    · simp only at h h'
      split at h
      · cases h
      split at h'
      · cases h'
      split at h
      · cases h
      split at h'
      · cases h'
      exact ih (fun link hlink => hbase link (.head hnext hlink)) h h'

theorem chainOf_unique
    (hbase : ∀ link, BuildsOn source declared experiment link →
      source'.base? link = source.base? link)
    (h : chainOf source declared experiment = .ok links)
    (h' : chainOf source' declared experiment = .ok links') : links = links' := by
  rw [chainOf] at h h'
  split at h
  · split at h'
    · exact chainFrom_unique hbase h h'
    · cases h'
  · cases h

theorem layered_congr (h : ∀ link ∈ links, source'.load link file = source.load link file) :
    layered source' file links = layered source file links := by
  induction links with
  | nil => rfl
  | cons link rest ih =>
    obtain ⟨hlink, hrest⟩ := List.forall_mem_cons.1 h
    rw [layered_cons, layered_cons, ih hrest, layerOf, layerOf, hlink]

theorem fileNamesOf_congr (h : ∀ link ∈ links, source'.fileNames link = source.fileNames link) :
    fileNamesOf source' links = fileNamesOf source links := by
  induction links with
  | nil => rfl
  | cons link rest ih =>
    obtain ⟨hlink, hrest⟩ := List.forall_mem_cons.1 h
    rw [fileNamesOf, fileNamesOf, hlink, ih hrest]

theorem presentDocuments_congr {files : List String}
    (h : ∀ file ∈ files, presentDocument source' declared experiment file =
      presentDocument source declared experiment file) :
    presentDocuments source' declared experiment files =
      presentDocuments source declared experiment files := by
  induction files with
  | nil => rfl
  | cons file rest ih =>
    obtain ⟨hfile, hrest⟩ := List.forall_mem_cons.1 h
    rw [presentDocuments, presentDocuments, hfile, ih hrest]

namespace Alike

variable (h : Alike source source' declared experiment)

include h

/-- An experiment that builds on others does not differ in what these build on. -/
theorem base?_of_buildsOn {link : String} (hlink : BuildsOn source declared experiment link) :
    ∀ below, BuildsOn source declared link below → source'.base? below = source.base? below :=
  fun below hbelow => h.base? below (hlink.trans hbelow)

theorem layered (hlinks : ∀ link ∈ links, BuildsOn source declared experiment link)
    (hfile : LookedFor source declared experiment file) :
    Resolver.layered source' file links = Resolver.layered source file links :=
  layered_congr fun link hlink => h.load link file (hlinks link hlink) hfile

theorem documentOf {link : String} {doc doc' : Option Document}
    (hlink : BuildsOn source declared experiment link)
    (hfile : LookedFor source declared experiment file)
    (hdoc : Resolver.documentOf source declared link file = .ok doc)
    (hdoc' : Resolver.documentOf source' declared link file = .ok doc') : doc = doc' := by
  obtain ⟨links, hlinks, hdoc⟩ := except_bind_ok hdoc
  obtain ⟨links', hlinks', hdoc'⟩ := except_bind_ok hdoc'
  obtain rfl := chainOf_unique (h.base?_of_buildsOn hlink) hlinks hlinks'
  have hall : ∀ below ∈ links, BuildsOn source declared experiment below :=
    fun below hbelow => hlink.trans (buildsOn_of_chainOf hlinks below hbelow)
  rw [h.layered hall hfile] at hdoc'
  exact Except.ok.inj (hdoc.symm.trans hdoc')

theorem documentsOf {docs docs' : Entries Document}
    (hdocs : Resolver.documentsOf source declared experiment = .ok docs)
    (hdocs' : Resolver.documentsOf source' declared experiment = .ok docs') : docs = docs' := by
  obtain ⟨links, hlinks, hdocs⟩ := except_bind_ok hdocs
  obtain ⟨links', hlinks', hdocs'⟩ := except_bind_ok hdocs'
  obtain rfl := chainOf_unique h.base? hlinks hlinks'
  have hall := buildsOn_of_chainOf hlinks
  obtain ⟨names, hnames, hdocs⟩ := except_bind_ok hdocs
  rw [fileNamesOf_congr fun link hlink => h.fileNames link (hall link hlink), hnames,
    except_ok_bind, presentDocuments_congr, hdocs] at hdocs'
  · exact Except.ok.inj hdocs'
  · intro file hfile
    obtain ⟨link, hlink, own, hown, hmem⟩ := ((fileNamesOf_ok hnames).2 file).1 hfile
    have hlooked : LookedFor source declared experiment file :=
      .inr ⟨link, own, hall link hlink, hown, hmem⟩
    simp only [presentDocument, Resolver.documentOf, hlinks, hlinks', except_ok_bind,
      h.layered hall hlooked]

theorem lastOf {root root' : String} (hroot : Resolver.lastOf source declared experiment = .ok root)
    (hroot' : Resolver.lastOf source' declared experiment = .ok root') :
    root = root' ∧ BuildsOn source declared experiment root := by
  obtain ⟨links, hlinks, hroot⟩ := except_bind_ok hroot
  obtain ⟨links', hlinks', hroot'⟩ := except_bind_ok hroot'
  obtain rfl := chainOf_unique h.base? hlinks hlinks'
  cases hroot
  cases hroot'
  refine ⟨rfl, ?_⟩
  rcases hlast : links.getLast? with _ | root
  · exact .refl
  · exact buildsOn_of_chainOf hlinks root (List.mem_of_getLast? hlast)

end Alike

end Resolver

/-! ### Compiling without a memory -/

namespace Compile

open Resolver

variable {source source' : ConfigSource} {declared : Entries String} {experiment : String}
  {plan : Plan} {configs : Entries Document} {swept : List String} {o : CompileOptions}

/-- The decision whether to build, resolved without a memory. -/
def decisionOf (source : ConfigSource) (declared : Entries String) (experiment : String)
    (plan : Plan) (configs : Entries Document) (swept : List String) (o : CompileOptions) :
    Except Error RebuildDecision := do
  let root ← lastOf source declared experiment
  let base ← if root = experiment then .ok none
    else documentOf source declared root criticalParameterFile
  let suite := configs.find? criticalParameterFile
  let inputs : RebuildInputs := ⟨plan, base.map Document.data, suite.map Document.data, swept⟩
  return inputs.decide o.detectRebuild o.forceRebuild

/-- The groundwork of a suite, laid without a memory. -/
def groundworkOf (source : ConfigSource) (declared : Entries String) (experiment : String)
    (plan : Plan) (o : CompileOptions) : Except Error Groundwork := do
  let sweep ← (Sweep.ofSpecs plan.parameterSweeps).mapError Error.configuration
  let configs ← documentsOf source declared experiment
  checkOverlays plan configs
  let rebuild ← decisionOf source declared experiment plan configs sweep.names o
  return ⟨sweep, configs, rebuild⟩

theorem answers_rebuildDecision :
    Answers source (fun _ => declared) (rebuildDecision source experiment plan configs swept o)
      (decisionOf source declared experiment plan configs swept o) := by
  refine (answers_rootOf experiment).bind fun root => ?_
  by_cases hsame : root = experiment
  · simp only [if_pos hsame]
    exact answers_ofExcept (.ok _)
  · simp only [if_neg hsame]
    exact (answers_tryResolve root _).bind fun base => answers_ofExcept (.ok _)

theorem answer_groundwork (source : ConfigSource) (experiment : String) (plan : Plan)
    (o : CompileOptions) :
    (outcome (groundwork source experiment plan o) {}).1 =
      groundworkOf source (declareBase? experiment plan.baseExperiment {}).declared experiment plan
        o := by
  rw [groundwork, groundworkOf, outcome_bind, outcome_ofExcept]
  rcases (Sweep.ofSpecs plan.parameterSweeps).mapError Error.configuration with e | sweep
  · rfl
  · simp only [except_ok_bind]
    rw [outcome_bind, outcome_modify]
    refine Answers.answer ?_ (sound_declareBase? source [] experiment plan.baseExperiment)
    refine (answers_resolveAll experiment).bind fun configs => ?_
    refine (answers_ofExcept _).bind fun _ => ?_
    exact answers_rebuildDecision.bind fun rebuild => answers_ofExcept (.ok _)

theorem decisionOf_unique (h : Alike source source' declared experiment)
    {d d' : RebuildDecision}
    (hd : decisionOf source declared experiment plan configs swept o = .ok d)
    (hd' : decisionOf source' declared experiment plan configs swept o = .ok d') : d = d' := by
  obtain ⟨root, hroot, hd⟩ := except_bind_ok hd
  obtain ⟨root', hroot', hd'⟩ := except_bind_ok hd'
  obtain ⟨rfl, hbuilds⟩ := h.lastOf hroot hroot'
  simp only at hd hd'
  by_cases hsame : root = experiment
  · rw [if_pos hsame] at hd hd'
    cases hd
    cases hd'
    rfl
  · rw [if_neg hsame] at hd hd'
    obtain ⟨base, hbase, hd⟩ := except_bind_ok hd
    obtain ⟨base', hbase', hd'⟩ := except_bind_ok hd'
    obtain rfl := h.documentOf hbuilds (.inl rfl) hbase hbase'
    cases hd
    cases hd'
    rfl

theorem groundworkOf_unique (h : Alike source source' declared experiment) {g g' : Groundwork}
    (hg : groundworkOf source declared experiment plan o = .ok g)
    (hg' : groundworkOf source' declared experiment plan o = .ok g') : g = g' := by
  obtain ⟨sweep, hsweep, hg⟩ := except_bind_ok hg
  obtain ⟨sweep', hsweep', hg'⟩ := except_bind_ok hg'
  obtain rfl : sweep = sweep' := Except.ok.inj (hsweep.symm.trans hsweep')
  obtain ⟨configs, hconfigs, hg⟩ := except_bind_ok hg
  obtain ⟨configs', hconfigs', hg'⟩ := except_bind_ok hg'
  obtain rfl := h.documentsOf hconfigs hconfigs'
  obtain ⟨_, -, hg⟩ := except_bind_ok hg
  obtain ⟨_, -, hg'⟩ := except_bind_ok hg'
  obtain ⟨rebuild, hrebuild, hg⟩ := except_bind_ok hg
  obtain ⟨rebuild', hrebuild', hg'⟩ := except_bind_ok hg'
  obtain rfl := decisionOf_unique h hrebuild hrebuild'
  cases hg
  cases hg'
  rfl

end Compile

open Resolver in
/-- A plan is compiled to one suite from sources that do not differ for the experiment. -/
theorem compileSuite_unique {source source' : ConfigSource} {experiment : String} {plan : Plan}
    {o : CompileOptions} {suite suite' : CompiledSuite}
    (h : Alike source source' (declareBase? experiment plan.baseExperiment {}).declared experiment)
    (hs : (outcome (compileSuite source experiment plan o) {}).1 = .ok suite)
    (hs' : (outcome (compileSuite source' experiment plan o) {}).1 = .ok suite') :
    suite = suite' := by
  rw [Compile.outcome_compileSuite] at hs hs'
  obtain ⟨g, hg, hs⟩ := except_bind_ok hs
  obtain ⟨g', hg', hs'⟩ := except_bind_ok hs'
  rw [Compile.answer_groundwork] at hg hg'
  obtain rfl := Compile.groundworkOf_unique h hg hg'
  exact Except.ok.inj (hs.symm.trans hs')

/-! ### Two trees with one configuration -/

/-- Two trees do not differ in what the suite of an experiment is made from: in the plan, in the
experiments that it builds on, and in what the render program makes of a document. -/
structure SameConfiguration (programs : Programs) (l : Layout) (t t' : FileTree) : Prop where
  workingDir : t'.workingDir = t.workingDir
  plan : t'.readText l.planPath = t.readText l.planPath
  source : ∀ plan, Plan.load t l.planPath = .ok plan →
    Resolver.Alike (ConfigSource.ofTree t l.configRoot) (ConfigSource.ofTree t' l.configRoot)
      (Resolver.declareBase? l.experiment plan.baseExperiment {}).declared l.experiment
  program : ∀ plan program arguments, Plan.load t l.planPath = .ok plan →
    plan.renderCommand = some (program :: arguments) → ∀ input,
      programs t' { program := program, arguments := arguments, input := input } =
        programs t { program := program, arguments := arguments, input := input }

theorem Renderer.ofCommand?_congr {programs : Programs} {t t' : FileTree}
    {command : Option (List String)}
    (h : ∀ program arguments, command = some (program :: arguments) → ∀ input,
      programs t' { program := program, arguments := arguments, input := input } =
        programs t { program := program, arguments := arguments, input := input }) :
    ofCommand? programs t' command = ofCommand? programs t command := by
  rcases command with _ | _ | ⟨program, arguments⟩
  · rfl
  · rfl
  · have hrender : runProgram programs t' program arguments =
        runProgram programs t program arguments := by
      funext format data file
      rw [runProgram, runProgram, h program arguments rfl]
    rw [ofCommand?, ofCommand?, Renderer.command, Renderer.command, hrender]

/-- What is prepared from two trees with one configuration is the same. -/
theorem prepareSuite_unique {programs : Programs} {l : Layout} {o : CompileOptions}
    {t t' : FileTree} {p p' : PreparedSuite} (h : SameConfiguration programs l t t')
    (hp : prepareSuite programs t l o = .ok p) (hp' : prepareSuite programs t' l o = .ok p') :
    p = p' := by
  obtain ⟨⟨plan, suite⟩, hcompiled, hp⟩ := except_bind_ok hp
  obtain ⟨⟨plan', suite'⟩, hcompiled', hp'⟩ := except_bind_ok hp'
  obtain ⟨hplan, hsuite⟩ := compileExperiment_parts hcompiled
  obtain ⟨hplan', hsuite'⟩ := compileExperiment_parts hcompiled'
  have hload : Plan.load t' l.planPath = Plan.load t l.planPath := by
    rw [Plan.load, Plan.load, h.plan]
  obtain rfl : plan = plan' := Except.ok.inj (hplan.symm.trans (hload.symm.trans hplan'))
  obtain rfl := compileSuite_unique (h.source plan hplan) hsuite hsuite'
  simp only [Renderer.ofCommand?_congr fun program arguments =>
    h.program plan program arguments hplan] at hp'
  exact Except.ok.inj (hp.symm.trans hp')

/-! ### Trees with one configuration directory -/

namespace Path

/-- A path that never leads up from the directory that it is seen from. -/
def Downward (path : String) : Prop := isAbsolute path = false ∧ ".." ∉ parts path

instance (path : String) : Decidable (Downward path) := inferInstanceAs (Decidable (_ ∧ _))

theorem IsName.downward {name : String} (h : IsName name) : Downward name := by
  refine ⟨h.isAbsolute, ?_⟩
  rw [h.parts, List.mem_singleton]
  exact Ne.symm h.2.2.2.1

end Path

namespace FileTree

variable {t t' : FileTree} {root path name : String}

/-- A path that starts as another one does and goes on without leading up. -/
def GoesOn (t : FileTree) (root path : String) : Prop :=
  t.start path = t.start root ∧ ∃ names, Path.parts path = Path.parts root ++ names ∧ ".." ∉ names

theorem goesOn_refl (t : FileTree) (root : String) : t.GoesOn root root :=
  ⟨rfl, [], (List.append_nil _).symm, List.not_mem_nil⟩

theorem GoesOn.join (h : t.GoesOn root path) (hname : Path.Downward name) :
    t.GoesOn root (Path.join path name) := by
  obtain ⟨hstart, names, hparts, hup⟩ := h
  refine ⟨(t.start_join path hname.1).trans hstart, names ++ Path.parts name, ?_, ?_⟩
  · rw [Path.parts_join path hname.1, hparts, List.append_assoc]
  · rw [List.mem_append, not_or]
    exact ⟨hup, hname.2⟩

theorem follow_append (t : FileTree) (here front behind : List String) :
    t.follow here (front ++ behind) = (do t.follow (← t.follow here front) behind) := by
  induction front generalizing here with
  | nil => rfl
  | cons part rest ih =>
    rw [List.cons_append, follow, follow]
    split
    · split
      · exact ih _
      · split
        · exact ih _
        · split
          · rfl
          · exact ih _
    · rfl
    · rfl

/-- Names that do not lead up are followed alike where two trees hold the same. -/
theorem follow_congr {here names : List String}
    (h : ∀ more, t'.nodeAt? (here ++ more) = t.nodeAt? (here ++ more)) (hup : ".." ∉ names) :
    t'.follow here names = t.follow here names := by
  induction names generalizing here with
  | nil => rfl
  | cons part rest ih =>
    obtain ⟨hpart, hrest⟩ := List.ne_and_not_mem_of_not_mem_cons hup
    have hhere : t'.nodeAt? here = t.nodeAt? here := by simpa using h []
    have hdown : t'.follow (here ++ [part]) rest = t.follow (here ++ [part]) rest :=
      ih (fun more => by simpa using h (part :: more)) hrest
    rw [follow, follow, hhere, ih h hrest, hdown]
    simp only [if_neg (Ne.symm hpart)]

/-- A path that goes on from one that leads to the same node leads to the same node. -/
theorem node_congr (hwork : t'.workingDir = t.workingDir) (hreach : t.Reaches root)
    (hreach' : t'.Reaches root) (hnode : t'.nodeAt? (t.place root) = t.nodeAt? (t.place root))
    (hpath : t.GoesOn root path) : t'.node path = t.node path := by
  obtain ⟨hstart, names, hparts, hup⟩ := hpath
  have hbelow : ∀ more, t'.nodeAt? (t.place root ++ more) = t.nodeAt? (t.place root ++ more) := by
    intro more
    rw [nodeAt?, nodeAt?, Node.nodeAt?_append, Node.nodeAt?_append]
    exact congrArg (·.bind (Node.nodeAt? more)) hnode
  have hfollow : t.follow (t.start root) (Path.parts root) = .ok (t.place root) :=
    follow_eq_ok_iff.2 ⟨hreach.passable, rfl⟩
  have hfollow' : t'.follow (t.start root) (Path.parts root) = .ok (t.place root) := by
    have hpass := hreach'.passable
    rw [start, hwork] at hpass
    exact follow_eq_ok_iff.2 ⟨hpass, rfl⟩
  have hstart' : t'.start path = t.start root := by
    rw [← hstart, start, start, hwork]
  have hresolve : t'.resolve path = t.resolve path := by
    rw [resolve, resolve, hstart, hstart', hparts, List.append_assoc, follow_append, follow_append,
      hfollow, hfollow', except_ok_bind, except_ok_bind, follow_congr hbelow]
    split <;> simp [hup]
  rw [node, node, hresolve]
  rcases hfound : t.resolve path with fault | found
  · rfl
  · obtain ⟨-, rfl⟩ := resolve_eq_ok_iff.1 hfound
    have hplace : t.place path = Path.walk (t.place root) names := by
      rw [FileTree.place, hstart, hparts, Path.walk_append]
      rfl
    obtain ⟨more, hmore⟩ := Path.prefix_walk hup (t.place root)
    rw [except_ok_bind, except_ok_bind, hplace, ← hmore, hbelow]

theorem readText_congr (h : t'.node path = t.node path) : t'.readText path = t.readText path := by
  rw [readText, readText, readBytes, readBytes, h]

theorem readYaml_congr (h : t'.node path = t.node path) : t'.readYaml path = t.readYaml path := by
  rw [readYaml, readYaml, readText_congr h]

theorem isFile_congr (h : t'.node path = t.node path) : t'.isFile path = t.isFile path := by
  rw [isFile, isFile, h]

end FileTree

namespace ConfigSource

variable {t t' : FileTree} {root experiment file : String}

theorem baseIn_congr (h : ∀ name ∈ metadataFiles,
      t'.node (Path.join (Path.join root experiment) name) =
        t.node (Path.join (Path.join root experiment) name)) :
    baseIn t' root experiment = baseIn t root experiment := by
  have hfind : (metadataFiles.find? fun name =>
        t'.isFile (Path.join (Path.join root experiment) name)) =
      metadataFiles.find? fun name => t.isFile (Path.join (Path.join root experiment) name) := by
    refine List.find?_congr fun name hname => ?_
    rw [FileTree.isFile_congr (h name hname)]
  rw [baseIn, baseIn, hfind]
  split
  · rfl
  next name hname => simp only [FileTree.readYaml_congr (h name (List.mem_of_find?_eq_some hname))]

theorem fileNamesIn_congr
    (h : t'.node (inputsIn root experiment) = t.node (inputsIn root experiment)) :
    fileNamesIn t' root experiment = fileNamesIn t root experiment := by
  rw [fileNamesIn, fileNamesIn, FileTree.list, FileTree.list, h]

theorem loadIn_congr (h : t'.node (Path.join (inputsIn root experiment) file) =
      t.node (Path.join (inputsIn root experiment) file)) :
    loadIn t' root experiment file = loadIn t root experiment file := by
  rw [loadIn, loadIn, FileTree.isFile_congr h, FileTree.readYaml_congr h]

end ConfigSource

section

variable {t t' : FileTree} {declared : Entries String} {experiment : String} {l : Layout}
  {programs : Programs}

open Resolver in
/-- Trees with the same configuration directory do not differ for an experiment, as long as neither
it nor anything that it builds on lies outside of that directory. -/
theorem alike_of_node {root : String} (hwell : t.WellFormed)
    (hnode : ∀ path, t.GoesOn root path → t'.node path = t.node path)
    (hdown : ∀ link, BuildsOn (ConfigSource.ofTree t root) declared experiment link →
      Path.Downward link) :
    Alike (ConfigSource.ofTree t root) (ConfigSource.ofTree t' root) declared experiment := by
  have hbelow : ∀ link, BuildsOn (ConfigSource.ofTree t root) declared experiment link →
      t.GoesOn root (Path.join root link) :=
    fun link hlink => (t.goesOn_refl root).join (hdown link hlink)
  have hinputs : ∀ link, BuildsOn (ConfigSource.ofTree t root) declared experiment link →
      t.GoesOn root (ConfigSource.inputsIn root link) :=
    fun link hlink => (hbelow link hlink).join (by decide +kernel)
  have hmetadata : ∀ name ∈ metadataFiles, Path.Downward name := by decide +kernel
  refine ⟨fun link hlink => ConfigSource.baseIn_congr fun name hname => ?_,
    fun link hlink => ConfigSource.fileNamesIn_congr (hnode _ (hinputs link hlink)),
    fun link file hlink hfile => ConfigSource.loadIn_congr (hnode _ ((hinputs link hlink).join ?_))⟩
  · exact hnode _ ((hbelow link hlink).join (hmetadata name hname))
  · rcases hfile with rfl | ⟨other, own, -, hown, hmem⟩
    · decide +kernel
    · exact (isName_of_fileNames hwell hown hmem).downward

open Resolver in
/-- So trees with the same configuration directory have one configuration for a plan that names no
render program. -/
theorem sameConfiguration_of_configRoot (hwell : t.WellFormed)
    (hwork : t'.workingDir = t.workingDir) (hreach : t.Reaches l.configRoot)
    (hreach' : t'.Reaches l.configRoot)
    (hnode : t'.nodeAt? (t.place l.configRoot) = t.nodeAt? (t.place l.configRoot))
    (hexperiment : Path.Downward l.experiment)
    (hplan : ∀ plan, Plan.load t l.planPath = .ok plan → plan.renderCommand = none ∧
      ∀ link, BuildsOn (ConfigSource.ofTree t l.configRoot)
        (declareBase? l.experiment plan.baseExperiment {}).declared l.experiment link →
          Path.Downward link) : SameConfiguration programs l t t' := by
  have hnodes : ∀ path, t.GoesOn l.configRoot path → t'.node path = t.node path :=
    fun path hpath => FileTree.node_congr hwork hreach hreach' hnode hpath
  refine ⟨hwork, FileTree.readText_congr (hnodes _ ?_), fun plan hload => ?_,
    fun plan program arguments hload hrender => ?_⟩
  · exact (((t.goesOn_refl l.configRoot).join hexperiment).join (by decide +kernel)).join
      (by decide +kernel)
  · exact alike_of_node hwell hnodes (hplan plan hload).2
  · rw [(hplan plan hload).1] at hrender
    cases hrender

end

end ParamSweep
