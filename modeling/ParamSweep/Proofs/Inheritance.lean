import ParamSweep.Proofs.Resolution
import ParamSweep.Proofs.Tables

/-!
What an experiment has from its base.

A resolver walks the bases once and lays the layers down from the last one up. Read from the other
end this is a recursion: the chain of an experiment is the experiment and the chain of its base, and
a document is that of the base with the experiment's own layer on top (`resolved_of_chain`).

The walk refuses an experiment that it has seen, and it has seen less when it starts further down.
So the base has a chain whenever the experiment has one (`chainFrom_ok`).
-/

namespace ParamSweep.Resolver

variable {source : ConfigSource} {declared : Entries String} {experiment file : String}
  {links : List String}

/-! ### Chains -/

/-- A walk takes the same way after fewer experiments have been seen and with more steps to go. -/
theorem chainFrom_ok : ∀ {steps : Nat} {seen : List String} {current : String},
    chainFrom source declared steps seen current = .ok links →
      ∃ rest, links = seen ++ rest ∧ ∀ {seen' : List String} {steps' : Nat}, seen' ⊆ seen →
        steps ≤ steps' → chainFrom source declared steps' seen' current = .ok (seen' ++ rest)
  | 0, _, _, h => by cases h
  | steps + 1, seen, current, h => by
    obtain ⟨next, hnext, h⟩ := except_bind_ok h
    rcases next with _ | base
    · cases h
      refine ⟨[], by simp, fun {seen' steps'} _ hsteps => ?_⟩
      obtain ⟨k, rfl⟩ : ∃ k, steps' = k + 1 := ⟨steps' - 1, by omega⟩
      rw [chainFrom, hnext, List.append_nil]
      rfl
    · simp only at h
      split at h
      · cases h
      next hnew =>
        split at h
        · cases h
        next hthere =>
          obtain ⟨rest, rfl, hrest⟩ := chainFrom_ok h
          refine ⟨base :: rest, by simp, fun {seen' steps'} hseen hsteps => ?_⟩
          obtain ⟨k, rfl⟩ : ∃ k, steps' = k + 1 := ⟨steps' - 1, by omega⟩
          have hnew' : seen'.contains base = false := by
            simp only [List.contains_eq_mem, decide_eq_true_eq] at hnew
            simpa using fun hmem => hnew (hseen hmem)
          have hseen' : seen' ++ [base] ⊆ seen ++ [base] := List.append_subset.2
            ⟨List.Subset.trans hseen (List.subset_append_left _ _), List.subset_append_right _ _⟩
          have hgoes := hrest hseen' (Nat.le_of_succ_le_succ hsteps)
          rw [chainFrom, hnext, except_ok_bind]
          simp only
          rw [hnew', if_neg (by simp), if_neg hthere, hgoes, List.append_assoc,
            List.singleton_append]

/-- The chain of an experiment with a base goes on as the chain of that base. -/
theorem chainOf_of_base {base : String} (h : chainOf source declared experiment = .ok links)
    (hbase : nextBase source declared experiment = .ok (some base)) :
    ∃ rest, chainOf source declared base = .ok rest ∧ links = experiment :: rest := by
  rw [chainOf] at h
  split at h
  · rw [chainFrom, hbase, except_ok_bind] at h
    simp only at h
    split at h
    · cases h
    · split at h
      · cases h
      next hthere =>
        obtain ⟨rest, rfl, hrest⟩ := chainFrom_ok h
        refine ⟨base :: rest, ?_, rfl⟩
        rw [chainOf, if_pos (by simpa using hthere)]
        exact hrest (by simp) (Nat.le_succ _)
  · cases h

/-- The chain of an experiment without a base is the experiment. -/
theorem chainOf_of_root (h : chainOf source declared experiment = .ok links)
    (hbase : nextBase source declared experiment = .ok none) : links = [experiment] := by
  rw [chainOf] at h
  split at h
  · rw [chainFrom, hbase] at h
    cases h
    rfl
  · cases h

/-! ### Documents -/

/-- A layer laid over what is below it, where either may be missing. -/
def laidOver : Option Document → Option Document → Except Error (Option Document)
  | none, layer => .ok layer
  | below, none => .ok below
  | some below, some layer => (below.overlay layer).map some

theorem layered_cons (file experiment : String) (rest : List String) :
    layered source file (experiment :: rest) = (do
      let below ← layered source file rest
      let layer ← layerOf source file experiment
      laidOver below layer) := by
  rw [layered]
  rcases layered source file rest with e | below
  · rfl
  · rcases layerOf source file experiment with e | layer
    · rfl
    · cases below <;> cases layer <;> rfl

theorem documentOf_of_base {base : String} (h : chainOf source declared experiment = .ok links)
    (hbase : nextBase source declared experiment = .ok (some base)) :
    documentOf source declared experiment file = (do
      let below ← documentOf source declared base file
      let layer ← layerOf source file experiment
      laidOver below layer) := by
  obtain ⟨rest, hrest, rfl⟩ := chainOf_of_base h hbase
  rw [documentOf, documentOf, h, hrest, except_ok_bind, except_ok_bind, layered_cons]

theorem documentOf_of_root (h : chainOf source declared experiment = .ok links)
    (hbase : nextBase source declared experiment = .ok none) :
    documentOf source declared experiment file = layerOf source file experiment := by
  rw [documentOf, h, except_ok_bind, chainOf_of_root h hbase, layered_cons]
  simp only [layered, except_ok_bind]
  rcases layerOf source file experiment with e | layer <;> rfl

theorem layerOf_eq_none_iff :
    layerOf source file experiment = .ok none ↔ source.load experiment file = .ok none := by
  rw [layerOf]
  rcases source.load experiment file with e | _ | v
  · simp
  · simp
  · simp only [except_ok_bind]
    rcases Document.ofValue file v with cause | doc <;> exact iff_of_false nofun nofun

theorem laidOver_eq_none_iff {below layer : Option Document} :
    laidOver below layer = .ok none ↔ below = none ∧ layer = none := by
  rcases below with _ | below
  · simp [laidOver]
  · rcases layer with _ | layer
    · simp [laidOver]
    · rw [laidOver]
      rcases below.overlay layer with e | doc <;> simp [Except.map]

/-- A file has no document exactly if none of the experiments has it. -/
theorem layered_eq_none_iff :
    layered source file links = .ok none ↔ ∀ link ∈ links, source.load link file = .ok none := by
  induction links with
  | nil => simp [layered]
  | cons link rest ih =>
    rw [layered_cons, List.forall_mem_cons, ← ih, ← layerOf_eq_none_iff]
    constructor
    · intro h
      obtain ⟨below, hbelow, h⟩ := except_bind_ok h
      obtain ⟨layer, hlayer, h⟩ := except_bind_ok h
      obtain ⟨rfl, rfl⟩ := laidOver_eq_none_iff.1 h
      exact ⟨hlayer, hbelow⟩
    · rintro ⟨hlayer, hbelow⟩
      rw [hbelow, except_ok_bind, hlayer, except_ok_bind]
      rfl

/-- What holds of each layer of a file, and still holds when one is laid over another, holds of the
document. -/
theorem layered_holds {P : Document → Prop}
    (hlayer : ∀ link doc, layerOf source file link = .ok (some doc) → P doc)
    (hlaid : ∀ below layer doc, P below → P layer → below.overlay layer = .ok doc → P doc) :
    ∀ {links : List String} {doc : Document}, layered source file links = .ok (some doc) → P doc
  | [], _, h => by cases h
  | link :: rest, doc, h => by
    rw [layered_cons] at h
    obtain ⟨below, hbelow, h⟩ := except_bind_ok h
    obtain ⟨layer, hown, h⟩ := except_bind_ok h
    cases below with
    | none =>
      cases h
      exact hlayer link doc hown
    | some below =>
      have hrest := layered_holds hlayer hlaid hbelow
      cases layer with
      | none =>
        cases h
        exact hrest
      | some layer =>
        obtain ⟨laid, hdone, h⟩ := except_map_ok h
        cases h
        exact hlaid below layer doc hrest (hlayer link layer hown) hdone

/-- The format that an experiment itself declares for a file. -/
def ownFormat (source : ConfigSource) (file experiment : String) : Option String :=
  match layerOf source file experiment with
  | .ok (some layer) => layer.format
  | _ => none

theorem format_of_laidOver {below layer doc : Option Document}
    (h : laidOver below layer = .ok doc) :
    doc.bind Document.format = (layer.bind Document.format).or (below.bind Document.format) := by
  rcases below with _ | below
  · cases h
    simp
  · rcases layer with _ | layer
    · cases h
      simp
    · obtain ⟨laid, hlaid, rfl⟩ := except_map_ok h
      obtain ⟨data, -, hlaid⟩ := except_bind_ok hlaid
      cases hlaid
      exact Option.orElse_eq_or

/-- The format is the one that the first experiment to declare one declares. -/
theorem format_of_layered : ∀ {links : List String} {doc : Option Document},
    layered source file links = .ok doc →
      doc.bind Document.format = links.findSome? (ownFormat source file)
  | [], _, h => by
    cases h
    rfl
  | link :: rest, doc, h => by
    rw [layered_cons] at h
    obtain ⟨below, hbelow, h⟩ := except_bind_ok h
    obtain ⟨layer, hlayer, h⟩ := except_bind_ok h
    have hown : ownFormat source file link = layer.bind Document.format := by
      rw [ownFormat, hlayer]
      cases layer <;> rfl
    rw [format_of_laidOver h, List.findSome?_cons, hown, format_of_layered hbelow]
    cases layer.bind Document.format <;> rfl

/-! ### All documents -/

theorem mem_keys_addNames {names : List String} {t : Entries Unit} :
    file ∈ (names.foldl (fun t name => t.insert name ()) t).keys ↔
      file ∈ names ∨ file ∈ t.keys := by
  induction names generalizing t with
  | nil => simp
  | cons name rest ih =>
    rw [List.foldl_cons, ih, Entries.mem_keys_insert, List.mem_cons, or_assoc, or_left_comm]

theorem ascending_addNames {names : List String} {t : Entries Unit} (h : t.Ascending) :
    (names.foldl (fun t name => t.insert name ()) t).Ascending := by
  induction names generalizing t with
  | nil => exact h
  | cons name rest ih => exact ih h.insert

/-- The names of the files of a chain, each of them once. -/
theorem fileNamesOf_ok : ∀ {links : List String} {names : Entries Unit},
    fileNamesOf source links = .ok names →
      names.Ascending ∧ ∀ file, file ∈ names.keys ↔
        ∃ link ∈ links, ∃ own, source.fileNames link = .ok own ∧ file ∈ own
  | [], _, h => by
    cases h
    exact ⟨Entries.ascending_nil, by simp [Entries.keys]⟩
  | link :: rest, names, h => by
    obtain ⟨own, hown, h⟩ := except_bind_ok h
    obtain ⟨others, hothers, h⟩ := except_bind_ok h
    cases h
    obtain ⟨hascending, hmem⟩ := fileNamesOf_ok hothers
    refine ⟨ascending_addNames hascending, fun file => ?_⟩
    rw [mem_keys_addNames, hmem]
    simp [hown]

/-- The documents are those of the files, in their order. -/
theorem presentDocuments_ok : ∀ {files : List String} {docs : Entries Document},
    presentDocuments source declared experiment files = .ok docs →
      docs.keys = files ∧ ∀ file doc, docs.find? file = some doc →
        presentDocument source declared experiment file = .ok doc
  | [], _, h => by
    cases h
    exact ⟨rfl, nofun⟩
  | file :: rest, docs, h => by
    obtain ⟨doc, hdoc, h⟩ := except_bind_ok h
    obtain ⟨others, hothers, h⟩ := except_bind_ok h
    cases h
    obtain ⟨hkeys, hfound⟩ := presentDocuments_ok hothers
    refine ⟨congrArg (file :: ·) hkeys, fun other found hlookup => ?_⟩
    rw [Entries.find?] at hlookup
    split at hlookup
    next hsame =>
      cases hlookup
      exact hsame ▸ hdoc
    · exact hfound other found hlookup

/-- What is answered about an experiment whose chain resolves, put together from what is answered
about its base.

The chain is the experiment and the chain of its base. The document of a file is that of the base
with the experiment's own layer laid over it; so it is missing exactly if no experiment of the chain
has the file, and has the format of the first one that declares a format. All documents together are
those of the files of the chain. -/
theorem resolved_of_chain (h : afresh declared (chain source experiment) = .ok links) :
    (∀ base, nextBase source declared experiment = .ok (some base) →
      ∃ rest, afresh declared (chain source base) = .ok rest ∧ links = experiment :: rest ∧
        ∀ file, afresh declared (tryResolve source experiment file) = (do
          let below ← afresh declared (tryResolve source base file)
          let layer ← layerOf source file experiment
          laidOver below layer)) ∧
    (nextBase source declared experiment = .ok none →
      links = [experiment] ∧ ∀ file,
        afresh declared (tryResolve source experiment file) = layerOf source file experiment) ∧
    (∀ file, afresh declared (tryResolve source experiment file) = .ok none ↔
      ∀ link ∈ links, source.load link file = .ok none) ∧
    (∀ file doc, afresh declared (tryResolve source experiment file) = .ok (some doc) →
      doc.format = links.findSome? (ownFormat source file)) ∧
    ∀ docs, afresh declared (resolveAll source experiment) = .ok docs →
      docs.Ascending ∧
      (∀ file, file ∈ docs.keys ↔
        ∃ link ∈ links, ∃ own, source.fileNames link = .ok own ∧ file ∈ own) ∧
      ∀ file doc, docs.find? file = some doc →
        afresh declared (resolve source experiment file) = .ok doc := by
  simp only [(answers_chain _).afresh, (answers_tryResolve _ _).afresh,
    (answers_resolve _ _).afresh, (answers_resolveAll _).afresh] at h ⊢
  have hdocument : ∀ file, documentOf source declared experiment file = layered source file links :=
    fun file => by rw [documentOf, h, except_ok_bind]
  refine ⟨fun base hbase => ?base, fun hroot => ?root, fun file => ?missing,
    fun file doc hdoc => ?format, fun docs hdocs => ?all⟩
  case base =>
    obtain ⟨rest, hrest, rfl⟩ := chainOf_of_base h hbase
    exact ⟨rest, hrest, rfl, fun file => documentOf_of_base h hbase⟩
  case root => exact ⟨chainOf_of_root h hroot, fun file => documentOf_of_root h hroot⟩
  case missing => rw [hdocument, layered_eq_none_iff]
  case format =>
    rw [hdocument] at hdoc
    exact format_of_layered hdoc
  case all =>
    rw [documentsOf, h, except_ok_bind] at hdocs
    obtain ⟨names, hnames, hdocs⟩ := except_bind_ok hdocs
    obtain ⟨hascending, hmem⟩ := fileNamesOf_ok hnames
    obtain ⟨hkeys, hfound⟩ := presentDocuments_ok hdocs
    refine ⟨?_, fun file => by rw [hkeys, hmem], hfound⟩
    rw [Entries.Ascending, hkeys]
    exact hascending

/-- Two experiments with a file `run.yaml` each; only that of `b` says which format it has. -/
def layeredSource : ConfigSource :=
  ConfigSource.ofTree
    { entries :=
        [("config", .dir
          [("b", .dir [("in", .dir
            [("run.yaml", .file "format: f\ndata:\n  a: 1\n".toUTF8 false)])]),
           ("e", .dir [("in", .dir [("run.yaml", .file "a: 2\n".toUTF8 false)])])])] }
    "config"

/-- With `b` declared as its base, `e` has a document in the format of `b`. -/
theorem format_of_declared_base :
    afresh [("e", "b")] (chain layeredSource "e") = .ok ["e", "b"] ∧
      afresh [("e", "b")] (chain layeredSource "b") = .ok ["b"] ∧
      ∃ doc, afresh [("e", "b")] (tryResolve layeredSource "e" "run.yaml") = .ok (some doc) ∧
        doc.format = some "f" := by
  have hrun : (afresh [("e", "b")] (chain layeredSource "e")).toOption = some ["e", "b"] ∧
      (afresh [("e", "b")] (tryResolve layeredSource "e" "run.yaml")).toOption.join.isSome ∧
      ["e", "b"].findSome? (ownFormat layeredSource "run.yaml") = some "f" := by
    decide +kernel
  obtain ⟨hchain, hfound, hformat⟩ := hrun
  have hchain := eq_ok_of_toOption hchain
  obtain ⟨doc, hdoc⟩ := Option.isSome_iff_exists.1 hfound
  have hdoc := eq_ok_of_toOption (Option.join_eq_some_iff.1 hdoc)
  obtain ⟨hbase, -, -, hformats, -⟩ := resolved_of_chain hchain
  obtain ⟨rest, hrest, hlinks, -⟩ := hbase "b" rfl
  cases hlinks
  exact ⟨hchain, hrest, doc, hdoc, (hformats "run.yaml" doc hdoc).trans hformat⟩

end ParamSweep.Resolver
