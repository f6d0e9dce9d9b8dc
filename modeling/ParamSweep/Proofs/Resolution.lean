import ParamSweep.Proofs.Outcome
import ParamSweep.Config.Resolver

/-!
Resolving with a memory and without one.

`documentOf` and `documentsOf` resolve from the source alone. A resolver remembers chains and
documents, and `Sound` says that it remembers them as they are. Then every operation answers what is
computed without a memory, failures included, and the resolver stays sound (`Answers`).

Bases can be declared at any time, but a chain that is remembered does not follow them. So the bases
that count are a matter of the experiment, and of its chain in particular.
-/

namespace ParamSweep.Resolver

variable {source : ConfigSource} {declared : Entries String} {bases : String → Entries String}
  {α β : Type}

/-! ### Resolving without a memory -/

/-- The document of a file along the chain of an experiment. -/
def documentOf (source : ConfigSource) (declared : Entries String) (experiment file : String) :
    Except Error (Option Document) := do
  layered source file (← chainOf source declared experiment)

/-- The document of a file that some experiment of the chain must have. -/
def presentDocument (source : ConfigSource) (declared : Entries String)
    (experiment file : String) : Except Error Document := do
  match ← documentOf source declared experiment file with
  | some doc => return doc
  | none =>
    let chain ← chainOf source declared experiment
    throw (.configuration (.documentNotFound file chain))

/-- The documents of a list of such files. -/
def presentDocuments (source : ConfigSource) (declared : Entries String) (experiment : String) :
    List String → Except Error (Entries Document)
  | [] => return []
  | file :: rest => do
    let doc ← presentDocument source declared experiment file
    let docs ← presentDocuments source declared experiment rest
    return (file, doc) :: docs

/-- The documents of all files that an experiment of the chain has. -/
def documentsOf (source : ConfigSource) (declared : Entries String) (experiment : String) :
    Except Error (Entries Document) := do
  let chain ← chainOf source declared experiment
  let names ← fileNamesOf source chain
  presentDocuments source declared experiment names.keys

/-- The root of an experiment's chain. -/
def lastOf (source : ConfigSource) (declared : Entries String) (experiment : String) :
    Except Error String := do
  return ((← chainOf source declared experiment).getLast?).getD experiment

/-! ### Resolving with one -/

/-- A resolver remembers what would be found again with the bases of each experiment. Those of an
experiment whose chain is not remembered are the declared ones. -/
structure Sound (source : ConfigSource) (bases : String → Entries String) (r : Resolver) :
    Prop where
  declared : ∀ {experiment}, r.chains.lookup experiment = none → bases experiment = r.declared
  chain : ∀ {experiment chain}, r.chains.lookup experiment = some chain →
    chainOf source (bases experiment) experiment = .ok chain
  document : ∀ {experiment file doc}, r.documents.lookup (experiment, file) = some doc →
    documentOf source (bases experiment) experiment file = .ok doc
  known : ∀ {experiment file doc}, r.documents.lookup (experiment, file) = some doc →
    ∃ chain, r.chains.lookup experiment = some chain

/-- A sound resolver answers this, and stays sound. -/
structure Answers (source : ConfigSource) (bases : String → Entries String) (x : Resolving α)
    (answer : Except Error α) : Prop where
  answer : ∀ {r}, Sound source bases r → (outcome x r).1 = answer
  sound : ∀ {r}, Sound source bases r → Sound source bases (outcome x r).2

theorem sound_fresh (source : ConfigSource) (declared : Entries String) :
    Sound source (fun _ => declared) { declared := declared } :=
  ⟨fun _ => rfl, nofun, nofun, nofun⟩

theorem sound_declareBase? (source : ConfigSource) (bases : Entries String) (experiment : String)
    (base : Option String) :
    Sound source (fun _ => (declareBase? experiment base { declared := bases }).declared)
      (declareBase? experiment base { declared := bases }) := by
  cases base with
  | none => exact sound_fresh source bases
  | some base => exact sound_fresh source (bases.insert experiment base)

/-- What an operation answers with these bases declared and nothing remembered. -/
def afresh (declared : Entries String) (x : Resolving α) : Except Error α :=
  (outcome x { declared := declared }).1

theorem Answers.afresh {x : Resolving α} {answer : Except Error α}
    (h : Answers source (fun _ => declared) x answer) : afresh declared x = answer :=
  h.answer (sound_fresh source declared)

/-- What has come of an operation is its answer, and it has left the resolver sound. -/
theorem Answers.of_outcome {x : Resolving α} {answer a : Except Error α} {r r' : Resolver}
    (h : Answers source bases x answer) (hr : Sound source bases r) (hx : outcome x r = (a, r')) :
    answer = a ∧ Sound source bases r' := by
  have hanswer := h.answer hr
  have hsound := h.sound hr
  rw [hx] at hanswer hsound
  exact ⟨hanswer.symm, hsound⟩

@[simp] theorem outcome_ofExcept (answer : Except Error α) (r : Resolver) :
    outcome (ofExcept answer) r = (answer, r) := rfl

theorem answers_ofExcept (answer : Except Error α) :
    Answers source bases (ofExcept answer) answer :=
  ⟨fun _ => rfl, fun h => h⟩

theorem Answers.bind {x : Resolving α} {f : α → Resolving β} {a : Except Error α}
    {g : α → Except Error β} (hx : Answers source bases x a)
    (hf : ∀ v, Answers source bases (f v) (g v)) :
    Answers source bases (x >>= f) (a >>= g) := by
  constructor
  · intro r hr
    have hanswer := hx.answer hr
    have hsound := hx.sound hr
    rw [outcome_bind]
    rcases h : outcome x r with ⟨e | v, r'⟩ <;> rw [h] at hanswer hsound <;> subst hanswer
    · rfl
    · exact (hf v).answer hsound
  · intro r hr
    have hsound := hx.sound hr
    rw [outcome_bind]
    rcases h : outcome x r with ⟨e | v, r'⟩ <;> rw [h] at hsound
    · exact hsound
    · exact (hf v).sound hsound

/-- A look-up in a memory to which an entry has been added. -/
theorem lookup_remember {κ : Type} [BEq κ] [LawfulBEq κ] [DecidableEq κ] (memory : List (κ × α))
    (key other : κ) (value : α) :
    ((key, value) :: memory).lookup other =
      if other = key then some value else memory.lookup other := by
  by_cases hsame : other = key
  · rw [List.lookup_cons, if_pos hsame, beq_iff_eq.2 hsame]
  · rw [List.lookup_cons, if_neg hsame, beq_eq_false_iff_ne.2 hsame]

theorem Sound.rememberChain {r : Resolver} (h : Sound source bases r) {experiment : String}
    {chain : List String} (hchain : chainOf source (bases experiment) experiment = .ok chain) :
    Sound source bases { r with chains := (experiment, chain) :: r.chains } := by
  refine ⟨fun {other} hlookup => ?_, fun {other found} hlookup => ?_, h.document,
    fun {other file doc} hlookup => ?_⟩
  · rw [lookup_remember] at hlookup
    split at hlookup
    · cases hlookup
    · exact h.declared hlookup
  · rw [lookup_remember] at hlookup
    split at hlookup
    next hsame =>
      cases hlookup
      exact hsame ▸ hchain
    · exact h.chain hlookup
  · obtain ⟨found, hfound⟩ := h.known hlookup
    rw [lookup_remember]
    split
    · exact ⟨_, rfl⟩
    · exact ⟨found, hfound⟩

theorem Sound.rememberDocument {r : Resolver} (h : Sound source bases r)
    {experiment file : String} {doc : Option Document} {chain : List String}
    (hchain : r.chains.lookup experiment = some chain)
    (hdoc : documentOf source (bases experiment) experiment file = .ok doc) :
    Sound source bases { r with documents := ((experiment, file), doc) :: r.documents } := by
  refine ⟨h.declared, h.chain, fun {other name found} hlookup => ?_,
    fun {other name found} hlookup => ?_⟩ <;> rw [lookup_remember] at hlookup
  · split at hlookup
    next hsame =>
      cases hsame
      cases hlookup
      exact hdoc
    · exact h.document hlookup
  · split at hlookup
    next hsame =>
      cases hsame
      exact ⟨chain, hchain⟩
    · exact h.known hlookup

/-- A chain is looked for until it is found. -/
theorem outcome_chain (experiment : String) (r : Resolver) :
    outcome (chain source experiment) r =
      match r.chains.lookup experiment with
      | some chain => (.ok chain, r)
      | none =>
        match chainOf source r.declared experiment with
        | .ok chain => (.ok chain, { r with chains := (experiment, chain) :: r.chains })
        | .error e => (.error e, r) := by
  rw [Resolver.chain, outcome_bind, outcome_get]
  rcases hlookup : r.chains.lookup experiment with _ | found
  · simp only [hlookup, outcome_bind, outcome_ofExcept]
    rcases chainOf source r.declared experiment with e | chain <;> rfl
  · simp only [hlookup, outcome_pure]

theorem answers_chain (experiment : String) :
    Answers source bases (chain source experiment)
      (chainOf source (bases experiment) experiment) := by
  constructor <;> intro r hr <;> rw [outcome_chain]
  · rcases hlookup : r.chains.lookup experiment with _ | found
    · rw [hr.declared hlookup]
      rcases chainOf source r.declared experiment with e | chain <;> rfl
    · exact (hr.chain hlookup).symm
  · rcases hlookup : r.chains.lookup experiment with _ | found
    · rcases hchain : chainOf source r.declared experiment with e | chain
      · exact hr
      · rw [← hr.declared hlookup] at hchain
        exact hr.rememberChain hchain
    · exact hr

/-- A chain that has been found is remembered. -/
theorem lookup_of_chain {experiment : String} {r r' : Resolver} {links : List String}
    (h : outcome (chain source experiment) r = (.ok links, r')) :
    r'.chains.lookup experiment = some links := by
  rw [outcome_chain] at h
  rcases hlookup : r.chains.lookup experiment with _ | found <;> rw [hlookup] at h
  · rcases hchain : chainOf source r.declared experiment with e | chain <;> rw [hchain] at h <;>
      cases h
    rw [lookup_remember, if_pos rfl]
  · cases h
    exact hlookup

theorem answers_rootOf (experiment : String) :
    Answers source bases (rootOf source experiment)
      (lastOf source (bases experiment) experiment) :=
  (answers_chain experiment).bind fun _ => answers_ofExcept (.ok _)

/-- A document is looked for along the chain until it is found. -/
theorem outcome_tryResolve (experiment file : String) (r : Resolver) :
    outcome (tryResolve source experiment file) r =
      match r.documents.lookup (experiment, file) with
      | some doc => (.ok doc, r)
      | none =>
        match outcome (chain source experiment) r with
        | (.error e, r') => (.error e, r')
        | (.ok links, r') =>
          match layered source file links with
          | .ok doc => (.ok doc, { r' with documents := ((experiment, file), doc) :: r'.documents })
          | .error e => (.error e, r') := by
  rw [tryResolve, outcome_bind, outcome_get]
  rcases hlookup : r.documents.lookup (experiment, file) with _ | found
  · simp only [hlookup, outcome_bind, outcome_ofExcept]
    rcases outcome (chain source experiment) r with ⟨e | links, r'⟩
    · rfl
    · simp only
      rcases layered source file links with e | doc <;> rfl
  · simp only [hlookup, outcome_pure]

theorem answers_tryResolve (experiment file : String) :
    Answers source bases (tryResolve source experiment file)
      (documentOf source (bases experiment) experiment file) := by
  constructor <;> intro r hr <;> rw [outcome_tryResolve]
  · rcases hlookup : r.documents.lookup (experiment, file) with _ | found
    · rw [documentOf, ← (answers_chain experiment).answer hr]
      rcases outcome (chain source experiment) r with ⟨e | links, r'⟩
      · rfl
      · simp only [except_ok_bind]
        rcases layered source file links with e | doc <;> rfl
    · exact (hr.document hlookup).symm
  · rcases hlookup : r.documents.lookup (experiment, file) with _ | found
    · rcases hchain : outcome (chain source experiment) r with ⟨e | links, r'⟩ <;>
        obtain ⟨hanswer, hsound⟩ := (answers_chain experiment).of_outcome hr hchain
      · exact hsound
      · rcases hdoc : layered source file links with e | doc <;> simp only [hdoc]
        · exact hsound
        · refine hsound.rememberDocument (lookup_of_chain hchain) ?_
          rw [documentOf, hanswer]
          exact hdoc
    · exact hr

theorem answers_resolve (experiment file : String) :
    Answers source bases (resolve source experiment file)
      (presentDocument source (bases experiment) experiment file) := by
  refine (answers_tryResolve experiment file).bind fun doc => ?_
  cases doc with
  | none => exact (answers_chain experiment).bind fun _ => answers_ofExcept (.error _)
  | some doc => exact answers_ofExcept (.ok doc)

theorem answers_resolveFiles (experiment : String) (files : List String) :
    Answers source bases (resolveFiles source experiment files)
      (presentDocuments source (bases experiment) experiment files) := by
  induction files with
  | nil => exact answers_ofExcept (.ok [])
  | cons file rest ih =>
    refine (answers_resolve experiment file).bind fun doc => ?_
    exact ih.bind fun docs => answers_ofExcept (.ok ((file, doc) :: docs))

/-- All documents of an experiment, as they are resolved without a memory. -/
theorem answers_resolveAll (experiment : String) :
    Answers source bases (resolveAll source experiment)
      (documentsOf source (bases experiment) experiment) := by
  refine (answers_chain experiment).bind fun chain => ?_
  exact (answers_ofExcept _).bind fun names => answers_resolveFiles experiment names.keys

end ParamSweep.Resolver
