import ParamSweep.Proofs.Resolution

/-!
A resolver that has been asked before.

What a resolver remembers is never wrong, but it can be old: a base that is declared after the chain
of an experiment was found does not change that chain. So what came before a question matters in one
way only, by the bases that were in force when the chain of the experiment was first computed
(`basesFor`). With those a fresh resolver gives the same answer, failures included.

A call that fails may have computed a chain before it failed, and then it is remembered like any
other (`answers_after_calls`).
-/

namespace ParamSweep.Resolver

variable {source : ConfigSource} {declared : Entries String} {bases : String → Entries String}
  {α β : Type}

/-! ### Histories -/

/-- What can be asked about an experiment. -/
inductive Question where
  | chain
  | rootOf
  | tryResolve (file : String)
  | resolve (file : String)
  | resolveAll

/-- An answer to a question. -/
inductive Reply where
  | chain (links : List String)
  | root (experiment : String)
  | found (doc : Option Document)
  | document (doc : Document)
  | documents (docs : Entries Document)

/-- Asks a question about an experiment. -/
def ask (source : ConfigSource) (experiment : String) : Question → Resolving Reply
  | .chain => do return .chain (← chain source experiment)
  | .rootOf => do return .root (← rootOf source experiment)
  | .tryResolve file => do return .found (← tryResolve source experiment file)
  | .resolve file => do return .document (← resolve source experiment file)
  | .resolveAll => do return .documents (← resolveAll source experiment)

/-- The answer that is computed without a memory. -/
def answerOf (source : ConfigSource) (declared : Entries String) (experiment : String) :
    Question → Except Error Reply
  | .chain => do return .chain (← chainOf source declared experiment)
  | .rootOf => do return .root (← lastOf source declared experiment)
  | .tryResolve file => do return .found (← documentOf source declared experiment file)
  | .resolve file => do return .document (← presentDocument source declared experiment file)
  | .resolveAll => do return .documents (← documentsOf source declared experiment)

/-- A call on a resolver. -/
inductive Call where
  | declareBase (experiment base : String)
  | ask (experiment : String) (question : Question)

/-- The resolver after a call, however it ends. -/
def Call.after (source : ConfigSource) (r : Resolver) : Call → Resolver
  | .declareBase experiment base => r.declareBase experiment base
  | .ask experiment question => (outcome (Resolver.ask source experiment question) r).2

/-- The answer to a question after calls on a resolver that was fresh before them. -/
def answerAfter (source : ConfigSource) (declared : Entries String) (calls : List Call)
    (experiment : String) (question : Question) : Except Error Reply :=
  (outcome (ask source experiment question)
    (calls.foldl (Call.after source) { declared := declared })).1

/-- The declared bases after a call. -/
def Call.declaring (declared : Entries String) : Call → Entries String
  | .declareBase experiment base => declared.insert experiment base
  | .ask _ _ => declared

/-- The bases in force when the chain of an experiment was first computed, if it was. -/
def basesOfChain (source : ConfigSource) (experiment : String) :
    Entries String → List Call → Option (Entries String)
  | _, [] => none
  | declared, .declareBase subject base :: later =>
    basesOfChain source experiment (declared.insert subject base) later
  | declared, .ask subject _ :: later =>
    if subject = experiment ∧ (afresh declared (chain source experiment)).isOk then some declared
    else basesOfChain source experiment declared later

/-- The bases that count for an experiment after calls: those that its chain was computed with, and
the declared ones until then. -/
def basesFor (source : ConfigSource) (declared : Entries String) (calls : List Call)
    (experiment : String) : Entries String :=
  (basesOfChain source experiment declared calls).getD (calls.foldl Call.declaring declared)

theorem basesOfChain_append (source : ConfigSource) (experiment : String)
    (declared : Entries String) (calls later : List Call) :
    basesOfChain source experiment declared (calls ++ later) =
      (basesOfChain source experiment declared calls).or
        (basesOfChain source experiment (calls.foldl Call.declaring declared) later) := by
  induction calls generalizing declared with
  | nil => rfl
  | cons call rest ih =>
    cases call with
    | declareBase subject base => exact ih _
    | ask subject question =>
      rw [List.cons_append, basesOfChain, basesOfChain]
      split
      · rfl
      · exact ih _

/-! ### What a question leaves behind -/

/-- Between two moments a resolver has only found something out about one experiment. -/
structure Learned (subject : String) (r r' : Resolver) : Prop where
  declared : r'.declared = r.declared
  other : ∀ {experiment}, experiment ≠ subject →
    r'.chains.lookup experiment = r.chains.lookup experiment
  kept : (r.chains.lookup subject).isSome → (r'.chains.lookup subject).isSome

theorem Learned.refl (subject : String) (r : Resolver) : Learned subject r r :=
  ⟨rfl, fun _ => rfl, id⟩

theorem Learned.trans {subject : String} {r r' r'' : Resolver} (h : Learned subject r r')
    (h' : Learned subject r' r'') : Learned subject r r'' :=
  ⟨h'.declared.trans h.declared, fun hne => (h'.other hne).trans (h.other hne),
    fun hkept => h'.kept (h.kept hkept)⟩

/-- An operation is about one experiment. -/
def About (subject : String) (x : Resolving α) : Prop := ∀ r, Learned subject r (outcome x r).2

theorem About.ofExcept (subject : String) (answer : Except Error α) :
    About subject (ofExcept answer) :=
  Learned.refl subject

theorem About.bind {subject : String} {x : Resolving α} {f : α → Resolving β}
    (hx : About subject x) (hf : ∀ a, About subject (f a)) : About subject (x >>= f) := by
  intro r
  have hlearned := hx r
  rw [outcome_bind]
  rcases h : outcome x r with ⟨e | a, r'⟩ <;> rw [h] at hlearned
  · exact hlearned
  · exact hlearned.trans (hf a r')

theorem about_chain (experiment : String) : About experiment (chain source experiment) := by
  intro r
  rw [outcome_chain]
  rcases hlookup : r.chains.lookup experiment with _ | found
  · rcases chainOf source r.declared experiment with e | links
    · exact Learned.refl _ _
    · refine ⟨rfl, fun hne => ?_, fun _ => ?_⟩
      · exact (lookup_remember _ _ _ _).trans (if_neg hne)
      · rw [lookup_remember, if_pos rfl]
        rfl
  · exact Learned.refl _ _

theorem about_tryResolve (experiment file : String) :
    About experiment (tryResolve source experiment file) := by
  intro r
  have hlearned : Learned experiment r (outcome (chain source experiment) r).2 :=
    about_chain experiment r
  rw [outcome_tryResolve]
  rcases r.documents.lookup (experiment, file) with _ | found
  · rcases hchain : outcome (chain source experiment) r with ⟨e | links, r'⟩ <;>
      rw [hchain] at hlearned
    · exact hlearned
    · simp only
      rcases layered source file links with e | doc
      · exact hlearned
      · exact ⟨hlearned.declared, hlearned.other, hlearned.kept⟩
  · exact Learned.refl _ _

theorem about_resolve (experiment file : String) :
    About experiment (resolve source experiment file) := by
  refine (about_tryResolve experiment file).bind fun doc => ?_
  cases doc with
  | none => exact (about_chain experiment).bind fun _ => .ofExcept _ (.error _)
  | some doc => exact .ofExcept _ (.ok doc)

theorem about_resolveFiles (experiment : String) : ∀ files : List String,
    About experiment (resolveFiles source experiment files)
  | [] => .ofExcept _ (.ok [])
  | file :: rest =>
    (about_resolve experiment file).bind fun _ =>
      (about_resolveFiles experiment rest).bind fun _ => .ofExcept _ (.ok _)

theorem about_ask (experiment : String) (question : Question) :
    About experiment (ask source experiment question) := by
  have hreply : ∀ {γ : Type} {x : Resolving γ} (f : γ → Reply), About experiment x →
      About experiment (do return f (← x)) :=
    fun f hx => hx.bind fun a => .ofExcept _ (.ok (f a))
  cases question with
  | chain => exact hreply _ (about_chain experiment)
  | rootOf => exact hreply _ ((about_chain experiment).bind fun _ => .ofExcept _ (.ok _))
  | tryResolve file => exact hreply _ (about_tryResolve experiment file)
  | resolve file => exact hreply _ (about_resolve experiment file)
  | resolveAll =>
    exact hreply _ ((about_chain experiment).bind fun _ => (About.ofExcept _ _).bind fun names =>
      about_resolveFiles experiment names.keys)

/-- If there is a chain, the operation has found it in the end. -/
def FindsChain (source : ConfigSource) (bases : String → Entries String) (subject : String)
    (x : Resolving α) : Prop :=
  ∀ r links, Sound source bases r → chainOf source (bases subject) subject = .ok links →
    ((outcome x r).2.chains.lookup subject).isSome

theorem FindsChain.bind {subject : String} {x : Resolving α} {f : α → Resolving β}
    (hx : FindsChain source bases subject x) (hf : ∀ a, About subject (f a)) :
    FindsChain source bases subject (x >>= f) := by
  intro r links hr hlinks
  have hfound := hx r links hr hlinks
  rw [outcome_bind]
  rcases h : outcome x r with ⟨e | a, r'⟩ <;> rw [h] at hfound
  · exact hfound
  · exact (hf a r').kept hfound

theorem findsChain_chain (experiment : String) :
    FindsChain source bases experiment (chain source experiment) := by
  intro r links hr hlinks
  have hanswer := (answers_chain experiment).answer hr
  rw [hlinks] at hanswer
  rw [lookup_of_chain (Prod.ext hanswer rfl)]
  rfl

theorem findsChain_tryResolve (experiment file : String) :
    FindsChain source bases experiment (tryResolve source experiment file) := by
  intro r links hr hlinks
  have hfound := findsChain_chain experiment r links hr hlinks
  rw [outcome_tryResolve]
  rcases hlookup : r.documents.lookup (experiment, file) with _ | doc
  · rcases hchain : outcome (chain source experiment) r with ⟨e | links, r'⟩ <;>
      rw [hchain] at hfound
    · exact hfound
    · simp only
      rcases layered source file links with e | doc <;> exact hfound
  · obtain ⟨known, hknown⟩ := hr.known hlookup
    exact Option.isSome_iff_exists.2 ⟨known, hknown⟩

theorem findsChain_ask (experiment : String) (question : Question) :
    FindsChain source bases experiment (ask source experiment question) := by
  have hreply : ∀ {γ : Type} (f : γ → Reply) (a : γ),
      About experiment (return f a : Resolving Reply) :=
    fun f a => .ofExcept _ (.ok (f a))
  cases question with
  | chain => exact (findsChain_chain experiment).bind (hreply _)
  | rootOf =>
    exact ((findsChain_chain experiment).bind fun _ => .ofExcept _ (.ok _)).bind (hreply _)
  | tryResolve file => exact (findsChain_tryResolve experiment file).bind (hreply _)
  | resolve file =>
    refine ((findsChain_tryResolve experiment file).bind fun doc => ?_).bind (hreply _)
    cases doc with
    | none => exact (about_chain experiment).bind fun _ => .ofExcept _ (.error _)
    | some doc => exact .ofExcept _ (.ok doc)
  | resolveAll =>
    refine ((findsChain_chain experiment).bind fun _ => ?_).bind (hreply _)
    exact (About.ofExcept _ _).bind fun names => about_resolveFiles experiment names.keys

/-- A question is answered with the bases of the experiment. -/
theorem answers_ask (experiment : String) (question : Question) :
    Answers source bases (ask source experiment question)
      (answerOf source (bases experiment) experiment question) := by
  have hreply : ∀ {γ : Type} {x : Resolving γ} {answer : Except Error γ} (f : γ → Reply),
      Answers source bases x answer →
        Answers source bases (do return f (← x)) (do return f (← answer)) :=
    fun f hx => hx.bind fun a => answers_ofExcept (.ok (f a))
  cases question with
  | chain => exact hreply _ (answers_chain experiment)
  | rootOf => exact hreply _ (answers_rootOf experiment)
  | tryResolve file => exact hreply _ (answers_tryResolve experiment file)
  | resolve file => exact hreply _ (answers_resolve experiment file)
  | resolveAll => exact hreply _ (answers_resolveAll experiment)

/-- The chain stays unknown exactly if it was unknown and does not resolve. -/
theorem lookup_ask_eq_none_iff {r : Resolver} (hr : Sound source bases r) (experiment : String)
    (question : Question) :
    (outcome (ask source experiment question) r).2.chains.lookup experiment = none ↔
      r.chains.lookup experiment = none ∧
        (chainOf source r.declared experiment).isOk = false := by
  rcases hlookup : r.chains.lookup experiment with _ | links
  · have hbases := hr.declared hlookup
    rcases hlinks : chainOf source r.declared experiment with e | links
    · refine iff_of_true ?_ ⟨rfl, rfl⟩
      rcases hfound : (outcome (ask source experiment question) r).2.chains.lookup experiment
        with _ | links
      · rfl
      · have hwrong := ((answers_ask experiment question).sound hr).chain hfound
        rw [hbases, hlinks] at hwrong
        cases hwrong
    · have hfound := findsChain_ask experiment question r links hr (hbases ▸ hlinks)
      exact iff_of_false (Option.isSome_iff_ne_none.1 hfound) (fun h => by cases h.2)
  · have hkept : ((outcome (ask source experiment question) r).2.chains.lookup experiment).isSome :=
      (about_ask experiment question r).kept (Option.isSome_of_mem hlookup)
    exact iff_of_false (Option.isSome_iff_ne_none.1 hkept) (fun h => by cases h.1)

/-! ### Calls -/

/-- What a resolver knows after calls. -/
structure Remembers (source : ConfigSource) (declared : Entries String) (calls : List Call)
    (r : Resolver) : Prop where
  sound : Sound source (basesFor source declared calls) r
  inForce : r.declared = calls.foldl Call.declaring declared
  unknown : ∀ {experiment}, r.chains.lookup experiment = none ↔
    basesOfChain source experiment declared calls = none

theorem remembers_fresh (source : ConfigSource) (declared : Entries String) :
    Remembers source declared [] { declared := declared } :=
  ⟨sound_fresh source declared, rfl, iff_of_true rfl rfl⟩

namespace Remembers

variable {calls : List Call} {r : Resolver}

/-- A base that is declared counts for the experiments whose chain is not known. -/
theorem declareBase (h : Remembers source declared calls r) (subject base : String) :
    Remembers source declared (calls ++ [Call.declareBase subject base])
      (r.declareBase subject base) := by
  have hchain : ∀ experiment,
      basesOfChain source experiment declared (calls ++ [Call.declareBase subject base]) =
        basesOfChain source experiment declared calls :=
    fun experiment => by rw [basesOfChain_append, basesOfChain, basesOfChain, Option.or_none]
  have hforce : (calls ++ [Call.declareBase subject base]).foldl Call.declaring declared =
      r.declared.insert subject base := by
    rw [List.foldl_append, ← h.inForce]
    rfl
  have hsame : ∀ {experiment links}, r.chains.lookup experiment = some links →
      basesFor source declared (calls ++ [Call.declareBase subject base]) experiment =
        basesFor source declared calls experiment := by
    intro experiment links hlookup
    rw [basesFor, basesFor, hchain]
    rcases hbases : basesOfChain source experiment declared calls with _ | bases
    · rw [h.unknown.2 hbases] at hlookup
      cases hlookup
    · rfl
  refine ⟨⟨fun {experiment} hlookup => ?_, fun {experiment links} hlookup => ?_,
    fun {experiment file doc} hlookup => ?_, h.sound.known⟩, hforce.symm, fun {experiment} => ?_⟩
  · rw [basesFor, hchain, h.unknown.1 hlookup, Option.getD_none, hforce]
    rfl
  · rw [hsame hlookup]
    exact h.sound.chain hlookup
  · obtain ⟨links, hlinks⟩ := h.sound.known hlookup
    rw [hsame hlinks]
    exact h.sound.document hlookup
  · rw [hchain]
    exact h.unknown

/-- A question leaves the bases as they are, of its own experiment and of the others. -/
theorem ask (h : Remembers source declared calls r) (subject : String) (question : Question) :
    Remembers source declared (calls ++ [Call.ask subject question])
      (outcome (Resolver.ask source subject question) r).2 := by
  have hforce : (calls ++ [Call.ask subject question]).foldl Call.declaring declared =
      r.declared := by
    rw [List.foldl_append, ← h.inForce]
    rfl
  have hchain : ∀ experiment,
      basesOfChain source experiment declared (calls ++ [Call.ask subject question]) =
        (basesOfChain source experiment declared calls).or
          (if subject = experiment ∧ (chainOf source r.declared experiment).isOk
            then some r.declared else none) := by
    intro experiment
    rw [basesOfChain_append, ← h.inForce, basesOfChain, (answers_chain experiment).afresh]
    rfl
  have hbases : basesFor source declared (calls ++ [Call.ask subject question]) =
      basesFor source declared calls := by
    funext experiment
    rw [basesFor, basesFor, hchain, hforce, ← h.inForce]
    rcases basesOfChain source experiment declared calls with _ | bases
    · rw [Option.none_or]
      split <;> rfl
    · rfl
  have hsound := (answers_ask subject question).sound h.sound
  have hlearned : Learned subject r (outcome (Resolver.ask source subject question) r).2 :=
    about_ask subject question r
  refine ⟨hbases ▸ hsound, hlearned.declared.trans hforce.symm, fun {experiment} => ?_⟩
  rw [hchain]
  rw [Option.or_eq_none_iff, ← h.unknown]
  by_cases hsubject : subject = experiment
  · subst hsubject
    rw [lookup_ask_eq_none_iff h.sound]
    simp
  · rw [hlearned.other (Ne.symm hsubject), if_neg (fun hc => hsubject hc.1)]
    simp

/-- What holds after some calls holds after more. -/
theorem after (h : Remembers source declared calls r) (later : List Call) :
    Remembers source declared (calls ++ later) (later.foldl (Call.after source) r) := by
  induction later generalizing calls r with
  | nil => rwa [List.append_nil]
  | cons call rest ih =>
    rw [← List.singleton_append, ← List.append_assoc]
    refine ih ?_
    cases call with
    | declareBase subject base => exact h.declareBase subject base
    | ask subject question => exact h.ask subject question

end Remembers

/-- In a question after these calls the chain of its experiment would be computed first. -/
def ComputesChain (source : ConfigSource) (declared : Entries String) (calls : List Call)
    (experiment : String) : Prop :=
  basesOfChain source experiment declared calls = none ∧
    (afresh (calls.foldl Call.declaring declared) (chain source experiment)).isOk

theorem basesFor_append_cons_ask {before later : List Call} {subject experiment : String}
    {asked : Question} (h : experiment ≠ subject ∨ ¬ ComputesChain source declared before subject) :
    basesFor source declared (before ++ .ask subject asked :: later) experiment =
      basesFor source declared (before ++ later) experiment := by
  simp only [basesFor, basesOfChain_append, List.foldl_append, List.foldl_cons, Call.declaring,
    basesOfChain]
  rcases hbefore : basesOfChain source experiment declared before with _ | bases
  · have hnot : ¬ (subject = experiment ∧
        (afresh (before.foldl Call.declaring declared) (chain source experiment)).isOk) := by
      rintro ⟨rfl, hok⟩
      exact h.elim (· rfl) (· ⟨hbefore, hok⟩)
    rw [if_neg hnot]
  · rfl

/-- An answer about an experiment is that of a fresh resolver with the bases that were in force when
the chain of the experiment was first computed, or with those declared now if it never was.

A question, whether it is answered or fails, changes no later answer otherwise than by computing the
chain of its experiment first. So it does what asking for that chain does, and nothing at all where
the chain was known or does not resolve, or for other experiments. -/
theorem answers_after_calls (source : ConfigSource) (declared : Entries String) :
    (∀ calls experiment question, answerAfter source declared calls experiment question =
      afresh (basesFor source declared calls experiment) (ask source experiment question)) ∧
    ∀ before later subject asked experiment question,
      answerAfter source declared (before ++ .ask subject asked :: later) experiment question =
        answerAfter source declared (before ++ .ask subject .chain :: later) experiment question ∧
      (experiment ≠ subject ∨ ¬ ComputesChain source declared before subject →
        answerAfter source declared (before ++ .ask subject asked :: later) experiment question =
          answerAfter source declared (before ++ later) experiment question) := by
  have hanswer : ∀ calls experiment question,
      answerAfter source declared calls experiment question =
        afresh (basesFor source declared calls experiment) (ask source experiment question) := by
    intro calls experiment question
    have hremembers := (remembers_fresh source declared).after calls
    rw [answerAfter, (answers_ask experiment question).answer hremembers.sound,
      (answers_ask experiment question).afresh]
    rfl
  refine ⟨hanswer, fun before later subject asked experiment question => ⟨?_, fun h => ?_⟩⟩
  · rw [hanswer, hanswer]
    simp only [basesFor, basesOfChain_append, List.foldl_append, List.foldl_cons, Call.declaring,
      basesOfChain]
  · rw [hanswer, hanswer, basesFor_append_cons_ask h]

/-- An experiment `e` with a file that is no configuration, and an experiment `b`. -/
def brokenSource : ConfigSource :=
  ConfigSource.ofTree
    { entries :=
        [("config", .dir
          [("b", .dir [("in", .dir [("x.yaml", .file "a: 1\n".toUTF8 false)])]),
           ("e", .dir [("in", .dir [("bad.yaml", .file "- 1\n".toUTF8 false)])])])] }
    "config"

/-- Where the chain of `e` has been asked for before, a failed question about its broken file
changes nothing, and the chain is the one without the base that is declared after it. -/
theorem chain_after_failure :
    answerAfter brokenSource []
        [.ask "e" .chain, .ask "e" (.tryResolve "bad.yaml"), .declareBase "e" "b"] "e" .chain =
      answerAfter brokenSource [] [.ask "e" .chain, .declareBase "e" "b"] "e" .chain ∧
    answerAfter brokenSource [] [.ask "e" .chain, .declareBase "e" "b"] "e" .chain =
      afresh [] (ask brokenSource "e" .chain) := by
  have hcomputed : (afresh [] (chain brokenSource "e")).isOk = true := by decide +kernel
  have hbases : basesOfChain brokenSource "e" [] [.ask "e" .chain] = some [] := by
    rw [basesOfChain, if_pos ⟨rfl, hcomputed⟩]
  obtain ⟨hafresh, hquestion⟩ := answers_after_calls brokenSource []
  refine ⟨(hquestion [.ask "e" .chain] [.declareBase "e" "b"] "e" (.tryResolve "bad.yaml") "e"
    .chain).2 (Or.inr fun hc => ?_), ?_⟩
  · rw [ComputesChain, hbases] at hc
    cases hc.1
  · have hlater : basesFor brokenSource [] [.ask "e" .chain, .declareBase "e" "b"] "e" = [] := by
      rw [basesFor, basesOfChain, if_pos ⟨rfl, hcomputed⟩]
      rfl
    rw [hafresh, hlater]

/-- The links of an answer. -/
def Reply.links? : Reply → Option (List String)
  | .chain links => some links
  | _ => none

/-- After a failed question about a broken file a base is declared too late for the chain, though
without that question it is in time. -/
theorem failure_changes_chain :
    ¬ ∀ (source : ConfigSource) (declared : Entries String) (before later : List Call)
        (subject : String) (asked : Question) (e : Error),
      answerAfter source declared before subject asked = .error e →
      ∀ experiment question,
        answerAfter source declared (before ++ .ask subject asked :: later) experiment question =
          answerAfter source declared (before ++ later) experiment question := by
  intro hclaim
  have hrun :
      (answerAfter brokenSource [] [] "e" (.tryResolve "bad.yaml")).isOk = false ∧
        (answerAfter brokenSource [] [.ask "e" (.tryResolve "bad.yaml"), .declareBase "e" "b"] "e"
          .chain).toOption.bind Reply.links? = some ["e"] ∧
        (answerAfter brokenSource [] [.declareBase "e" "b"] "e" .chain).toOption.bind
          Reply.links? = some ["e", "b"] := by
    decide +kernel
  obtain ⟨hfails, hwith, hwithout⟩ := hrun
  rcases hanswer : answerAfter brokenSource [] [] "e" (.tryResolve "bad.yaml") with e | reply <;>
    rw [hanswer] at hfails
  · have hsame := hclaim brokenSource [] [] [.declareBase "e" "b"] "e" (.tryResolve "bad.yaml") e
      hanswer "e" .chain
    simp only [List.nil_append] at hsame
    rw [hsame, hwithout] at hwith
    cases hwith
  · cases hfails

end ParamSweep.Resolver
