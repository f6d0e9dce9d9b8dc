import ParamSweep.Batch.Submission
import ParamSweep.Proofs.Reconciliation

/-!
What is asked of a scheduler, written down.

An operation comes to know of the world outside by the answers to its questions, and in no other
way. So where two schedulers give the same answers, the one perhaps with more going on outside, an
operation with the one comes to the same as with the other: `SeenAs`. That holds of a scheduler
whose submissions are written down (`Scheduler.recorded`), which is how they can be counted.
-/

namespace ParamSweep

variable {τ τ' α β : Type} {see : τ' → τ}

/-! ### The same operation with more outside -/

/-- A site with what is seen of the outside in its place. -/
def Site.seen (see : τ' → τ) (s : Site τ') : Site τ :=
  { tree := s.tree, now := s.now, console := s.console, outside := see s.outside }

/-- One operation comes to the same as another one on what is seen of the outside. -/
def SeenAs (see : τ' → τ) (x' : Action τ' α) (x : Action τ α) : Prop :=
  ∀ s, outcome x (s.seen see) = ((outcome x' s).1, (outcome x' s).2.seen see)

namespace SeenAs

theorem bind {x' : Action τ' α} {x : Action τ α} {g' : α → Action τ' β} {g : α → Action τ β}
    (hx : SeenAs see x' x) (hg : ∀ a, SeenAs see (g' a) (g a)) :
    SeenAs see (x' >>= g') (x >>= g) := by
  intro s
  rw [outcome_bind, outcome_bind, hx s]
  rcases outcome x' s with ⟨e | a, s₁⟩
  · rfl
  · exact hg a s₁

theorem pure (a : α) : SeenAs see (pure a) (pure a) := fun _ => rfl

theorem ofExcept (r : Except Error α) : SeenAs see (Action.ofExcept r) (Action.ofExcept r) :=
  fun _ => rfl

theorem refuse (cause : Cause) :
    SeenAs see (Action.refuse cause : Action τ' α) (Action.refuse cause) := fun _ => rfl

theorem throw (e : Error) :
    SeenAs see (MonadExcept.throw e : Action τ' α) (MonadExcept.throw e) := fun _ => rfl

theorem tree : SeenAs see Action.tree Action.tree := fun _ => rfl

theorem look (f : FileTree → Except Error α) : SeenAs see (Action.look f) (Action.look f) :=
  fun _ => rfl

theorem say (line : String) : SeenAs see (Action.say line) (Action.say line) := fun _ => rfl

theorem change (path : String) (f : FileTree → Except FileFault FileTree) :
    SeenAs see (Action.change path f) (Action.change path f) := by
  intro s
  have htree : (s.seen see).tree = s.tree := rfl
  rw [Action.outcome_change, Action.outcome_change, htree]
  cases f s.tree <;> rfl

theorem ensureDir (path : String) : SeenAs see (Action.ensureDir path) (Action.ensureDir path) := by
  intro s
  rw [Action.ensureDir, Action.ensureDir, Action.outcome_changeAsFar, Action.outcome_changeAsFar]
  rfl

theorem replaceText (path text : String) :
    SeenAs see (Action.replaceText path text) (Action.replaceText path text) :=
  (ensureDir _).bind fun _ => change _ _

/-- A question that is answered alike in both. -/
theorem ask {q' : Query τ'} {q : Query τ}
    (h : ∀ t o, q t (see o) = ((q' t o).1, see (q' t o).2)) :
    SeenAs see (Action.ask q') (Action.ask q) := by
  intro s
  have hanswer : q (s.seen see).tree (s.seen see).outside =
      ((q' s.tree s.outside).1, see (q' s.tree s.outside).2) := h s.tree s.outside
  rw [outcome_ask, outcome_ask, hanswer]
  rfl

theorem manifestWrite (l : Layout) (names : List String) :
    SeenAs see (Manifest.write l names) (Manifest.write l names) := by
  rw [Manifest.write, Manifest.write]
  split
  · exact refuse _
  · exact replaceText _ _

theorem load (l : Layout) : SeenAs see (Manifest.load l) (Manifest.load l) := by
  have hensure : SeenAs see (Manifest.ensure l) (Manifest.ensure l) := by
    refine tree.bind fun t => ?_
    split
    · exact pure _
    · dsimp only
      split
      · exact throw _
      · exact (manifestWrite l _).bind fun _ => (say _).bind fun _ => pure _
  exact hensure.bind fun _ => (look _).bind fun _ => pure _

end SeenAs

/-! ### Submissions that are written down -/

/-- A call of a scheduler to submit a script, and the files as they were then. -/
structure Call where
  script : String
  environment : List (String × String)
  files : FileTree

namespace Scheduler

/-- The scheduler, with every call to submit a script written down. -/
def recorded (s : Scheduler τ) : Scheduler (List Call × τ) where
  submit script environment t := fun (calls, o) =>
    let (answer, o) := s.submit script environment t o
    (answer, (calls ++ [⟨script, environment, t⟩], o))
  accounting batch := s.onSecond.accounting batch
  queue batch := s.onSecond.queue batch

end Scheduler

end ParamSweep
