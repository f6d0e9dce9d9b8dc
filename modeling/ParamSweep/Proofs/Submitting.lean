import ParamSweep.Proofs.BatchLifetime
import ParamSweep.Proofs.ChangesBelow
import ParamSweep.Proofs.RecordedCalls

/-!
Submitting, however it ends.

A submission can fail before the scheduler is asked, by its answer, or while the identifier is
written down, and by then other things have been done: a manifest that was lost has been made again,
and there is a directory for the logs. None of them is the identifier. `Prepared` collects what may
have happened to the files up to there, and `Ends` lists the ways in which a submission ends
(`ends_submitSuite`). What each of them leaves is `Submits`: it is counted by the calls that are
written down (`Scheduler.recorded`), and the scheduler's answer and the pattern that is looked for
in it are arbitrary.

A path is compared with the file of the identifier by its place. A directory for the logs can be
asked for at that very place, or below it, so a directory may come to be where no file was. The file
itself is kept even then.
-/

namespace ParamSweep

variable {τ : Type} {l : Layout} {t t' t'' : FileTree}

/-! ### What is not submitting yet -/

/-- Nothing but the manifest has been written, and directories have been made on the way to the logs
only. -/
structure Prepared (l : Layout) (logDir : String) (t t' : FileTree) : Prop where
  adds : t.Adds (· = t.place l.manifestPath) t'
  made : ∀ {place}, t'.sight place = .dir → t.sight place = .dir ∨ t.OnWay logDir place

namespace Prepared

variable {logDir : String}

theorem refl (l : Layout) (logDir : String) (t : FileTree) : Prepared l logDir t t :=
  ⟨.refl _ _, .inl⟩

theorem trans (h : Prepared l logDir t t') (h' : Prepared l logDir t' t'') :
    Prepared l logDir t t'' := by
  refine ⟨h.adds.trans (h'.adds.mono ?_), fun hdir => ?_⟩
  · rintro _ rfl
    exact h.adds.place _
  · rcases h'.made hdir with hdir | hway
    · exact h.made hdir
    · exact .inr (hway.congr h.adds.workingDir.symm)

/-- The file of the identifier is not written. -/
theorem kept (h : Prepared l logDir t t') {content : ByteArray} {executable : Bool} :
    t'.sight (t'.place l.batchIdPath) = .file content executable ↔
      t.sight (t.place l.batchIdPath) = .file content executable := by
  rw [h.adds.place]
  exact h.adds.file_iff place_batchId_ne_manifest

end Prepared

/-- The files have been prepared at most, and nobody outside has been asked. -/
structure Prepares (l : Layout) (logDir : String) (s s' : Site τ) : Prop where
  outside : s'.outside = s.outside
  files : Prepared l logDir s.tree s'.tree

namespace Prepares

variable {logDir : String} {s s' s'' : Site τ}

theorem refl (l : Layout) (logDir : String) (s : Site τ) : Prepares l logDir s s :=
  ⟨rfl, .refl _ _ _⟩

theorem trans (h : Prepares l logDir s s') (h' : Prepares l logDir s' s'') :
    Prepares l logDir s s'' :=
  ⟨h'.outside.trans h.outside, h.files.trans h'.files⟩

end Prepares

/-- The scheduler was asked to submit the script, with a manifest of these runs beside it. -/
structure Asks (l : Layout) (scheduler : Scheduler τ) (logDir : String) (runs : List String)
    (s s' : Site τ) : Prop where
  script : s.tree.isFile l.submitScriptPath = true
  manifest : Manifest.read s.tree l = .ok runs
  runs : runs ≠ []
  files : s'.tree = s.tree
  outside : s'.outside = (scheduler.submit l.submitScriptPath
    [(submissionLogVariable, logDir)] s.tree s.outside).2

/-- Without a script nothing happens. Otherwise a submission fails before the scheduler is asked, or
the scheduler is asked once; and then it fails, or the identifier is written down. -/
inductive Ends (l : Layout) (scheduler : Scheduler τ) (logDir : String) (s : Site τ) :
    Except Error Submission × Site τ → Prop
  | refused (e : Error) : Ends l scheduler logDir s (.error e, s)
  | unasked {e : Error} {s' : Site τ} (hscript : s.tree.isFile l.submitScriptPath = true)
      (h : Prepares l logDir s s') : Ends l scheduler logDir s (.error e, s')
  | failed {runs : List String} {s₁ s₂ s' : Site τ} {e : Error}
      (hscript : s.tree.isFile l.submitScriptPath = true) (hready : Prepares l logDir s s₁)
      (hasks : Asks l scheduler logDir runs s₁ s₂) (hafter : Prepares l logDir s₂ s') :
      Ends l scheduler logDir s (.error e, s')
  | submitted {runs : List String} {s₁ s₂ s' : Site τ} {batch : BatchHandle}
      (hready : Prepares l logDir s s₁) (hasks : Asks l scheduler logDir runs s₁ s₂)
      (houtside : s'.outside = s₂.outside)
      (hwritten : FileTree.Written l.batchIdPath batch.id.toUTF8 false s₂.tree s'.tree) :
      Ends l scheduler logDir s (.ok ⟨batch, runs.length, l.batchIdPath, logDir⟩, s')

/-- The call that is written down when the scheduler is asked. -/
theorem Asks.calls {scheduler : Scheduler τ} {logDir : String} {runs : List String}
    {s s' : Site (List Call × τ)} (h : Asks l scheduler.recorded logDir runs s s') :
    s'.outside.1 = s.outside.1 ++
      [⟨l.submitScriptPath, [(submissionLogVariable, logDir)], s.tree⟩] := by
  rw [h.outside]
  rfl

end ParamSweep
