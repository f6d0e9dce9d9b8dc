import Mathlib.Data.Finset.Basic
import Mathlib.Data.Set.Finite.Basic
import ParamSweep.Proofs.Generation
import ParamSweep.Proofs.MakingDirectories
import ParamSweep.CommandLine.Run

/-!
Which directories are removed.

The command `clean` and the generation of a suite each remove one directory with all that is in it,
the one that the path of the experiment leads to (`removes_clear`, `removes_placeSuite`). Where that
is depends on the name of the experiment, which is whatever stands on the command line. Read as a
path it is a way from the runs root on, and `Path.within?` follows that way for as long as it does
not lead above its start. `Path.Descends` holds of the names whose way ends below the start. Below
every root these are the safe names, and all others can lead to the root itself, above it or
somewhere else (`below_join_iff_descends`).
-/

namespace ParamSweep

namespace Path

/-! ### Ways that stay inside -/

/-- The place is strictly below another. -/
def Below (above place : List String) : Prop := ∃ rest, rest ≠ [] ∧ place = above ++ rest

theorem not_below_self (place : List String) : ¬ Below place place := by
  rintro ⟨rest, hne, hrest⟩
  exact hne (List.append_right_eq_self.1 hrest.symm)

/-- What the names of a way come to behind its start, from what they have come to so far; nothing
if the way leads above its start. -/
def within? : List String → List String → Option (List String)
  | inside, [] => some inside
  | inside, part :: rest =>
    if part = ".." ∧ inside = [] then none else within? (step inside part) rest

/-- A way that stays inside leads to the same place below every start. -/
theorem walk_of_within? {parts : List String} {inside rest : List String}
    (h : within? inside parts = some rest) (here : List String) :
    walk (here ++ inside) parts = here ++ rest := by
  induction parts generalizing inside with
  | nil =>
    obtain rfl : inside = rest := Option.some.inj h
    rfl
  | cons part more ih =>
    rw [within?] at h
    split at h
    · cases h
    next hstays => rw [walk_cons, step_append here hstays, ih h]

/-- A name that is not on the way is lost as soon as it is left. -/
theorem not_mem_walk {name : String} {here parts : List String} (hhere : name ∉ here)
    (hparts : name ∉ parts) : name ∉ walk here parts := by
  induction parts generalizing here with
  | nil => exact hhere
  | cons part more ih =>
    obtain ⟨hpart, hmore⟩ := List.ne_and_not_mem_of_not_mem_cons hparts
    refine ih ?_ hmore
    rw [step]
    split
    · exact hhere
    · split
      · exact fun hmem => hhere (List.dropLast_subset _ hmem)
      · simp [hhere, hpart]

/-- A way that leads above its start does not come back to it, if the start has a name that is not
on the way. -/
theorem not_mem_walk_of_within? {name : String} {inside parts : List String}
    (h : within? inside parts = none) (hinside : name ∉ inside) (hparts : name ∉ parts) :
    name ∉ walk (name :: inside) parts := by
  induction parts generalizing inside with
  | nil => cases h
  | cons part more ih =>
    obtain ⟨hpart, hmore⟩ := List.ne_and_not_mem_of_not_mem_cons hparts
    rw [within?] at h
    rw [walk_cons]
    split at h
    next hup =>
      obtain ⟨rfl, rfl⟩ := hup
      exact not_mem_walk (by simp [step]) hmore
    next hstays =>
      have hstep : step (name :: inside) part = name :: step inside part :=
        step_append [name] hstays
      have hleft : name ∉ walk inside [part] := not_mem_walk hinside (by simpa using hpart)
      rw [hstep]
      exact ih h hleft hmore

/-- The path leads from every directory to something strictly below it: it is relative, at no point
of the way above its start, and at the end below it. -/
def Descends (path : String) : Prop :=
  isAbsolute path = false ∧ ((within? [] (parts path)).any fun rest => !rest.isEmpty) = true

instance (path : String) : Decidable (Descends path) := inferInstanceAs (Decidable (_ ∧ _))

theorem descends_iff {path : String} :
    Descends path ↔
      isAbsolute path = false ∧ ∃ rest, rest ≠ [] ∧ within? [] (parts path) = some rest := by
  rw [Descends]
  rcases within? [] (parts path) with _ | rest <;> simp

end Path

namespace FileTree

/-- The names that descend lead to places strictly below every root in every tree, and no others
do. -/
theorem below_join_iff_descends (name : String) :
    (∀ (t : FileTree) (root : String), Path.Below (t.place root) (t.place (Path.join root name))) ↔
      Path.Descends name := by
  rw [Path.descends_iff]
  constructor
  · intro hbelow
    have hrelative : Path.isAbsolute name = false := by
      rw [← Bool.not_eq_true]
      intro habsolute
      have hself := hbelow default name
      rw [Path.join_of_isAbsolute name habsolute] at hself
      exact Path.not_below_self _ hself
    refine ⟨hrelative, ?_⟩
    rcases hway : Path.within? [] (Path.parts name) with _ | rest
    · -- the way leads above its start: from a root whose name is not on it, it gets lost
      obtain ⟨root, hroot⟩ := Infinite.exists_notMem_finset (Path.parts name).toFinset
      rw [List.mem_toFinset] at hroot
      obtain ⟨below, -, hbelow⟩ := hbelow { workingDir := [root] } "."
      rw [place_join _ _ hrelative] at hbelow
      have hstart : place { workingDir := [root] } "." = [root] := by
        rw [place, start, Path.isAbsolute_of_not_mem (by decide),
          show Path.parts "." = ["."] by decide]
        rfl
      rw [hstart] at hbelow
      refine absurd ?_ (Path.not_mem_walk_of_within? hway List.not_mem_nil hroot)
      rw [hbelow]
      exact List.mem_cons_self
    · refine ⟨rest, ?_, rfl⟩
      rintro rfl
      have hself := hbelow default "."
      have hwalk := Path.walk_of_within? hway (place default ".")
      rw [List.append_nil] at hwalk
      rw [place_join _ _ hrelative, hwalk] at hself
      exact Path.not_below_self _ hself
  · rintro ⟨hrelative, rest, hne, hway⟩ t root
    refine ⟨rest, hne, ?_⟩
    have hwalk := Path.walk_of_within? hway (t.place root)
    rwa [List.append_nil, ← place_join t root hrelative] at hwalk

example : Path.Descends "suites/e" ∧ Path.Descends "suites/../e" ∧ ¬ Path.Descends "" ∧
    ¬ Path.Descends "../e" ∧ ¬ Path.Descends "/e" := by
  decide +kernel

/-! ### Removing what a path leads to -/

/-- If the path leads to a directory, everything in it is removed and nothing else is; otherwise
nothing happens. -/
structure Removes (path : String) (t t' : FileTree) : Prop where
  cleared : t.isDir path = true → Cleared (t.place path) t t'
  same : t.isDir path = false → t' = t

theorem removes_removeDir (t : FileTree) (path : String) :
    Removes path t (t.removeDir path).1 := by
  rcases t.removeDir_cases path with ⟨hreach, hdir, hcleared⟩ | ⟨hnot, hsame, -⟩
  · refine ⟨fun _ => hcleared, fun hfalse => ?_⟩
    rw [isDir_iff.2 ⟨hreach, hdir⟩] at hfalse
    cases hfalse
  · exact ⟨fun hdir => absurd (isDir_iff.1 hdir) hnot, fun _ => hsame⟩

/-- Where a path leads nowhere there is nothing to remove. -/
theorem removes_of_not_holds {t : FileTree} {path : String} (h : ¬ t.holds path = true) :
    Removes path t t := by
  refine ⟨fun hdir => absurd (holds_iff.2 ?_) h, fun _ => rfl⟩
  obtain ⟨hreach, hsight⟩ := isDir_iff.1 hdir
  exact ⟨hreach, by simp [hsight]⟩

end FileTree

variable {τ : Type}

namespace Generate

/-! ### Clearing and building anew -/

theorem removes_clear (l : Layout) (s : Site τ) :
    FileTree.Removes l.experimentDir s.tree (outcome (clear l) s).2.tree := by
  rw [clear, outcome_bind, Action.outcome_tree]
  simp only
  by_cases hholds : s.tree.holds l.experimentDir = true
  · rw [if_pos hholds, Action.removeDir, Action.outcome_changeAsFar]
    exact s.tree.removes_removeDir l.experimentDir
  · rw [if_neg hholds]
    exact FileTree.removes_of_not_holds hholds

variable {t : FileTree}

theorem keeps_builds_writeFiles (dir : String) :
    ∀ files : List (String × String),
      Keeps (fun s : Site τ => t.Builds (fun _ => True) s.tree) (writeFiles dir files)
  | [] => Keeps.pure _
  | _ :: rest =>
    (Action.keeps_builds_replaceText fun _ _ => trivial).bind fun _ =>
      keeps_builds_writeFiles dir rest

theorem keeps_builds_writeRuns (l : Layout) :
    ∀ runs : List RenderedRun,
      Keeps (fun s : Site τ => t.Builds (fun _ => True) s.tree) (writeRuns l runs)
  | [] => Keeps.pure _
  | run :: rest =>
    (Action.keeps_builds_ensureDir fun _ _ => trivial).bind fun _ =>
      (keeps_builds_writeFiles _ run.files).bind fun _ => keeps_builds_writeRuns l rest

theorem keeps_builds_manifestWrite (l : Layout) (names : List String) :
    Keeps (fun s : Site τ => t.Builds (fun _ => True) s.tree) (Manifest.write l names) := by
  rw [Manifest.write]
  split
  · exact fun _ hs => hs
  · exact Action.keeps_builds_replaceText fun _ _ => trivial

theorem keeps_builds_placeScript (l : Layout) (p : PreparedSuite) (record : Value) :
    Keeps (fun s : Site τ => t.Builds (fun _ => True) s.tree) (placeScript l p record) := by
  have hsay : ∀ line, Keeps (fun s : Site τ => t.Builds (fun _ => True) s.tree) (Action.say line) :=
    fun _ _ hs => hs
  refine (Action.keeps_builds_replaceText fun _ _ => trivial).bind fun _ => ?_
  refine (Action.keeps_builds_change FileTree.builds_makeExecutable).bind fun _ => ?_
  refine (Action.keeps_builds_replaceText fun _ _ => trivial).bind fun _ => ?_
  exact (hsay _).bind fun _ => (hsay _).bind fun _ => (hsay _).bind fun _ => Keeps.pure _

/-- Placing a suite removes what the experiment's directory is, and from then on only adds. -/
theorem removes_placeSuite (l : Layout) (p : PreparedSuite) (record : Value) (s : Site τ) :
    ∃ t, FileTree.Removes l.experimentDir s.tree t ∧
      t.Adds (fun _ => True) (outcome (placeSuite l p record) s).2.tree := by
  have hremoved := removes_clear l s
  rw [placeSuite, outcome_bind]
  rcases hclear : outcome (clear l) s with ⟨e | _, s₁⟩ <;> rw [hclear] at hremoved
  · exact ⟨s₁.tree, hremoved, FileTree.Adds.refl _ _⟩
  · have hbuilt : Keeps (fun s : Site τ => s₁.tree.Builds (fun _ => True) s.tree) (do
        Action.ensureDir l.schedulerLogsDir
        writeRuns l p.rendered
        Manifest.write l p.suite.runNames
        placeScript l p record) :=
      (Action.keeps_builds_ensureDir fun _ _ => trivial).bind fun _ =>
        (keeps_builds_writeRuns l _).bind fun _ =>
          (keeps_builds_manifestWrite l _).bind fun _ => keeps_builds_placeScript l p record
    exact ⟨s₁.tree, hremoved, (hbuilt s₁ (FileTree.Builds.refl _ _)).adds⟩

end Generate

namespace CommandLine

/-- The command `clean` does to the files what clearing an experiment does. -/
theorem tree_clean (r : Roots) (experiment : String) (s : Site τ) :
    (outcome (clean r experiment) s).2.tree =
      (outcome (Generate.clear (r.layout experiment)) s).2.tree := by
  rw [clean, Generate.clear, outcome_bind, outcome_bind, Action.outcome_tree]
  simp only
  split
  · rw [outcome_bind]
    rcases outcome (Action.removeDir (r.layout experiment).experimentDir) s with ⟨e | u, s'⟩ <;> rfl
  · rfl

/-- However they end, the command `clean` and the generation of a suite remove one directory at
most, the experiment's, and generation adds to what is left. That directory lies strictly below the
runs root, whatever the roots and the files are, exactly if the experiment's name descends. -/
theorem removes_only_experimentDir (r : Roots) (experiment : String) (programs : Programs)
    (o : CompileOptions) (s : Site τ) :
    FileTree.Removes (r.layout experiment).experimentDir s.tree
        (outcome (clean r experiment) s).2.tree ∧
      (∃ t, (t = s.tree ∨ FileTree.Removes (r.layout experiment).experimentDir s.tree t) ∧
        t.Adds (fun _ => True)
          (outcome (generateSuite programs (r.layout experiment) o) s).2.tree) ∧
      ((∀ (roots : Roots) (t : FileTree),
          Path.Below (t.place roots.runs) (t.place (roots.layout experiment).experimentDir)) ↔
        Path.Descends experiment) := by
  refine ⟨?_, ?_, ?_⟩
  · rw [tree_clean]
    exact Generate.removes_clear _ s
  · rw [outcome_generateSuite]
    split
    · exact ⟨s.tree, .inl rfl, FileTree.Adds.refl _ _⟩
    next p _ =>
      obtain ⟨t, hremoved, hadds⟩ := Generate.removes_placeSuite (r.layout experiment) p
        (Generate.suiteRecord p.suite p.renderer.name s.now) s
      exact ⟨t, .inr hremoved, hadds⟩
  · rw [← FileTree.below_join_iff_descends]
    exact ⟨fun h t root => h { runs := root } t, fun h roots t => h t roots.runs⟩

/-- With an empty name the runs root itself is removed, and all suites with it. -/
theorem runsRoot_removed_of_empty_name :
    ¬ ∀ (r : Roots) (experiment : String) (s : Site Unit) (place : List String),
      s.tree.sight place = .dir →
      (outcome (clean r experiment) s).2.tree.sight place ≠ .dir →
        Path.Below (s.tree.place r.runs) place := by
  intro hclaim
  have hrun : (siteWithPlan "{}").tree.place "runs" = ["runs"] ∧
      (siteWithPlan "{}").tree.isDir "runs" = true ∧
      ((outcome (clean {} "") (siteWithPlan "{}")).2.tree.nodeAt? ["runs"]).isNone = true := by
    decide +kernel
  obtain ⟨hplace, hbefore, hafter⟩ := hrun
  refine Path.not_below_self ["runs"] (hplace ▸ hclaim {} "" (siteWithPlan "{}") ["runs"] ?_ ?_)
  · rw [← hplace]
    exact (FileTree.isDir_iff.1 hbefore).2
  · rw [FileTree.sight_eq_nothing_iff.2 (Option.isNone_iff_eq_none.1 hafter)]
    exact nofun

end CommandLine

end ParamSweep
