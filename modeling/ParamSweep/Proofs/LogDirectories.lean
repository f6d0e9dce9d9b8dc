import Mathlib.Data.List.Perm.Basic
import Mathlib.Data.Prod.Lex
import Mathlib.Data.String.Basic
import ParamSweep.Proofs.Accounting
import ParamSweep.Proofs.Relisting

/-!
Where the logs of a task are looked for.

The index is made by sorting all directories of tasks and writing them down one after the other, a
later one over an earlier one of the same task. So a task ends up with the last of its directories
(`lookup_dirsOf_iff`), and as the order is a linear one, which that is does not depend on the order
in which they were found. `Indexed` says it without sorting: what is the latest submission, which
tasks have a directory there, and which one is taken if there are several.
-/

namespace ParamSweep

/-! ### What a tree of logs holds -/

/-- The directory at a path holds a directory of that name. -/
def FileTree.HasDir (t : FileTree) (path name : String) : Prop :=
  ∃ entries inner, t.list path = .ok entries ∧ (name, Node.dir inner) ∈ entries

/-- The digits denote a number that fits 64 bits. -/
def Denotes (digits : List Char) (n : Nat) : Prop :=
  digits ≠ [] ∧ (∀ d ∈ digits, d.isDigit = true) ∧ Decimal.natural digits = n ∧
    n ≤ Decimal.wordLimit

theorem Denotes.unique {digits : List Char} {n n' : Nat} (h : Denotes digits n)
    (h' : Denotes digits n') : n = n' := h.2.2.1.symm.trans h'.2.2.1

/-- The name of the directory of a submission. -/
def NamesSubmission (t : FileTree) (root name : String) : Prop :=
  t.HasDir root name ∧ "sub_".toList <+: name.toList ∧ t.isDir (Path.join root name) = true

/-- The directory of the latest submission is the one with the greatest name. -/
def LatestSubmission (t : FileTree) (root dir : String) : Prop :=
  ∃ name, NamesSubmission t root name ∧ (∀ other, NamesSubmission t root other → other ≤ name) ∧
    dir = Path.join root name

/-- A directory of a task lies in the directory of a job of the submission, and both are named by
numbers. -/
structure TaskDirectory (t : FileTree) (dir : String) (task job : Nat) (jobName taskName : String) :
    Prop where
  jobDir : t.HasDir dir jobName
  job : Denotes jobName.toList job
  taskDir : t.HasDir (Path.join dir jobName) taskName
  task : ∃ digits, taskName.toList = "array_".toList ++ digits ∧ Denotes digits task

/-- The job is that of the batch that is asked for. -/
def OfBatch (batch : Option BatchHandle) (job : Nat) : Prop :=
  ∃ b, batch = some b ∧ Denotes b.id.toList job

theorem OfBatch.unique {batch : Option BatchHandle} {job job' : Nat} (h : OfBatch batch job)
    (h' : OfBatch batch job') : job = job' := by
  obtain ⟨b, rfl, hjob⟩ := h
  obtain ⟨_, hsome, hjob'⟩ := h'
  cases hsome
  exact hjob.unique hjob'

/-- Which one of the directories of a task is taken. -/
structure Taken (t : FileTree) (dir : String) (batch : Option BatchHandle) (task job : Nat)
    (jobName taskName : String) : Prop where
  there : TaskDirectory t dir task job jobName taskName
  /-- It is that of the batch if there is one. -/
  ofBatch : ∀ {job' jobName' taskName'}, TaskDirectory t dir task job' jobName' taskName' →
    OfBatch batch job' → OfBatch batch job
  /-- Otherwise it is one of the greatest job. -/
  greatest : ¬ OfBatch batch job → ∀ {job' jobName' taskName'},
    TaskDirectory t dir task job' jobName' taskName' → job' ≤ job
  /-- Of those that write the same numbers in other ways it is the greatest path, name by name. -/
  spelling : ∀ {jobName' taskName'}, TaskDirectory t dir task job jobName' taskName' →
    jobName' < jobName ∨ jobName' = jobName ∧ taskName' ≤ taskName

/-- What an index says of the logs below a root. -/
structure Indexed (t : FileTree) (root : String) (batch : Option BatchHandle) (i : TaskLogIndex) :
    Prop where
  /-- It does not depend on the order in which directories are listed. -/
  relisted : ∀ t', t.Relisted t' → TaskLogIndex.discover t' root batch = i
  /-- It is about the latest submission. -/
  submission : ∀ dir, i.submissionDir = some dir ↔ LatestSubmission t root dir
  /-- It knows the tasks that have a directory there. -/
  tasks : ∀ task, (i.taskDir? task).isSome ↔
    ∃ dir job jobName taskName, LatestSubmission t root dir ∧
      TaskDirectory t dir task job jobName taskName
  /-- It knows which directory that is. -/
  taken : ∀ task path, i.taskDir? task = some path ↔
    ∃ dir job jobName taskName, LatestSubmission t root dir ∧
      Taken t dir batch task job jobName taskName ∧
        path = Path.join (Path.join dir jobName) taskName

/-! ### The names of directories -/

theorem denotes_iff {digits : List Char} {n : Nat} :
    wordOfDigits? digits = some n ↔ Denotes digits n := wordOfDigits?_eq_some_iff

theorem mem_directoryNames_iff {t : FileTree} {path name : String} :
    name ∈ directoryNames t path ↔ t.HasDir path name := by
  rw [directoryNames, FileTree.HasDir]
  rcases t.list path with fault | entries
  · simp
  · simp only [List.mem_map, List.mem_filter, Prod.exists, exists_and_right, exists_eq_right,
      Except.ok.injEq, exists_and_left, exists_eq_left']
    constructor
    · rintro ⟨n, hmem, hdir⟩
      cases n with
      | file _ _ => cases hdir
      | dir inner => exact ⟨inner, hmem⟩
    · rintro ⟨inner, hmem⟩
      exact ⟨_, hmem, rfl⟩

theorem greatest?_eq_none_iff {names : List String} : greatest? names = none ↔ names = [] := by
  cases names with
  | nil => simp [greatest?]
  | cons first rest =>
    rw [greatest?]
    split
    · split <;> simp
    · simp

theorem greatest?_spec {names : List String} {name : String} (h : greatest? names = some name) :
    name ∈ names ∧ ∀ other ∈ names, other ≤ name := by
  induction names generalizing name with
  | nil => cases h
  | cons first rest ih =>
    rw [greatest?] at h
    split at h
    next last hrest =>
      obtain ⟨hmem, hmax⟩ := ih hrest
      split at h
      next hle =>
        cases h
        exact ⟨List.mem_cons_self,
          List.forall_mem_cons.2 ⟨le_refl _, fun other hother => (hmax other hother).trans hle⟩⟩
      next hnot =>
        cases h
        exact ⟨List.mem_cons_of_mem _ hmem,
          List.forall_mem_cons.2 ⟨(not_le.1 hnot).le, hmax⟩⟩
    next hrest =>
      cases h
      rw [greatest?_eq_none_iff.1 hrest]
      simp

theorem greatest?_eq_some_iff {names : List String} {name : String} :
    greatest? names = some name ↔ name ∈ names ∧ ∀ other ∈ names, other ≤ name := by
  refine ⟨greatest?_spec, fun ⟨hmem, hmax⟩ => ?_⟩
  have hne : greatest? names ≠ none := fun hnone => by
    rw [greatest?_eq_none_iff.1 hnone] at hmem
    cases hmem
  obtain ⟨last, hlast⟩ := Option.ne_none_iff_exists'.1 hne
  obtain ⟨hmem', hmax'⟩ := greatest?_spec hlast
  rw [hlast, le_antisymm (hmax last hmem') (hmax' name hmem)]

/-- In which order names are given does not matter to which is the greatest. -/
theorem greatest?_perm {names names' : List String} (h : names.Perm names') :
    greatest? names = greatest? names' := by
  refine Option.ext fun name => ?_
  rw [greatest?_eq_some_iff, greatest?_eq_some_iff, h.mem_iff]
  simp only [h.mem_iff]

/-! ### The order of directories -/

namespace TaskLogDir

variable {a b c : TaskLogDir}

/-- What directories are ordered by, the first first. -/
def key (d : TaskLogDir) : Bool ×ₗ ℕ ×ₗ ℕ ×ₗ String ×ₗ String :=
  toLex (d.preferred, toLex (d.job, toLex (d.task, toLex (d.jobName, d.taskName))))

theorem le_iff_key : le a b = true ↔ a.key ≤ b.key := by
  obtain ⟨preferred, job, task, jobName, taskName⟩ := a
  obtain ⟨preferred', job', task', jobName', taskName'⟩ := b
  simp only [le, key, Prod.Lex.toLex_le_toLex]
  by_cases hpreferred : preferred = preferred'
  · subst hpreferred
    by_cases hjob : job = job'
    · subst hjob
      by_cases htask : task = task'
      · subst htask
        by_cases hname : jobName = jobName'
        · subst hname
          simp
        · simp [hname]
      · simp [htask]
    · simp [hjob]
  · cases preferred <;> cases preferred' <;> simp_all

theorem key_injective : Function.Injective key := by
  rintro ⟨preferred, job, task, jobName, taskName⟩ ⟨preferred', job', task', jobName', taskName'⟩ h
  simpa [key] using h

theorem le_self (a : TaskLogDir) : le a a = true := le_iff_key.2 le_rfl

theorem le_trans (h : le a b = true) (h' : le b c = true) : le a c = true :=
  le_iff_key.2 ((le_iff_key.1 h).trans (le_iff_key.1 h'))

theorem le_antisymm (h : le a b = true) (h' : le b a = true) : a = b :=
  key_injective ((le_iff_key.1 h).antisymm (le_iff_key.1 h'))

theorem le_total (a b : TaskLogDir) : (le a b || le b a) = true := by
  rw [Bool.or_eq_true, le_iff_key, le_iff_key]
  exact LinearOrder.le_total _ _

theorem sorted_mergeSort (found : List TaskLogDir) :
    (found.mergeSort le).Pairwise fun a b => le a b = true :=
  @List.pairwise_mergeSort TaskLogDir le (fun _ _ _ => le_trans) le_total found

/-- In which order directories are found does not matter once they are sorted. -/
theorem mergeSort_eq_of_perm {found found' : List TaskLogDir} (h : found.Perm found') :
    found.mergeSort le = found'.mergeSort le :=
  List.Perm.eq_of_pairwise (fun _ _ _ _ h h' => le_antisymm h h') (sorted_mergeSort found)
    (sorted_mergeSort found')
    ((List.mergeSort_perm found le).trans (h.trans (List.mergeSort_perm found' le).symm))

/-- Of two directories of one task the batch's goes first, then that of the greater job, then the
one that is spelled greater. -/
theorem le_mk_iff {preferred preferred' : Bool} {job job' task : Nat}
    {jobName jobName' taskName taskName' : String} :
    le ⟨preferred', job', task, jobName', taskName'⟩
        ⟨preferred, job, task, jobName, taskName⟩ = true ↔
      (preferred' = true → preferred = true) ∧
        ((preferred' = true ↔ preferred = true) → job' ≤ job ∧
          (job' = job → jobName' < jobName ∨ jobName' = jobName ∧ taskName' ≤ taskName)) := by
  simp only [le_iff_key, key, Prod.Lex.toLex_le_toLex, lt_self_iff_false, true_and, false_or]
  have hjob : ∀ spelled : Prop, (job' < job ∨ job' = job ∧ spelled) ↔
      job' ≤ job ∧ (job' = job → spelled) := by
    intro spelled
    rw [le_iff_lt_or_eq]
    constructor
    · rintro (hlt | ⟨heq, hspelled⟩)
      · exact ⟨.inl hlt, fun heq => absurd heq hlt.ne⟩
      · exact ⟨.inr heq, fun _ => hspelled⟩
    · rintro ⟨hlt | heq, hspelled⟩
      · exact .inl hlt
      · exact .inr ⟨heq, hspelled heq⟩
  rw [hjob]
  cases preferred <;> cases preferred' <;> simp

end TaskLogDir

namespace TaskLogIndex

variable {t t' : FileTree} {root dir path : String} {batch : Option BatchHandle}
  {preferred : Option Nat} {task job : Nat} {found : List TaskLogDir}

/-! ### The table of directories -/

/-- A table of directories is set like a table of states. -/
theorem setDir_eq_insert (task : Nat) (dir : String) (dirs : List (Nat × String)) :
    setDir task dir dirs = TaskStates.insert task dir dirs := by
  induction dirs with
  | nil => rfl
  | cons p rest ih => rw [setDir, TaskStates.insert, ih]

theorem lookup_setDir (dirs : List (Nat × String)) (task other : Nat) (dir : String) :
    (setDir task dir dirs).lookup other = if other = task then some dir else dirs.lookup other := by
  rw [setDir_eq_insert]
  exact TaskStates.state?_insert dirs task other dir

/-- The table of some directories, a later one over an earlier one of the same task. -/
def dirsOf (dir : String) (found : List TaskLogDir) : List (Nat × String) :=
  found.foldl (fun dirs c => setDir c.task (c.path dir) dirs) []

theorem dirsOf_concat (dir : String) (found : List TaskLogDir) (last : TaskLogDir) :
    dirsOf dir (found ++ [last]) = setDir last.task (last.path dir) (dirsOf dir found) := by
  rw [dirsOf, List.foldl_append]
  rfl

/-- A task has a directory in the table if it has one at all. -/
theorem isSome_lookup_dirsOf_iff :
    ((dirsOf dir found).lookup task).isSome ↔ ∃ c ∈ found, c.task = task := by
  induction found using List.reverseRecOn with
  | nil => simp [dirsOf]
  | append_singleton found last ih =>
    rw [dirsOf_concat, lookup_setDir]
    split
    next htask => exact ⟨fun _ => ⟨last, by simp, htask.symm⟩, fun _ => rfl⟩
    next hother =>
      rw [ih]
      simp [Ne.symm hother]

/-- The directory of a task that comes last. -/
def Last (found : List TaskLogDir) (task : Nat) (c : TaskLogDir) : Prop :=
  c ∈ found ∧ c.task = task ∧ ∀ other ∈ found, other.task = task → TaskLogDir.le other c = true

/-- Of directories in their order, a task ends up with its last one. -/
theorem lookup_dirsOf_iff (hsorted : found.Pairwise fun a b => TaskLogDir.le a b = true) :
    (dirsOf dir found).lookup task = some path ↔ ∃ c, Last found task c ∧ c.path dir = path := by
  induction found using List.reverseRecOn with
  | nil => simp [dirsOf, Last]
  | append_singleton found last ih =>
    obtain ⟨hfound, -, hlast⟩ := List.pairwise_append.1 hsorted
    have hbefore : ∀ c ∈ found, TaskLogDir.le c last = true := fun c hc => hlast c hc last (by simp)
    rw [dirsOf_concat, lookup_setDir]
    split
    next htask =>
      have hgreatest : Last (found ++ [last]) task last := by
        refine ⟨by simp, htask.symm, fun other hother _ => ?_⟩
        rcases List.mem_append.1 hother with hother | hother
        · exact hbefore other hother
        · rw [List.mem_singleton.1 hother]
          exact TaskLogDir.le_self last
      constructor
      · intro hpath
        exact ⟨last, hgreatest, Option.some.inj hpath⟩
      · rintro ⟨c, ⟨hmem, hc, hmax⟩, rfl⟩
        rw [TaskLogDir.le_antisymm (hmax last (by simp) htask.symm) (hgreatest.2.2 c hmem hc)]
    next hother =>
      rw [ih hfound]
      have hsame : ∀ c, Last found task c ↔ Last (found ++ [last]) task c := by
        intro c
        simp only [Last, List.mem_append, List.mem_singleton, or_imp, forall_and, forall_eq]
        constructor
        · rintro ⟨hmem, hc, hmax⟩
          exact ⟨.inl hmem, hc, hmax, fun htask => absurd htask.symm hother⟩
        · rintro ⟨hmem | rfl, hc, hmax, -⟩
          · exact ⟨hmem, hc, hmax⟩
          · exact absurd hc.symm hother
      simp only [hsame]

/-! ### The directories that are found -/

theorem mem_candidatesOf_iff {jobName : String} {c : TaskLogDir} :
    c ∈ candidatesOf t dir preferred jobName ↔
      ∃ job task taskName, Denotes jobName.toList job ∧
        t.HasDir (Path.join dir jobName) taskName ∧
          (∃ digits, taskName.toList = "array_".toList ++ digits ∧ Denotes digits task) ∧
            c = ⟨some job == preferred, job, task, jobName, taskName⟩ := by
  have htask : ∀ {taskName : String} {task : Nat}, taskOfName? taskName = some task ↔
      ∃ digits, taskName.toList = "array_".toList ++ digits ∧ Denotes digits task := by
    intro taskName task
    rw [taskOfName?, Option.bind_eq_some_iff]
    simp only [dropStart?_eq_some_iff, denotes_iff]
  rw [candidatesOf]
  split
  next hnone =>
    refine ⟨nofun, ?_⟩
    rintro ⟨job, _, _, hjob, -⟩
    rw [denotes_iff.2 hjob] at hnone
    cases hnone
  next job hjob =>
    simp only [List.mem_filterMap, Option.map_eq_some_iff, mem_directoryNames_iff, htask]
    constructor
    · rintro ⟨taskName, hdir, task, hdigits, rfl⟩
      exact ⟨job, task, taskName, denotes_iff.1 hjob, hdir, hdigits, rfl⟩
    · rintro ⟨job', task, taskName, hjob', hdir, hdigits, rfl⟩
      rw [hjob'.unique (denotes_iff.1 hjob)]
      exact ⟨taskName, hdir, task, hdigits, rfl⟩

theorem mem_candidates_iff {c : TaskLogDir} :
    c ∈ candidates t dir preferred ↔
      ∃ job task jobName taskName, TaskDirectory t dir task job jobName taskName ∧
        c = ⟨some job == preferred, job, task, jobName, taskName⟩ := by
  rw [candidates, List.mem_flatMap]
  simp only [mem_directoryNames_iff, mem_candidatesOf_iff]
  constructor
  · rintro ⟨jobName, hjobDir, job, task, taskName, hjob, htaskDir, htask, rfl⟩
    exact ⟨job, task, jobName, taskName, ⟨hjobDir, hjob, htaskDir, htask⟩, rfl⟩
  · rintro ⟨job, task, jobName, taskName, ⟨hjobDir, hjob, htaskDir, htask⟩, rfl⟩
    exact ⟨jobName, hjobDir, job, task, taskName, hjob, htaskDir, htask, rfl⟩

theorem candidates_perm (h : t.Relisted t') (dir : String) (preferred : Option Nat) :
    (candidates t dir preferred).Perm (candidates t' dir preferred) := by
  refine List.Perm.flatMap (h.directoryNames_perm dir) fun jobName _ => ?_
  rw [candidatesOf, candidatesOf]
  split
  · exact .refl _
  · exact (h.directoryNames_perm _).filterMap _

/-- The job that is preferred to others. -/
def preferredJob (batch : Option BatchHandle) : Option Nat :=
  batch.bind fun b => wordOfDigits? b.id.toList

theorem preferred_iff : (some job == preferredJob batch) = true ↔ OfBatch batch job := by
  rw [beq_iff_eq, eq_comm, preferredJob, Option.bind_eq_some_iff, OfBatch]
  simp only [denotes_iff]

/-- The last of the directories of a task is the one that is taken. -/
theorem last_candidates_iff {jobName taskName : String} :
    Last (candidates t dir (preferredJob batch)) task
        ⟨some job == preferredJob batch, job, task, jobName, taskName⟩ ↔
      Taken t dir batch task job jobName taskName := by
  -- what comes later in the order, in the words of `Taken`
  have hle : ∀ {job' jobName' taskName'},
      TaskLogDir.le ⟨some job' == preferredJob batch, job', task, jobName', taskName'⟩
          ⟨some job == preferredJob batch, job, task, jobName, taskName⟩ = true ↔
        (OfBatch batch job' → OfBatch batch job) ∧
          ((OfBatch batch job' ↔ OfBatch batch job) → job' ≤ job ∧
            (job' = job → jobName' < jobName ∨ jobName' = jobName ∧ taskName' ≤ taskName)) := by
    intro job' jobName' taskName'
    simp only [TaskLogDir.le_mk_iff, preferred_iff]
  constructor
  · rintro ⟨hmem, -, hmax⟩
    obtain ⟨_, _, _, _, hthere, heq⟩ := mem_candidates_iff.1 hmem
    simp only [TaskLogDir.mk.injEq] at heq
    obtain ⟨-, rfl, rfl, rfl, rfl⟩ := heq
    have hbest : ∀ {job' jobName' taskName'}, TaskDirectory t dir task job' jobName' taskName' →
        _ ∧ _ := fun hdir => hle.1 (hmax _ (mem_candidates_iff.2 ⟨_, _, _, _, hdir, rfl⟩) rfl)
    refine ⟨hthere, fun hdir => (hbest hdir).1, fun hnot _ _ _ hdir => ?_,
      fun hdir => ((hbest hdir).2 .rfl).2 rfl⟩
    have hnot' := mt (hbest hdir).1 hnot
    exact ((hbest hdir).2 ⟨fun h => absurd h hnot', fun h => absurd h hnot⟩).1
  · intro htaken
    refine ⟨mem_candidates_iff.2 ⟨_, _, _, _, htaken.there, rfl⟩, rfl, fun other hmem htask => ?_⟩
    obtain ⟨job', _, jobName', taskName', hdir, rfl⟩ := mem_candidates_iff.1 hmem
    cases htask
    refine hle.2 ⟨htaken.ofBatch hdir, fun hsame => ⟨?_, ?_⟩⟩
    · by_cases hbatch : OfBatch batch job
      · exact ((hsame.2 hbatch).unique hbatch).le
      · exact htaken.greatest hbatch hdir
    · rintro rfl
      exact htaken.spelling hdir

theorem exists_last_iff :
    (∃ c, Last (candidates t dir (preferredJob batch)) task c ∧ c.path dir = path) ↔
      ∃ job jobName taskName, Taken t dir batch task job jobName taskName ∧
        path = Path.join (Path.join dir jobName) taskName := by
  constructor
  · rintro ⟨c, hlast, rfl⟩
    obtain ⟨job, _, jobName, taskName, -, rfl⟩ := mem_candidates_iff.1 hlast.1
    cases hlast.2.1
    exact ⟨job, jobName, taskName, last_candidates_iff.1 hlast, rfl⟩
  · rintro ⟨job, jobName, taskName, htaken, rfl⟩
    exact ⟨_, last_candidates_iff.2 htaken, rfl⟩

/-! ### The latest submission -/

theorem mem_submissions_iff {name : String} :
    name ∈ ((directoryNames t root).filter fun name =>
      name.startsWith "sub_" && t.isDir (Path.join root name)) ↔ NamesSubmission t root name := by
  rw [List.mem_filter, mem_directoryNames_iff, Bool.and_eq_true, NamesSubmission]
  simp

theorem latestSubmissionDir_eq_some_iff :
    latestSubmissionDir t root = some dir ↔ LatestSubmission t root dir := by
  rw [latestSubmissionDir, Option.map_eq_some_iff, LatestSubmission]
  simp only [greatest?_eq_some_iff, mem_submissions_iff, and_assoc, eq_comm (a := dir)]

theorem latestSubmissionDir_of_relisted (h : t.Relisted t') (root : String) :
    latestSubmissionDir t' root = latestSubmissionDir t root := by
  rw [latestSubmissionDir, latestSubmissionDir]
  simp only [h.isDir]
  rw [greatest?_perm ((h.directoryNames_perm root).filter _)]

/-! ### The index -/

theorem discover_of_latest (h : latestSubmissionDir t root = some dir) :
    discover t root batch =
      ⟨some dir, dirsOf dir ((candidates t dir (preferredJob batch)).mergeSort TaskLogDir.le)⟩ := by
  rw [discover, h]
  rfl

/-- What is found may be written down in its order at once. -/
theorem discover_of_sorted (h : latestSubmissionDir t root = some dir)
    (hfound : (candidates t dir (preferredJob batch)).Perm found)
    (hsorted : found.Pairwise fun a b => TaskLogDir.le a b = true) :
    discover t root batch = ⟨some dir, dirsOf dir found⟩ := by
  rw [discover_of_latest h, TaskLogDir.mergeSort_eq_of_perm hfound,
    List.mergeSort_of_pairwise hsorted]

theorem discover_of_none (h : latestSubmissionDir t root = none) : discover t root batch = {} := by
  rw [discover, h]

theorem discover_of_relisted (h : t.Relisted t') (root : String) (batch : Option BatchHandle) :
    discover t' root batch = discover t root batch := by
  rcases hlatest : latestSubmissionDir t root with _ | dir
  · rw [discover_of_none hlatest,
      discover_of_none ((latestSubmissionDir_of_relisted h root).trans hlatest)]
  · rw [discover_of_latest hlatest,
      discover_of_latest ((latestSubmissionDir_of_relisted h root).trans hlatest),
      TaskLogDir.mergeSort_eq_of_perm (candidates_perm h dir _)]

/-- The table holds what was found, in whatever order that was. -/
theorem last_mergeSort_iff {c : TaskLogDir} :
    Last (found.mergeSort TaskLogDir.le) task c ↔ Last found task c := by
  simp only [Last, List.mem_mergeSort]

/-- What the index says, whatever tree it is made from and whatever batch is asked for. -/
theorem indexed_discover (t : FileTree) (root : String) (batch : Option BatchHandle) :
    Indexed t root batch (discover t root batch) := by
  refine ⟨fun t' h => discover_of_relisted h root batch, fun dir => ?_, fun task => ?_,
    fun task path => ?_⟩
  all_goals simp only [← latestSubmissionDir_eq_some_iff]
  · rcases hlatest : latestSubmissionDir t root with _ | latest
    · rw [discover_of_none hlatest]
    · rw [discover_of_latest hlatest]
  · rcases hlatest : latestSubmissionDir t root with _ | latest
    · simp [discover_of_none hlatest, taskDir?]
    · rw [discover_of_latest hlatest, taskDir?, isSome_lookup_dirsOf_iff]
      constructor
      · rintro ⟨c, hmem, rfl⟩
        obtain ⟨job, task, jobName, taskName, hdir, rfl⟩ :=
          mem_candidates_iff.1 (List.mem_mergeSort.1 hmem)
        exact ⟨latest, job, jobName, taskName, rfl, hdir⟩
      · rintro ⟨_, job, jobName, taskName, hsome, hdir⟩
        cases hsome
        exact ⟨_, List.mem_mergeSort.2 (mem_candidates_iff.2 ⟨_, _, _, _, hdir, rfl⟩), rfl⟩
  · rcases hlatest : latestSubmissionDir t root with _ | latest
    · simp [discover_of_none hlatest, taskDir?]
    · rw [discover_of_latest hlatest, taskDir?,
        lookup_dirsOf_iff (TaskLogDir.sorted_mergeSort _)]
      simp only [last_mergeSort_iff, exists_last_iff]
      constructor
      · rintro ⟨job, jobName, taskName, htaken, hpath⟩
        exact ⟨latest, job, jobName, taskName, rfl, htaken, hpath⟩
      · rintro ⟨_, job, jobName, taskName, hsome, htaken, hpath⟩
        cases hsome
        exact ⟨job, jobName, taskName, htaken, hpath⟩

/-- The directories of two jobs, one of them in two spellings. -/
def twoJobs : Entries Node :=
  [("007", .dir [("array_1", .dir [])]), ("7", .dir [("array_01", .dir []), ("array_1", .dir [])]),
   ("99", .dir [("array_1", .dir []), ("array_2", .file ByteArray.empty false)])]

/-- The logs of two submissions, the later one with some jobs. -/
def twoSubmissions (jobs : Entries Node) : FileTree where
  entries := [("logs", .dir [("sub_1", .dir [("8", .dir [("array_2", .dir [])])]),
    ("sub_2", .dir jobs)])]

/-- The directories of the jobs may be listed the other way round. -/
theorem indexed_of_reversed_jobs :
    (twoSubmissions twoJobs).Relisted (twoSubmissions twoJobs.reverse) ∧
      (discover (twoSubmissions twoJobs.reverse) "logs" none).dirs =
        [(1, "logs/sub_2/99/array_1")] ∧
      (discover (twoSubmissions twoJobs.reverse) "logs" (some { id := "0007" })).dirs =
        [(1, "logs/sub_2/7/array_1")] := by
  have hrelisted : (twoSubmissions twoJobs).Relisted (twoSubmissions twoJobs.reverse) :=
    ⟨rfl, .inside [] "logs" [] (.inside [("sub_1", _)] "sub_2" []
      (.entries (by decide) (List.reverse_perm _).symm))⟩
  have hlatest : latestSubmissionDir (twoSubmissions twoJobs) "logs" = some "logs/sub_2" := by
    decide +kernel
  refine ⟨hrelisted, ?_, ?_⟩
  · rw [(indexed_discover _ "logs" _).relisted _ hrelisted,
      discover_of_sorted hlatest (.refl _) (by decide +kernel)]
    decide +kernel
  · rw [(indexed_discover _ "logs" _).relisted _ hrelisted]
    have hfound : (candidates (twoSubmissions twoJobs) "logs/sub_2"
        (preferredJob (some { id := "0007" }))).Perm
          [⟨false, 99, 1, "99", "array_1"⟩, ⟨true, 7, 1, "007", "array_1"⟩,
            ⟨true, 7, 1, "7", "array_01"⟩, ⟨true, 7, 1, "7", "array_1"⟩] := by
      decide +kernel
    rw [discover_of_sorted hlatest hfound (by decide +kernel)]
    decide +kernel

end TaskLogIndex

end ParamSweep
