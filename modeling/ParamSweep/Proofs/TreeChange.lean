import ParamSweep.Proofs.Place

/-!
What changing a tree does to what can be seen in it.

Writing files and making directories only adds to a tree: `Adds A t t'` says that every place looks
as before, or has become a directory where there was nothing, or holds a file and is one of the
places `A` that may be written. Such changes follow one another to a change of the same kind, and
whoever keeps away from `A` reads the same before and after. Taking a directory away is the one
change of another kind: `Cleared`.
-/

namespace ParamSweep

theorem Entries.find?_erase {α : Type} (key other : String) (t : Entries α) :
    (t.erase key).find? other = if key = other then none else t.find? other := by
  induction t with
  | nil => simp [erase, find?]
  | cons p rest ih =>
    obtain ⟨k, v⟩ := p
    rw [erase] at ih ⊢
    by_cases hk : k = key
    · subst hk
      rw [List.filter_cons_of_neg (by simp), ih, find?]
      by_cases ho : k = other <;> simp [ho]
    · rw [List.filter_cons_of_pos (by simpa using hk), find?, find?, ih]
      by_cases ho : k = other
      · subst ho
        simp [Ne.symm hk]
      · simp [ho]

namespace Node

/-! ### Setting a place -/

theorem nodeAt?_append (front behind : List String) (n : Node) :
    nodeAt? (front ++ behind) n = (nodeAt? front n).bind (nodeAt? behind) := by
  induction front generalizing n with
  | nil => rfl
  | cons name rest ih =>
    cases n with
    | file _ _ => rfl
    | dir entries =>
      simp only [List.cons_append, nodeAt?]
      cases Entries.find? name entries with
      | none => rfl
      | some inner => exact ih inner

/-- What is set at a place can be seen there, with all that is in it. -/
theorem nodeAt?_setAt_append (value : Option Node) (rest : List String) :
    ∀ (names : List String) (entries : Entries Node), names ≠ [] →
      (∃ inner, nodeAt? names.dropLast (.dir entries) = some (.dir inner)) →
      nodeAt? (names ++ rest) (.dir (setAt value names entries)) = value.bind (nodeAt? rest)
  | [], _, hne, _ => absurd rfl hne
  | [name], entries, _, _ => by
    cases value with
    | none => simp [setAt, nodeAt?, Entries.find?_erase]
    | some n => simp [setAt, nodeAt?, Entries.find?_insert]
  | name :: next :: more, entries, _, hparent => by
    obtain ⟨inner, hinner⟩ := hparent
    rw [List.dropLast_cons_of_ne_nil (List.cons_ne_nil next more), nodeAt?] at hinner
    obtain ⟨below, hbelow, hdir⟩ := Option.bind_eq_some_iff.1 hinner
    cases below with
    | file _ _ => cases more <;> simp [nodeAt?] at hdir
    | dir entries' =>
      have ih := nodeAt?_setAt_append value rest (next :: more) entries' (List.cons_ne_nil _ _)
        ⟨inner, hdir⟩
      have hset : setAt value (name :: next :: more) entries =
          entries.insert name (.dir (setAt value (next :: more) entries')) := by
        simp [setAt, hbelow]
      rw [hset, List.cons_append, nodeAt?, Entries.find?_insert, if_pos rfl]
      exact ih

/-- Elsewhere everything looks as before. The directories above the place hold something else, but
look the same. -/
theorem ofNode_nodeAt?_setAt (value : Option Node) :
    ∀ (names other : List String) (entries : Entries Node), ¬ names <+: other →
      Sight.ofNode (nodeAt? other (.dir (setAt value names entries))) =
        Sight.ofNode (nodeAt? other (.dir entries))
  | [], other, _, h => absurd (List.nil_prefix) h
  | _ :: _, [], _, _ => rfl
  | [name], o :: os, entries, h => by
    have hne : name ≠ o := fun he => h (by simp [he])
    cases value with
    | none => simp [setAt, nodeAt?, Entries.find?_erase, hne]
    | some n => simp [setAt, nodeAt?, Entries.find?_insert, hne]
  | name :: next :: more, o :: os, entries, h => by
    rcases hfind : Entries.find? name entries with _ | ⟨_ | entries'⟩
    · simp [setAt, hfind]
    · simp [setAt, hfind]
    · simp only [setAt, hfind, nodeAt?, Entries.find?_insert]
      by_cases hne : name = o
      · have hrest : ¬ (next :: more) <+: os := fun hp => h (List.cons_prefix_cons.2 ⟨hne, hp⟩)
        rw [if_pos hne, ← hne, hfind]
        exact ofNode_nodeAt?_setAt value (next :: more) os entries' hrest
      · rw [if_neg hne]

end Node

namespace FileTree

variable {t t' t'' : FileTree} {A B : List String → Prop}

/-! ### Sights after setting a place -/

theorem setAt_of_ne_nil {names : List String} (h : names ≠ []) (value : Option Node) :
    t.setAt names value = { t with entries := Node.setAt value names t.entries } := by
  cases names with
  | nil => exact absurd rfl h
  | cons _ _ => rfl

@[simp] theorem setAt_workingDir (names : List String) (value : Option Node) :
    (t.setAt names value).workingDir = t.workingDir := by
  cases names with
  | cons _ _ => rfl
  | nil => rcases value with _ | ⟨_ | _⟩ <;> rfl

theorem sight_setAt_other {names other : List String} (value : Option Node)
    (h : ¬ names <+: other) : (t.setAt names value).sight other = t.sight other := by
  have hne : names ≠ [] := fun hn => h (hn ▸ List.nil_prefix)
  rw [t.setAt_of_ne_nil hne]
  exact Node.ofNode_nodeAt?_setAt value names other t.entries h

theorem sight_setAt_append {names : List String} (value : Option Node) (hne : names ≠ [])
    (hparent : t.sight names.dropLast = .dir) (rest : List String) :
    (t.setAt names value).sight (names ++ rest) =
      Sight.ofNode (value.bind (Node.nodeAt? rest)) := by
  rw [t.setAt_of_ne_nil hne]
  exact congrArg Sight.ofNode
    (Node.nodeAt?_setAt_append value rest names t.entries hne (sight_eq_dir_iff.1 hparent))

/-! ### What a directory holds -/

/-- What a directory holds under a name is seen below it. -/
theorem sight_entry {place : List String} {entries : Entries Node}
    (h : t.nodeAt? place = some (.dir entries)) (name : String) :
    t.sight (place ++ [name]) = Sight.ofNode (entries.find? name) := by
  have hbelow : t.nodeAt? (place ++ [name]) = entries.find? name :=
    calc t.nodeAt? (place ++ [name])
        = (t.nodeAt? place).bind (Node.nodeAt? [name]) := Node.nodeAt?_append _ _ _
      _ = (entries.find? name).bind (Node.nodeAt? []) := by rw [h]; rfl
      _ = entries.find? name := by cases entries.find? name <;> rfl
  rw [sight, hbelow]

/-! ### Directories above what is there -/

/-- What lies above something is a directory. -/
theorem sight_of_append {front behind : List String} (hbehind : behind ≠ [])
    (h : t.sight (front ++ behind) ≠ .nothing) : t.sight front = .dir := by
  rw [Ne, sight_eq_nothing_iff, nodeAt?, Node.nodeAt?_append] at h
  rcases hfront : Node.nodeAt? front (.dir t.entries) with _ | ⟨_ | entries⟩
  · simp [hfront] at h
  · cases behind with
    | nil => exact absurd rfl hbehind
    | cons _ _ => simp [hfront, Node.nodeAt?] at h
  · exact sight_eq_dir_iff.2 ⟨entries, hfront⟩

theorem sight_above {front place : List String} (habove : front <+: place)
    (h : t.sight place = .dir) : t.sight front = .dir := by
  obtain ⟨behind, rfl⟩ := habove
  cases behind with
  | nil => rwa [List.append_nil] at h
  | cons name rest => exact sight_of_append (List.cons_ne_nil name rest) (by simp [h])

theorem sight_dropLast {place : List String} (h : t.sight place ≠ .nothing) :
    t.sight place.dropLast = .dir := by
  rcases List.eq_nil_or_concat place with rfl | ⟨front, last, rfl⟩
  · rfl
  · rw [List.concat_eq_append] at h
    rw [List.concat_eq_append, List.dropLast_concat]
    exact sight_of_append (List.cons_ne_nil _ _) h

/-- The place that names lead to lies in a directory, if there is a name at all. -/
theorem Passable.parent {here parts : List String} (h : t.Passable here parts) (hne : parts ≠ []) :
    t.sight (Path.walk here parts).dropLast = .dir := by
  obtain ⟨front, last, rfl⟩ := (List.eq_nil_or_concat parts).resolve_left hne
  rw [List.concat_eq_append] at h ⊢
  obtain ⟨hdir, -, -⟩ := (passable_append.1 h).2
  have habove : t.sight (Path.walk here front).dropLast = .dir := sight_dropLast (by simp [hdir])
  rw [Path.walk_append, Path.walk_cons, Path.walk_nil, Path.step]
  split
  · exact habove
  · split
    · exact sight_dropLast (by simp [habove])
    · rwa [List.dropLast_concat]

theorem parent_of_passable {path : String} (hpath : pathFault? path = none)
    (h : t.Passable (t.start path) (Path.parts path)) :
    t.sight (t.place path).dropLast = .dir := by
  by_cases hparts : Path.parts path = []
  · have hne : path ≠ "" := (pathFault?_eq_none_iff.1 hpath).2.1
    rw [place, hparts, Path.walk_nil, start, Path.isAbsolute_of_parts_eq_nil hparts hne]
    rfl
  · exact h.parent hparts

theorem Reaches.parent {path : String} (h : t.Reaches path) :
    t.sight (t.place path).dropLast = .dir :=
  parent_of_passable h.isPath h.passable

/-- What can be followed can be followed as long as no directory is lost. -/
theorem Passable.mono {here parts : List String}
    (hdirs : ∀ place, t.sight place = .dir → t'.sight place = .dir) (h : t.Passable here parts) :
    t'.Passable here parts := by
  induction parts generalizing here with
  | nil => exact trivial
  | cons part rest ih =>
    obtain ⟨hdir, hname, hrest⟩ := h
    exact ⟨hdirs _ hdir, hname, ih hrest⟩

theorem Reaches.mono {path : String} (h : t.Reaches path) (hwork : t'.workingDir = t.workingDir)
    (hdirs : ∀ place, t.sight place = .dir → t'.sight place = .dir) : t'.Reaches path := by
  have hstart : t'.start path = t.start path := by rw [start, start, hwork]
  refine ⟨h.isPath, ?_, fun hslash => ?_⟩
  · rw [hstart]
    exact h.passable.mono hdirs
  · rw [place_congr hwork]
    exact hdirs _ (h.isDir hslash)

/-- Below anything but a directory there is nothing. -/
theorem sight_append_of_ne_dir {front behind : List String} (h : t.sight front ≠ .dir)
    (hbehind : behind ≠ []) : t.sight (front ++ behind) = .nothing :=
  Classical.byContradiction fun hne => h (sight_of_append hbehind hne)

/-- What is set where no directory was, and has nothing below it, is all that changes. -/
theorem sight_setAt_of_bare {names : List String} {value : Option Node}
    (hparent : t.sight names.dropLast = .dir) (hdir : t.sight names ≠ .dir)
    (hbare : ∀ name rest, value.bind (Node.nodeAt? (name :: rest)) = none) (place : List String) :
    (t.setAt names value).sight place =
      if place = names then Sight.ofNode value else t.sight place := by
  have hne : names ≠ [] := by
    rintro rfl
    exact hdir rfl
  by_cases hbelow : names <+: place
  · obtain ⟨rest, rfl⟩ := hbelow
    rw [sight_setAt_append _ hne hparent]
    cases rest with
    | nil =>
      rw [List.append_nil, if_pos rfl]
      cases value <;> rfl
    | cons name rest =>
      rw [if_neg (by simp), sight_append_of_ne_dir hdir (List.cons_ne_nil _ _), hbare]
      rfl
  · have hother : place ≠ names := by
      rintro rfl
      exact hbelow List.prefix_rfl
    rw [sight_setAt_other _ hbelow, if_neg hother]

/-! ### Adding to a tree -/

/-- What writing files at the places `A` and making directories anywhere can come to. -/
structure Adds (A : List String → Prop) (t t' : FileTree) : Prop where
  workingDir : t'.workingDir = t.workingDir
  sight : ∀ place, t'.sight place = t.sight place ∨
    (t.sight place = .nothing ∧ t'.sight place = .dir) ∨
    (A place ∧ t.sight place ≠ .dir ∧ (t'.sight place).IsFile)

namespace Adds

theorem refl (A : List String → Prop) (t : FileTree) : Adds A t t := ⟨rfl, fun _ => Or.inl rfl⟩

theorem mono (h : Adds A t t') (hAB : ∀ place, A place → B place) : Adds B t t' :=
  ⟨h.workingDir, fun place =>
    (h.sight place).imp id (Or.imp id fun ⟨hA, hrest⟩ => ⟨hAB place hA, hrest⟩)⟩

theorem dir (h : Adds A t t') {place : List String} (hdir : t.sight place = .dir) :
    t'.sight place = .dir := by
  rcases h.sight place with heq | ⟨-, hdir'⟩ | ⟨-, hne, -⟩
  · rw [heq, hdir]
  · exact hdir'
  · exact absurd hdir hne

theorem isFile (h : Adds A t t') {place : List String} (hfile : (t.sight place).IsFile) :
    (t'.sight place).IsFile := by
  obtain ⟨content, executable, hfile⟩ := hfile
  rcases h.sight place with heq | ⟨hnothing, -⟩ | ⟨-, -, hfile'⟩
  · exact ⟨content, executable, heq.trans hfile⟩
  · rw [hfile] at hnothing
    cases hnothing
  · exact hfile'

/-- One change after the other. -/
theorem trans (h : Adds A t t') (h' : Adds A t' t'') : Adds A t t'' := by
  refine ⟨h'.workingDir.trans h.workingDir, fun place => ?_⟩
  rcases h'.sight place with heq' | ⟨hnothing', hdir'⟩ | ⟨hA', hne', hfile'⟩
  · rw [heq']
    exact h.sight place
  · rcases h.sight place with heq | ⟨-, hdir⟩ | ⟨-, -, hfile⟩
    · exact Or.inr (Or.inl ⟨heq ▸ hnothing', hdir'⟩)
    · rw [hdir] at hnothing'
      cases hnothing'
    · obtain ⟨_, _, hfile⟩ := hfile
      rw [hfile] at hnothing'
      cases hnothing'
  · exact Or.inr (Or.inr ⟨hA', fun hdir => hne' (h.dir hdir), hfile'⟩)

/-- Away from the places that may be written, a file is the same file. -/
theorem file_iff (h : Adds A t t') {place : List String} (hA : ¬ A place) {content : ByteArray}
    {executable : Bool} :
    t'.sight place = .file content executable ↔ t.sight place = .file content executable := by
  rcases h.sight place with heq | ⟨hnothing, hdir⟩ | ⟨hA', -⟩
  · rw [heq]
  · simp [hnothing, hdir]
  · exact absurd hA' hA

theorem isFile_iff (h : Adds A t t') {place : List String} (hA : ¬ A place) :
    (t'.sight place).IsFile ↔ (t.sight place).IsFile := by
  simp only [Sight.IsFile, h.file_iff hA]

theorem start (h : Adds A t t') (path : String) : t'.start path = t.start path := by
  rw [FileTree.start, FileTree.start, h.workingDir]

theorem place (h : Adds A t t') (path : String) : t'.place path = t.place path :=
  place_congr h.workingDir path

theorem reaches (h : Adds A t t') {path : String} (hreach : t.Reaches path) : t'.Reaches path :=
  hreach.mono h.workingDir fun _ hdir => h.dir hdir

theorem holds (h : Adds A t t') {path : String} (hholds : t.holds path = true) :
    t'.holds path = true := by
  obtain ⟨hreach, hne⟩ := holds_iff.1 hholds
  refine holds_iff.2 ⟨h.reaches hreach, ?_⟩
  rw [h.place]
  rcases h.sight (t.place path) with heq | ⟨-, hdir⟩ | ⟨-, -, _, _, hfile⟩
  · rwa [heq]
  · simp [hdir]
  · simp [hfile]

/-- Away from the places that may be written, a text is read as before. -/
theorem readText (h : Adds A t t') {path text : String} (hA : ¬ A (t.place path))
    (hread : t.readText path = .ok text) : t'.readText path = .ok text := by
  obtain ⟨bytes, hbytes, htext⟩ := except_bind_ok hread
  obtain ⟨hreach, executable, hsight⟩ := readBytes_eq_ok_iff.1 hbytes
  have hbytes' : t'.readBytes path = .ok bytes := by
    refine readBytes_eq_ok_iff.2 ⟨h.reaches hreach, executable, ?_⟩
    rw [h.place]
    exact (h.file_iff hA).2 hsight
  rw [FileTree.readText, hbytes']
  exact htext

end Adds

theorem sight_setAt_self {names : List String} (hne : names ≠ [])
    (hparent : t.sight names.dropLast = .dir) (n : Node) :
    (t.setAt names (some n)).sight names = Sight.ofNode (some n) := by
  simpa [Node.nodeAt?] using sight_setAt_append (some n) hne hparent []

/-- A new directory where there was nothing. -/
theorem adds_setAt_dir {names : List String} (hparent : t.sight names.dropLast = .dir)
    (hnothing : t.sight names = .nothing) :
    Adds (fun _ => False) t (t.setAt names (some (.dir []))) := by
  refine ⟨setAt_workingDir _ _, fun place => ?_⟩
  rw [sight_setAt_of_bare hparent (by simp [hnothing]) fun _ _ => rfl]
  split
  next hplace => exact Or.inr (Or.inl ⟨hplace ▸ hnothing, rfl⟩)
  · exact Or.inl rfl

/-- A file where there was no directory. -/
theorem adds_setAt_file {names : List String} (hparent : t.sight names.dropLast = .dir)
    (hdir : t.sight names ≠ .dir) (content : ByteArray) (executable : Bool) :
    Adds (· = names) t (t.setAt names (some (.file content executable))) := by
  refine ⟨setAt_workingDir _ _, fun place => ?_⟩
  rw [sight_setAt_of_bare hparent hdir fun _ _ => rfl]
  split
  next hplace => exact Or.inr (Or.inr ⟨hplace, hplace ▸ hdir, content, executable, rfl⟩)
  · exact Or.inl rfl

/-! ### Making directories -/

theorem adds_makeDir {path : String} (h : t.makeDir path = .ok t') :
    Adds (fun _ => False) t t' := by
  rw [makeDir] at h
  split at h
  · cases h
  next hpath =>
    obtain ⟨names, hnames, hnode⟩ := except_bind_ok h
    obtain ⟨hpass, rfl⟩ := follow_eq_ok_iff.1 hnames
    split at hnode
    · cases hnode
      exact Adds.refl _ _
    · cases hnode
    next hnothing =>
      cases hnode
      exact adds_setAt_dir (parent_of_passable hpath hpass) (sight_eq_nothing_iff.2 hnothing)

theorem adds_makeDirsWithin (fuel : Nat) (t : FileTree) (path : String) :
    Adds (fun _ => False) t (makeDirsWithin fuel t path).1 := by
  induction fuel generalizing t path with
  | zero => exact Adds.refl _ _
  | succ fuel ih =>
    rw [makeDirsWithin]
    split
    · exact Adds.refl _ _
    · split
      next hmake => exact adds_makeDir hmake
      · have habove := ih t (Path.parent path)
        split
        next hfault =>
          rw [hfault] at habove
          exact habove
        next hmade =>
          rw [hmade] at habove
          split
          next hmake => exact habove.trans (adds_makeDir hmake)
          · exact habove
      · exact Adds.refl _ _

theorem adds_makeDirs (t : FileTree) (path : String) :
    Adds (fun _ => False) t (t.makeDirs path).1 :=
  adds_makeDirsWithin _ t path

/-! ### Writing files -/

/-- The path has been written: it is reached, its content is there, and nothing but that place can
have changed apart from new directories. -/
structure Written (path : String) (content : ByteArray) (executable : Bool) (t t' : FileTree) :
    Prop where
  reaches : t'.Reaches path
  sight : t'.sight (t.place path) = .file content executable
  adds : Adds (· = t.place path) t t'

theorem written_setAt {path : String} (hreach : t.Reaches path)
    (hdir : t.sight (t.place path) ≠ .dir) (content : ByteArray) (executable : Bool) :
    Written path content executable t
      (t.setAt (t.place path) (some (.file content executable))) := by
  have hne : t.place path ≠ [] := by
    intro hnil
    rw [hnil] at hdir
    exact hdir rfl
  have hadds := adds_setAt_file hreach.parent hdir content executable
  exact ⟨hadds.reaches hreach, sight_setAt_self hne hreach.parent _, hadds⟩

namespace Written

variable {path : String} {content : ByteArray} {executable : Bool}

/-- Directories may have been made before. -/
theorem of_adds (hadds : Adds (fun _ => False) t t') (h : Written path content executable t' t'') :
    Written path content executable t t'' := by
  have hplace : t'.place path = t.place path := hadds.place path
  refine ⟨h.reaches, hplace ▸ h.sight, (hadds.mono fun _ => False.elim).trans ?_⟩
  rw [← hplace]
  exact h.adds

theorem sight_place (h : Written path content executable t t') :
    t'.sight (t'.place path) = .file content executable := by
  rw [h.adds.place]
  exact h.sight

theorem readText {text : String} (h : Written path text.toUTF8 executable t t') :
    t'.readText path = .ok text :=
  readText_of_sight h.reaches h.sight_place

end Written

/-- A path that ends in a name of its own leads to that name. -/
theorem getLast?_place {path last : String} (hparts : (Path.parts path).getLast? = some last)
    (hdot : last ≠ ".") (hdots : last ≠ "..") : (t.place path).getLast? = some last := by
  obtain ⟨front, hfront⟩ := List.getLast?_eq_some_iff.1 hparts
  rw [place, hfront, Path.walk_append, Path.walk_cons, Path.walk_nil, Path.step, if_neg hdot,
    if_neg hdots, List.getLast?_concat]

/-- What it takes to replace a file, and what that comes to. -/
theorem replaceFile_eq_ok_iff {path : String} {content : ByteArray} :
    t.replaceFile path content = .ok t' ↔
      t.Reaches path ∧ (Path.fileName path).utf8ByteSize + replacementSuffix ≤ maxName ∧
        (∀ last, (Path.parts path).getLast? = some last → last ≠ "." ∧ last ≠ "..") ∧
        t.sight (t.place path) ≠ .dir ∧
        t' = t.setAt (t.place path) (some (.file content false)) := by
  rw [replaceFile]
  rcases hresolve : t.resolve path with fault | names
  · refine iff_of_false nofun fun ⟨hreach, _⟩ => ?_
    rw [resolve_eq_ok_iff.2 ⟨hreach, rfl⟩] at hresolve
    cases hresolve
  · obtain ⟨hreach, rfl⟩ := resolve_eq_ok_iff.1 hresolve
    rw [except_ok_bind]
    by_cases hlong : maxName < (Path.fileName path).utf8ByteSize + replacementSuffix
    · rw [if_pos hlong]
      exact iff_of_false nofun fun ⟨_, hshort, _⟩ => absurd hlong (Nat.not_lt.2 hshort)
    · rw [if_neg hlong]
      have hlast : ((Path.parts path).getLast?.any fun part => part = "." || part = "..") = false ↔
          ∀ last, (Path.parts path).getLast? = some last → last ≠ "." ∧ last ≠ ".." := by
        rcases (Path.parts path).getLast? with _ | last <;> simp
      rw [← hlast]
      rcases (Path.parts path).getLast?.any fun part => part = "." || part = ".."
      · rcases hnode : t.nodeAt? (t.place path) with _ | ⟨content, executable⟩ | entries
        · simp [sight, hnode, Sight.ofNode, hreach, Nat.not_lt.1 hlong, eq_comm]
        · simp [sight, hnode, Sight.ofNode, hreach, Nat.not_lt.1 hlong, eq_comm]
        · simp [sight, hnode, Sight.ofNode]
      · simp

/-- Replacing a file writes it, and does so only where the path ends in a name of its own. -/
theorem written_replaceFile {path : String} {content : ByteArray}
    (h : t.replaceFile path content = .ok t') :
    Written path content false t t' ∧ (t.place path).getLast? = (Path.parts path).getLast? := by
  obtain ⟨hreach, -, hlast, hdir, rfl⟩ := replaceFile_eq_ok_iff.1 h
  refine ⟨written_setAt hreach hdir _ _, ?_⟩
  rcases hparts : (Path.parts path).getLast? with _ | last
  · have habsolute := Path.isAbsolute_of_parts_eq_nil (List.getLast?_eq_none_iff.1 hparts)
      (pathFault?_eq_none_iff.1 hreach.isPath).2.1
    rw [place, List.getLast?_eq_none_iff.1 hparts, start, habsolute] at hdir
    exact absurd rfl hdir
  · exact getLast?_place hparts (hlast last hparts).1 (hlast last hparts).2

/-- A file that has been made executable is as if written so. -/
theorem written_makeExecutable {path : String} {content : ByteArray} {executable : Bool}
    (hsight : t.sight (t.place path) = .file content executable)
    (h : t.makeExecutable path = .ok t') : Written path content true t t' := by
  obtain ⟨names, hnames, hwrite⟩ := except_bind_ok h
  obtain ⟨hreach, rfl⟩ := resolve_eq_ok_iff.1 hnames
  rw [sight_eq_file_iff.1 hsight] at hwrite
  cases hwrite
  exact written_setAt hreach (by simp [hsight]) _ _

/-- A file that is written at a path seen from a directory has the last name of that path. -/
theorem getLast?_of_replaceFile {dir name : String} {content : ByteArray}
    (h : t.replaceFile (Path.join dir name) content = .ok t') :
    (t.place (Path.join dir name)).getLast? = (Path.parts name).getLast? := by
  obtain ⟨hwritten, hlast⟩ := written_replaceFile h
  rw [hlast]
  by_cases habsolute : Path.isAbsolute name = true
  · rw [Path.join, if_pos (show name.startsWith "/" = true from habsolute)]
  · rw [Path.parts_join dir (Bool.not_eq_true _ ▸ habsolute), List.getLast?_append]
    rcases hparts : Path.parts name with _ | ⟨part, rest⟩
    · -- without names of its own, the path ends in a slash, and then a directory is there
      have hname : name = "" := Classical.byContradiction fun hne =>
        habsolute (Path.isAbsolute_of_parts_eq_nil hparts hne)
      have hslash : (Path.join dir name).endsWith "/" = true := by
        have hpath := (pathFault?_eq_none_iff.1 hwritten.reaches.isPath).2.1
        subst hname
        exact Path.join_empty_endsWith hpath
      have hdir := hwritten.reaches.isDir hslash
      rw [hwritten.sight_place] at hdir
      cases hdir
    · rw [List.getLast?_cons, Option.some_or]

/-! ### Taking directories away -/

/-- There is nothing left below a place, and everything that does not lie at or below it looks as
before. -/
structure Cleared (place : List String) (t t' : FileTree) : Prop where
  workingDir : t'.workingDir = t.workingDir
  below : ∀ rest, rest ≠ [] → t'.sight (place ++ rest) = .nothing
  other : ∀ names, ¬ place <+: names → t'.sight names = t.sight names

theorem cleared_setAt {names : List String} {value : Option Node}
    (hvalue : value = none ∨ value = some (.dir [])) (hne : value = none → names ≠ [])
    (hparent : t.sight names.dropLast = .dir) : Cleared names t (t.setAt names value) := by
  refine ⟨setAt_workingDir _ _, fun rest hrest => ?_, fun other hother =>
    sight_setAt_other value hother⟩
  obtain ⟨name, more, rfl⟩ := List.exists_cons_of_ne_nil hrest
  by_cases hroot : names = []
  · obtain rfl : value = some (.dir []) := hvalue.resolve_left fun hnone => hne hnone hroot
    subst hroot
    rfl
  · rw [sight_setAt_append value hroot hparent]
    rcases hvalue with rfl | rfl <;> rfl

/-- Taking a directory away clears its place or changes nothing, and it changes nothing only where
the path does not lead to a directory. -/
theorem removeDir_cases (t : FileTree) (path : String) :
    (t.Reaches path ∧ t.sight (t.place path) = .dir ∧
      Cleared (t.place path) t (t.removeDir path).1) ∨
    (¬ (t.Reaches path ∧ t.sight (t.place path) = .dir) ∧ (t.removeDir path).1 = t ∧
      (t.removeDir path).2 ≠ none) := by
  rw [removeDir]
  rcases hresolve : t.resolve path with fault | names
  · right
    refine ⟨fun ⟨hreach, _⟩ => ?_, rfl, by simp⟩
    rw [resolve_eq_ok_iff.2 ⟨hreach, rfl⟩] at hresolve
    cases hresolve
  · obtain ⟨hreach, rfl⟩ := resolve_eq_ok_iff.1 hresolve
    rcases hnode : t.nodeAt? (t.place path) with _ | ⟨content, executable⟩ | entries
    · right
      simp [sight, hnode, Sight.ofNode]
    · right
      simp [sight, hnode, Sight.ofNode]
    · left
      have hdir : t.sight (t.place path) = .dir := sight_eq_dir_iff.2 ⟨entries, hnode⟩
      refine ⟨hreach, hdir, ?_⟩
      have hemptied : Cleared (t.place path) t (t.setAt (t.place path) (some (.dir []))) :=
        cleared_setAt (Or.inr rfl) (by simp) hreach.parent
      rcases hlast : (Path.parts path).getLast? with _ | last
      · simpa [hnode] using hemptied
      · by_cases hdot : last = "."
        · simpa [hnode, hdot] using hemptied
        · by_cases hdots : last = ".."
          · simpa [hnode, hdots] using hemptied
          · have hne : t.place path ≠ [] := by
              intro hnil
              simpa [hnil] using getLast?_place (t := t) hlast hdot hdots
            simpa [hnode, hdot, hdots] using
              cleared_setAt (t := t) (Or.inl rfl) (fun _ => hne) hreach.parent

end FileTree

end ParamSweep
