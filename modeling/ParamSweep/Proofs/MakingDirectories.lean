import ParamSweep.Proofs.TreeOrder
import ParamSweep.Proofs.Writing

/-!
Where directories are made.

A directory is made with those that it lies in, and each of these is a place that its path leads
through (`builds_makeDirs`). So of the directories that there are after a suite has been written
every one was there before or lies on the way to something that was written. `Builds M` says this of
an operation: it adds to the tree, makes directories at the places `M` only, and keeps the names in
their order.

How far up the making begins is decided by `Path.parent`, which takes the text of a path apart from
its end; `Path.parent_cases` says what is left of the path.
-/

namespace ParamSweep

namespace Path

/-! ### The directory that a path lies in -/

/-- A text with anything but slashes in it has a name. -/
theorem parts_ne_nil {s : String} {c : Char} (hmem : c ∈ s.toList) (hc : c ≠ '/') :
    parts s ≠ [] := by
  have hsome : ∀ cs : List Char, c ∈ cs → ∃ piece ∈ Text.splitOn '/' cs, piece ≠ [] := by
    intro cs hcs
    induction cs with
    | nil => cases hcs
    | cons d rest ih =>
      rw [Text.splitOn]
      split
      next hd =>
        rcases List.mem_cons.1 hcs with rfl | hcs
        · exact absurd hd hc
        · obtain ⟨piece, hpiece, hne⟩ := ih hcs
          exact ⟨piece, List.mem_cons_of_mem _ hpiece, hne⟩
      · split
        next piece pieces _ => exact ⟨d :: piece, List.mem_cons_self, List.cons_ne_nil _ _⟩
        · exact ⟨[d], List.mem_cons_self, List.cons_ne_nil _ _⟩
  obtain ⟨piece, hpiece, hne⟩ := hsome s.toList hmem
  rw [parts_eq]
  refine List.ne_nil_of_mem (a := String.ofList piece) (List.mem_map_of_mem ?_)
  exact List.mem_filter.2 ⟨hpiece, by simpa using hne⟩

theorem dropTrailing_slash (rest : List Char) : dropTrailing ('/' :: rest) = dropTrailing rest := by
  rw [dropTrailing]

theorem dropTrailing_point (rest : List Char) :
    dropTrailing ('.' :: '/' :: rest) = dropTrailing rest := by
  rw [dropTrailing, dropTrailing_slash]

theorem dropTrailing_other {c : Char} {rest : List Char} (hc : c ≠ '/')
    (hpoint : c = '.' → ∀ more, rest ≠ '/' :: more) : dropTrailing (c :: rest) = c :: rest := by
  rw [dropTrailing.eq_3]
  · rintro rest' ⟨⟩
    exact hc rfl
  · rintro rest' ⟨⟩
    exact hpoint rfl _ rfl

/-- What is dropped behind a slash ends with a slash. -/
theorem slash_dropTrailing : ∀ rest : List Char,
    ∃ front, '/' :: rest = front ++ '/' :: dropTrailing rest
  | [] => ⟨[], rfl⟩
  | c :: rest => by
    by_cases hc : c = '/'
    · subst hc
      obtain ⟨front, hfront⟩ := slash_dropTrailing rest
      exact ⟨'/' :: front, by rw [dropTrailing_slash, List.cons_append, ← hfront]⟩
    · by_cases hpoint : c = '.' ∧ ∃ more, rest = '/' :: more
      · obtain ⟨rfl, more, rfl⟩ := hpoint
        obtain ⟨front, hfront⟩ := slash_dropTrailing more
        exact ⟨'/' :: '.' :: front, by
          rw [dropTrailing_point, List.cons_append, List.cons_append, ← hfront]⟩
      · have hkept : dropTrailing (c :: rest) = c :: rest :=
          dropTrailing_other hc fun h more hmore => hpoint ⟨h, more, hmore⟩
        exact ⟨[], by rw [hkept, List.nil_append]⟩

theorem dropTrailing_ne_slash : ∀ cs rest : List Char, dropTrailing cs ≠ '/' :: rest
  | [], _ => nofun
  | c :: cs, rest => by
    by_cases hc : c = '/'
    · subst hc
      rw [dropTrailing_slash]
      exact dropTrailing_ne_slash cs rest
    · by_cases hpoint : c = '.' ∧ ∃ more, cs = '/' :: more
      · obtain ⟨rfl, more, rfl⟩ := hpoint
        rw [dropTrailing_point]
        exact dropTrailing_ne_slash more rest
      · rw [dropTrailing_other hc fun h more hmore => hpoint ⟨h, more, hmore⟩]
        rintro ⟨⟩
        exact hc rfl

theorem dropTrailing_suffix (cs : List Char) : dropTrailing cs <:+ cs := by
  obtain ⟨front, hfront⟩ := slash_dropTrailing cs
  rcases front with _ | ⟨d, front⟩
  · rw [List.nil_append, List.cons.injEq] at hfront
    exact hfront.2 ▸ List.suffix_refl _
  · rw [List.cons_append, List.cons.injEq] at hfront
    exact ⟨front ++ ['/'], by rw [List.append_assoc, List.singleton_append, ← hfront.2]⟩

/-- A path is its parent, a slash and something with a name in it, unless there is nothing above. -/
theorem parent_cases (path : String) :
    parent path = "" ∨ (parent path = "/" ∧ isAbsolute path = true) ∨
      ∃ rest, path = parent path ++ "/" ++ rest ∧ parts rest ≠ [] := by
  obtain ⟨trailing, htrailing⟩ := dropTrailing_suffix path.toList.reverse
  have hinside := List.takeWhile_append_dropWhile (p := (· ≠ '/'))
    (l := dropTrailing path.toList.reverse)
  have hparent : parent path =
      if String.ofList (dropTrailing ((dropTrailing path.toList.reverse).dropWhile
          (· ≠ '/'))).reverse = "" && isAbsolute path then "/"
      else String.ofList (dropTrailing ((dropTrailing path.toList.reverse).dropWhile
          (· ≠ '/'))).reverse := rfl
  have hhead := List.head?_dropWhile_not (· ≠ '/') (dropTrailing path.toList.reverse)
  revert hparent hinside hhead
  generalize (dropTrailing path.toList.reverse).dropWhile (· ≠ '/') = inside
  generalize (dropTrailing path.toList.reverse).takeWhile (· ≠ '/') = last
  intro hinside hparent hhead
  by_cases hnone : dropTrailing inside = []
  · by_cases habsolute : isAbsolute path = true
    · exact .inr (.inl ⟨by simp [hparent, hnone, habsolute], habsolute⟩)
    · exact .inl (by simp [hparent, hnone, habsolute])
  · rcases inside with _ | ⟨c, below⟩
    · exact absurd rfl hnone
    obtain rfl : c = '/' := by simpa using hhead
    rw [dropTrailing_slash] at hparent hnone
    obtain ⟨dropped, hdropped⟩ := slash_dropTrailing below
    have hpath : path.toList =
        (dropTrailing below).reverse ++ '/' :: (trailing ++ last ++ dropped).reverse := by
      rw [← List.reverse_inj, ← htrailing, ← hinside, hdropped]
      simp
    have hlast : ∃ d ∈ last, d ≠ '/' := by
      rcases last with _ | ⟨d, more⟩
      · exact absurd hinside.symm (dropTrailing_ne_slash _ _)
      · refine ⟨d, List.mem_cons_self, ?_⟩
        rintro rfl
        exact dropTrailing_ne_slash _ _ hinside.symm
    obtain ⟨d, hd, hne⟩ := hlast
    refine .inr (.inr ⟨String.ofList (trailing ++ last ++ dropped).reverse, ?_, ?_⟩)
    · apply String.toList_inj.1
      simp [hparent, hnone, hpath]
    · exact parts_ne_nil (c := d) (by simp [hd]) hne

theorem isAbsolute_parent {path : String} (h : parent path ≠ "") :
    isAbsolute (parent path) = isAbsolute path := by
  rcases parent_cases path with hnone | ⟨hroot, habsolute⟩ | ⟨rest, hpath, -⟩
  · exact absurd hnone h
  · rw [hroot, habsolute]
    exact isAbsolute_iff.2 (by simp)
  · calc isAbsolute (parent path)
        = isAbsolute (parent path ++ ("/" ++ rest)) := (isAbsolute_append h _).symm
      _ = isAbsolute path := by rw [← String.append_assoc, ← hpath]

theorem parts_parent {path : String} (h : parent path ≠ "") :
    parts (parent path) <+: parts path := by
  rcases parent_cases path with hnone | ⟨hroot, -⟩ | ⟨rest, hpath, -⟩
  · exact absurd hnone h
  · rw [hroot]
    exact List.nil_prefix
  · exact ⟨parts rest, by rw [← parts_append_slash, ← hpath]⟩

theorem prefix_of_concat_eq {front behind names : List String} {last : String}
    (h : names ++ [last] = front ++ behind) (hne : behind ≠ []) : front <+: names := by
  refine (List.prefix_concat_iff.1 ⟨behind, h.symm⟩).resolve_left ?_
  rintro rfl
  exact hne (List.self_eq_append_right.1 h)

/-- A name leads on behind a place as it does anywhere, unless it leads up from there. -/
theorem step_append (here : List String) {behind : List String} {name : String}
    (h : ¬ (name = ".." ∧ behind = [])) :
    step (here ++ behind) name = here ++ step behind name := by
  rw [step, step]
  split
  · rfl
  · split
    next hdots => exact List.dropLast_append_of_ne_nil fun hnil => h ⟨hdots, hnil⟩
    · exact List.append_assoc _ _ _

/-- Names that lead down and nowhere else. -/
def Plain (names : List String) : Prop := ∀ name ∈ names, name ≠ "." ∧ name ≠ ".."

instance (names : List String) : Decidable (Plain names) :=
  inferInstanceAs (Decidable (∀ name ∈ names, _))

theorem walk_of_plain {names : List String} (h : Plain names) (here : List String) :
    walk here names = here ++ names := by
  induction names generalizing here with
  | nil => simp
  | cons name rest ih =>
    obtain ⟨⟨hdot, hdots⟩, hrest⟩ := List.forall_mem_cons.1 h
    rw [walk_cons, step, if_neg hdot, if_neg hdots, ih hrest, List.append_assoc,
      List.singleton_append]

/-- Without `..` the way never leads up. -/
theorem prefix_walk {names : List String} (h : ".." ∉ names) (here : List String) :
    here <+: walk here names := by
  induction names generalizing here with
  | nil => exact List.prefix_refl _
  | cons name rest ih =>
    obtain ⟨hname, hrest⟩ := List.ne_and_not_mem_of_not_mem_cons h
    have hstep : here <+: step here name := by
      rw [step, if_neg (Ne.symm hname)]
      split
      · exact List.prefix_refl _
      · exact List.prefix_append _ _
    exact hstep.trans (ih hrest _)

/-- A path that leads to something strictly inside the directory that it is seen from. -/
def Inside (path : String) : Prop :=
  isAbsolute path = false ∧ Plain (parts path) ∧ parts path ≠ []

theorem inside_of_single {name : String} (hne : name ≠ "") (hslash : '/' ∉ name.toList)
    (hname : name ≠ "." ∧ name ≠ "..") : Inside name := by
  have hparts := parts_of_not_mem hne hslash
  refine ⟨isAbsolute_of_not_mem hslash, ?_, ?_⟩
  · rw [hparts]
    exact fun _ hmem => List.mem_singleton.1 hmem ▸ hname
  · simp [hparts]

theorem IsName.inside {name : String} (h : IsName name) : Inside name :=
  inside_of_single h.1 h.2.1 ⟨h.2.2.1, h.2.2.2.1⟩

end Path

namespace FileTree

variable {t t' t'' : FileTree} {M M' : List String → Prop}

/-! ### The way to a place -/

/-- A place that a path leads through or to. -/
def OnWay (t : FileTree) (path : String) (place : List String) : Prop :=
  ∃ front, front <+: Path.parts path ∧ place = Path.walk (t.start path) front

theorem onWay_place (t : FileTree) (path : String) : t.OnWay path (t.place path) :=
  ⟨_, List.prefix_refl _, rfl⟩

theorem OnWay.congr {path : String} {place : List String} (h : t.OnWay path place)
    (hdir : t'.workingDir = t.workingDir) : t'.OnWay path place := by
  obtain ⟨front, hfront, rfl⟩ := h
  exact ⟨front, hfront, by rw [start, start, hdir]⟩

theorem OnWay.of_parent {path : String} {place : List String}
    (h : t.OnWay (Path.parent path) place) (hne : Path.parent path ≠ "") : t.OnWay path place := by
  obtain ⟨front, hfront, rfl⟩ := h
  exact ⟨front, hfront.trans (Path.parts_parent hne),
    by rw [start, start, Path.isAbsolute_parent hne]⟩

/-- Where the path has no `..` in it, the way stays above its end. -/
theorem OnWay.prefix_place {path : String} {place : List String} (h : t.OnWay path place)
    (hup : ".." ∉ Path.parts path) : place <+: t.place path := by
  obtain ⟨front, ⟨behind, hparts⟩, rfl⟩ := h
  rw [FileTree.place, ← hparts, Path.walk_append]
  exact Path.prefix_walk (fun hmem => hup (hparts ▸ List.mem_append_right _ hmem)) _

theorem place_join_inside (t : FileTree) (dir : String) {name : String} (h : Path.Inside name) :
    t.place (Path.join dir name) = t.place dir ++ Path.parts name := by
  rw [t.place_join dir h.1, Path.walk_of_plain h.2.1]

/-- The way to something inside a directory is the way to the directory, and then the way down. -/
theorem OnWay.of_join {dir name : String} {place : List String} (hname : Path.Inside name)
    (h : t.OnWay (Path.join dir name) place) :
    t.OnWay dir place ∨ ∃ front, front <+: Path.parts name ∧ place = t.place dir ++ front := by
  obtain ⟨habsolute, hplain, -⟩ := hname
  obtain ⟨front, hfront, rfl⟩ := h
  rw [t.start_join dir habsolute]
  obtain ⟨behind, hparts⟩ := hfront
  rw [Path.parts_join dir habsolute] at hparts
  rcases List.append_eq_append_iff.1 hparts with ⟨more, hdir, -⟩ | ⟨below, rfl, hname⟩
  · exact .inl ⟨front, ⟨more, hdir.symm⟩, rfl⟩
  · refine .inr ⟨below, ⟨behind, hname.symm⟩, ?_⟩
    have hbelow : Path.Plain below := fun part hpart =>
      hplain part (hname ▸ List.mem_append_left _ hpart)
    rw [Path.walk_append, Path.walk_of_plain hbelow]
    rfl

/-- Names without `..` that can be followed in one tree can be followed in another that has a
directory where they end. -/
theorem Passable.of_dir {here parts : List String} (h : t'.Passable here parts)
    (hup : ".." ∉ parts) (hdir : t.sight (Path.walk here parts) = .dir) :
    t.Passable here parts := by
  induction parts generalizing here with
  | nil => exact trivial
  | cons part rest ih =>
    obtain ⟨-, hname, hrest⟩ := h
    exact ⟨sight_above (Path.prefix_walk hup here) hdir, hname,
      ih hrest (fun hmem => hup (List.mem_cons_of_mem _ hmem)) hdir⟩

/-- Every place on the way to something that a path reaches is a directory, short of its end. -/
theorem Reaches.sight_walk {path : String} (h : t.Reaches path) {front behind : List String}
    (hparts : Path.parts path = front ++ behind) (hne : behind ≠ []) :
    t.sight (Path.walk (t.start path) front) = .dir := by
  obtain ⟨name, rest, rfl⟩ := List.exists_cons_of_ne_nil hne
  have hpass := h.passable
  rw [hparts, passable_append] at hpass
  exact hpass.2.1

/-- Files have been written and directories made, these at the places `M` only, and the names are
still in their order. -/
structure Builds (M : List String → Prop) (t t' : FileTree) : Prop where
  adds : Adds (fun _ => True) t t'
  made : ∀ {place}, t'.sight place = .dir → t.sight place = .dir ∨ M place
  sorted : t.Sorted → t'.Sorted

namespace Builds

theorem refl (M : List String → Prop) (t : FileTree) : Builds M t t :=
  ⟨Adds.refl _ _, .inl, id⟩

theorem mono (h : Builds M t t') (hM : ∀ place, M place → M' place) : Builds M' t t' :=
  ⟨h.adds, fun hdir => (h.made hdir).imp_right (hM _), h.sorted⟩

theorem trans (h : Builds M t t') (h' : Builds M t' t'') : Builds M t t'' :=
  ⟨h.adds.trans h'.adds, fun hdir => (h'.made hdir).elim h.made .inr, h'.sorted ∘ h.sorted⟩

end Builds

theorem builds_setAt_dir {names : List String} (hparent : t.sight names.dropLast = .dir)
    (hnothing : t.sight names = .nothing) :
    Builds (· = names) t (t.setAt names (some (.dir []))) := by
  refine ⟨(adds_setAt_dir hparent hnothing).mono fun _ => False.elim, fun {place} hdir => ?_,
    fun hsorted => sorted_setAt hsorted _ fun n hn => ?_⟩
  · rw [sight_setAt_of_bare hparent (by simp [hnothing]) fun _ _ => rfl] at hdir
    split at hdir
    next hplace => exact .inr hplace
    · exact .inl hdir
  · cases hn
    exact Node.sorted_emptyDir

theorem builds_setAt_file {names : List String} (hparent : t.sight names.dropLast = .dir)
    (hdir : t.sight names ≠ .dir) (content : ByteArray) (executable : Bool) :
    Builds M t (t.setAt names (some (.file content executable))) := by
  refine ⟨(adds_setAt_file hparent hdir _ _).mono fun _ _ => trivial, fun {place} hplace => ?_,
    fun hsorted => sorted_setAt hsorted _ fun n hn => ?_⟩
  · rw [sight_setAt_of_bare hparent hdir fun _ _ => rfl] at hplace
    split at hplace
    · cases hplace
    · exact .inl hplace
  · cases hn
    exact Node.sorted_file _ _

/-! ### Making directories -/

theorem makeDir_ok {path : String} (h : t.makeDir path = .ok t') :
    Builds (· = t.place path) t t' ∧ t'.Reaches path ∧ t'.sight (t'.place path) = .dir := by
  rw [makeDir] at h
  split at h
  · cases h
  next hpath =>
    obtain ⟨names, hnames, hnode⟩ := except_bind_ok h
    obtain ⟨hpass, rfl⟩ := follow_eq_ok_iff.1 hnames
    split at hnode
    next entries hentries =>
      cases hnode
      have hdir : t.sight (t.place path) = .dir := sight_eq_dir_iff.2 ⟨entries, hentries⟩
      exact ⟨Builds.refl _ _, ⟨hpath, hpass, fun _ => hdir⟩, hdir⟩
    · cases hnode
    next hnothing =>
      cases hnode
      have hparent := parent_of_passable hpath hpass
      have hnothing : t.sight (t.place path) = .nothing := sight_eq_nothing_iff.2 hnothing
      have hbuilds := builds_setAt_dir hparent hnothing
      have hne : t.place path ≠ [] := by
        intro hnil
        rw [hnil] at hnothing
        cases hnothing
      have hdir : (t.setAt (t.place path) (some (.dir []))).sight
          ((t.setAt (t.place path) (some (.dir []))).place path) = .dir := by
        rw [hbuilds.adds.place]
        exact sight_setAt_self hne hparent _
      have hpass' : (t.setAt (t.place path) (some (.dir []))).Passable
          ((t.setAt (t.place path) (some (.dir []))).start path) (Path.parts path) := by
        rw [hbuilds.adds.start]
        exact hpass.mono fun _ hdir => hbuilds.adds.dir hdir
      exact ⟨hbuilds, ⟨hpath, hpass', fun _ => hdir⟩, hdir⟩

theorem builds_makeDirsWithin (fuel : Nat) (t : FileTree) (path : String) :
    Builds (t.OnWay path) t (makeDirsWithin fuel t path).1 := by
  have hmake : ∀ {t t' : FileTree} {path : String}, t.makeDir path = .ok t' →
      Builds (t.OnWay path) t t' := fun {t t' path} h =>
    (makeDir_ok h).1.mono fun place hplace => hplace ▸ t.onWay_place path
  induction fuel generalizing t path with
  | zero => exact Builds.refl _ _
  | succ fuel ih =>
    rw [makeDirsWithin]
    split
    · exact Builds.refl _ _
    · split
      next hok => exact hmake hok
      · have habove : Builds (t.OnWay path) t (makeDirsWithin fuel t (Path.parent path)).1 := by
          by_cases hne : Path.parent path = ""
          · rw [hne]
            cases fuel <;> exact Builds.refl _ _
          · exact (ih t (Path.parent path)).mono fun place hplace => hplace.of_parent hne
        split
        next hfault =>
          rw [hfault] at habove
          exact habove
        next hmade =>
          rw [hmade] at habove
          split
          next hok =>
            exact habove.trans ((hmake hok).mono fun place hplace =>
              hplace.congr habove.adds.workingDir.symm)
          · exact habove
      · exact Builds.refl _ _

/-- Making a directory makes directories on the way there only. -/
theorem builds_makeDirs (t : FileTree) (path : String) :
    Builds (t.OnWay path) t (t.makeDirs path).1 :=
  builds_makeDirsWithin _ t path

/-- A directory that has been made is there. -/
theorem makeDirs_ok {path : String} (h : t.makeDirs path = (t', none)) (hne : path ≠ "") :
    t'.Reaches path ∧ t'.sight (t'.place path) = .dir := by
  rw [makeDirs, makeDirsWithin, if_neg hne] at h
  split at h
  next hok =>
    cases h
    exact (makeDir_ok hok).2
  · split at h
    · cases h
    · split at h
      next hok =>
        cases h
        exact (makeDir_ok hok).2
      · cases h
  · cases h

theorem makeDir_root (t : FileTree) : t.makeDir "/" = .ok t := by
  have hfault : pathFault? "/" = none := pathFault?_eq_none_iff.2 (by decide)
  have hstart : t.start "/" = [] := if_pos (Path.isAbsolute_iff.2 (by simp))
  have hparts : Path.parts "/" = [] := by simp [Path.parts_eq, Text.splitOn]
  rw [makeDir, hfault, hstart, hparts]
  rfl

theorem makeDir_of_reaches {path : String} (h : t.Reaches path)
    (hdir : t.sight (t.place path) = .dir) : t.makeDir path = .ok t := by
  obtain ⟨entries, hentries⟩ := sight_eq_dir_iff.1 hdir
  have hfollow : t.follow (t.start path) (Path.parts path) = .ok (t.place path) :=
    follow_eq_ok_iff.2 ⟨h.passable, rfl⟩
  rw [makeDir, h.isPath]
  simp only
  rw [hfollow, except_ok_bind, hentries]

/-- Where a path leads further than a directory above, that directory is there. -/
theorem Reaches.above {above rest : String} (h : t.Reaches (above ++ "/" ++ rest))
    (hne : above ≠ "") (hrest : Path.parts rest ≠ []) :
    t.Reaches above ∧ t.sight (t.place above) = .dir := by
  have hparts := Path.parts_append_slash above rest
  have hstart : t.start (above ++ "/" ++ rest) = t.start above := by
    rw [start, start, String.append_assoc, Path.isAbsolute_append hne]
  have hdir := h.sight_walk hparts hrest
  rw [hstart] at hdir
  have hpass := h.passable
  rw [hparts, hstart] at hpass
  have hfault : pathFault? above = none := by
    refine pathFault?_of_append hne (b := "/" ++ rest) ?_
    rw [← String.append_assoc]
    exact h.isPath
  exact ⟨⟨hfault, (passable_append.1 hpass).1, fun _ => hdir⟩, hdir⟩

/-- The directory of something that a path reaches need not be made. -/
theorem makeDirs_parent {path : String} (h : t.Reaches path) :
    t.makeDirs (Path.parent path) = (t, none) := by
  have hmade : t.makeDir (Path.parent path) = .ok t →
      t.makeDirs (Path.parent path) = (t, none) := by
    intro hok
    rw [makeDirs, makeDirsWithin, hok]
    split <;> rfl
  by_cases hne : Path.parent path = ""
  · rw [hne]
    rfl
  · rcases Path.parent_cases path with hnone | ⟨hroot, -⟩ | ⟨rest, hpath, hrest⟩
    · exact absurd hnone hne
    · exact hmade (hroot ▸ t.makeDir_root)
    · rw [hpath] at h
      obtain ⟨hreach, hdir⟩ := h.above hne hrest
      exact hmade (makeDir_of_reaches hreach hdir)

/-! ### Writing files -/

theorem builds_replaceFile {path : String} {content : ByteArray}
    (h : t.replaceFile path content = .ok t') : Builds M t t' := by
  obtain ⟨hreach, -, -, hdir, rfl⟩ := replaceFile_eq_ok_iff.1 h
  exact builds_setAt_file hreach.parent hdir _ _

theorem builds_makeExecutable {path : String} (h : t.makeExecutable path = .ok t') :
    Builds M t t' := by
  obtain ⟨names, hnames, hwrite⟩ := except_bind_ok h
  obtain ⟨hreach, rfl⟩ := resolve_eq_ok_iff.1 hnames
  split at hwrite
  next content executable hfile =>
    cases hwrite
    have hsight : t.sight (t.place path) = .file content executable := sight_eq_file_iff.2 hfile
    exact builds_setAt_file hreach.parent (by simp [hsight]) _ _
  · cases hwrite
    exact Builds.refl _ _
  · cases hwrite

/-- A file of a name of its own can be replaced in a directory that is there. -/
theorem replaceFile_join {dir name : String} {content : ByteArray} (hname : Path.IsName name)
    (hsize : name.utf8ByteSize + replacementSuffix ≤ maxName)
    (hreach : t.Reaches (Path.join dir name)) (hdir : t.sight (t.place dir ++ [name]) ≠ .dir) :
    t.replaceFile (Path.join dir name) content =
      .ok (t.setAt (t.place (Path.join dir name)) (some (.file content false))) := by
  have hparts : Path.parts (Path.join dir name) = Path.parts dir ++ [name] := by
    rw [Path.parts_join dir hname.isAbsolute, hname.parts]
  refine replaceFile_eq_ok_iff.2 ⟨hreach, ?_, ?_, ?_, rfl⟩
  · have hfile : Path.fileName (Path.join dir name) = name := by
      rw [Path.fileName, hparts, List.filter_append]
      simp [hname.2.2.1, hname.2.2.2.1]
    rwa [hfile]
  · intro last hlast
    rw [hparts, List.getLast?_concat, Option.some.injEq] at hlast
    exact hlast ▸ ⟨hname.2.2.1, hname.2.2.2.1⟩
  · rwa [t.place_join_name dir hname]

end FileTree

namespace Action

variable {τ : Type} {t : FileTree} {M : List String → Prop}

/-! ### Operations on a site -/

theorem keeps_builds_ensureDir {path : String} (hM : ∀ place, t.OnWay path place → M place) :
    Keeps (fun s : Site τ => t.Builds M s.tree) (ensureDir path) := by
  intro s hs
  rw [ensureDir, outcome_changeAsFar]
  exact hs.trans ((s.tree.builds_makeDirs path).mono fun place hplace =>
    hM place (hplace.congr hs.adds.workingDir.symm))

theorem keeps_builds_change {path : String} {f : FileTree → Except FileFault FileTree}
    (hf : ∀ {t t'}, f t = .ok t' → FileTree.Builds M t t') :
    Keeps (fun s : Site τ => t.Builds M s.tree) (change path f) := by
  intro s hs
  rw [outcome_change]
  rcases hchanged : f s.tree with fault | t'
  · exact hs
  · exact hs.trans (hf hchanged)

/-- A file is replaced in its directory, and that is made with those that it lies in. -/
theorem keeps_builds_replaceText_parent {path text : String}
    (hM : ∀ place, Path.parent path ≠ "" → t.OnWay (Path.parent path) place → M place) :
    Keeps (fun s : Site τ => t.Builds M s.tree) (replaceText path text) := by
  refine Keeps.bind ?_ fun _ => keeps_builds_change fun h => FileTree.builds_replaceFile h
  by_cases hne : Path.parent path = ""
  · rw [hne]
    intro s hs
    rw [ensureDir, outcome_changeAsFar]
    exact hs
  · exact keeps_builds_ensureDir fun place => hM place hne

theorem keeps_builds_replaceText {path text : String}
    (hM : ∀ place, t.OnWay path place → M place) :
    Keeps (fun s : Site τ => t.Builds M s.tree) (replaceText path text) :=
  keeps_builds_replaceText_parent fun place hne hplace => hM place (hplace.of_parent hne)

/-- A directory that has been made is there. -/
theorem ensureDir_ok {path : String} {s s' : Site τ} {u : Unit} (hne : path ≠ "")
    (h : outcome (ensureDir path) s = (.ok u, s')) :
    s'.tree.Reaches path ∧ s'.tree.sight (s'.tree.place path) = .dir := by
  rw [ensureDir, outcome_changeAsFar] at h
  rcases hmade : s.tree.makeDirs path with ⟨t', _ | fault⟩ <;> rw [hmade] at h <;> cases h
  exact FileTree.makeDirs_ok hmade hne

/-- A file of a name of its own can be written in a directory that is there. -/
theorem replaceText_join {dir name text : String} (hname : Path.IsName name)
    (hsize : name.utf8ByteSize + FileTree.replacementSuffix ≤ FileTree.maxName) {s : Site τ}
    (hreach : s.tree.Reaches (Path.join dir name))
    (hdir : s.tree.sight (s.tree.place dir ++ [name]) ≠ .dir) :
    ∃ s', outcome (replaceText (Path.join dir name) text) s = (.ok ⟨⟩, s') := by
  rw [replaceText, replaceFile, outcome_bind, ensureDir, outcome_changeAsFar,
    FileTree.makeDirs_parent hreach]
  simp only
  rw [outcome_change, FileTree.replaceFile_join hname hsize hreach hdir]
  exact ⟨_, rfl⟩

end Action

end ParamSweep
