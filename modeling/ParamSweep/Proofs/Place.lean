import ParamSweep.Files.Tree
import ParamSweep.Proofs.ManifestLines
import ParamSweep.Proofs.Outcome

/-!
Where paths lead.

The place of a path is a list of names from the root. It can be read off the path alone:
`Path.walk` takes its names one after the other, with `.` and `..` on the way. Whether the path can
be followed to that place is another matter, and one for the tree: `FileTree.Reaches` says what it
takes, and `resolve_eq_ok_iff` that nothing else does. What can be seen at a place is a `Sight`, and
all that looking at a tree by paths tells is a sight at the place of a path that reaches it.
-/

namespace ParamSweep

theorem Text.utf8?_toUTF8 (s : String) : Text.utf8? s.toUTF8 = some s := by
  have hvalid : s.toUTF8.IsValidUTF8 := by
    rw [String.toUTF8_eq_toByteArray]
    exact s.isValidUTF8
  rw [Text.utf8?, String.fromUTF8?, dif_pos hvalid]
  rfl

namespace Path

/-! ### The names of a path -/

theorem endsWith_slash_iff {s : String} : s.endsWith "/" = true ↔ ['/'] <:+ s.toList :=
  String.Slice.endsWith_string_iff.trans (by simp)

theorem isAbsolute_iff {s : String} : isAbsolute s = true ↔ ['/'] <+: s.toList := by
  simp [isAbsolute]

/-- The names of a text in characters. -/
theorem parts_eq (path : String) :
    parts path = ((Text.splitOn '/' path.toList).filter (!·.isEmpty)).map String.ofList := rfl

theorem mem_of_mem_parts {path part : String} (hpart : part ∈ parts path) {c : Char}
    (hc : c ∈ part.toList) : c ∈ path.toList := by
  rw [parts_eq, List.mem_map] at hpart
  obtain ⟨piece, hpiece, rfl⟩ := hpart
  rw [String.toList_ofList] at hc
  exact Text.mem_of_mem_splitOn (List.mem_filter.1 hpiece).1 hc

theorem parts_append_slash (a b : String) : parts (a ++ "/" ++ b) = parts a ++ parts b := by
  have h : (a ++ "/" ++ b).toList = a.toList ++ '/' :: b.toList := by simp
  rw [parts_eq, h, Text.splitOn_append_cons, List.filter_append, List.map_append]
  rfl

theorem parts_append_of_endsWith {a : String} (h : a.endsWith "/" = true) (b : String) :
    parts (a ++ b) = parts a ++ parts b := by
  obtain ⟨front, hfront⟩ := endsWith_slash_iff.1 h
  have ha : a = String.ofList front ++ "/" := by
    apply String.toList_inj.1
    simp [hfront]
  have hfrontParts : parts a = parts (String.ofList front) := by
    have := parts_append_slash (String.ofList front) ""
    rw [String.append_empty, ← ha] at this
    simpa [parts_eq, Text.splitOn] using this
  rw [hfrontParts, ha, parts_append_slash]

theorem join_of_isAbsolute (dir : String) {name : String} (h : isAbsolute name = true) :
    join dir name = name :=
  if_pos h

theorem join_eq_append (dir : String) {name : String}
    (h : isAbsolute name = false) : ∃ rest, join dir name = dir ++ rest := by
  rw [join, show name.startsWith "/" = false from h]
  by_cases hdir : dir = ""
  · exact ⟨name, by simp [hdir]⟩
  · by_cases hslash : dir.endsWith "/" = true
    · exact ⟨name, by simp [hdir, hslash]⟩
    · exact ⟨"/" ++ name, by simp [hdir, hslash, String.append_assoc]⟩

theorem join_eq_empty_iff {dir name : String} : join dir name = "" ↔ dir = "" ∧ name = "" := by
  rcases habsolute : isAbsolute name with _ | _
  · have hname : name.startsWith "/" = false := habsolute
    rw [join, hname]
    by_cases hdir : dir = ""
    · simp [hdir]
    · by_cases hslash : dir.endsWith "/" = true
      · simp [hdir, hslash]
      · simp [hdir, hslash]
  · have hne : name ≠ "" := by
      rintro rfl
      exact absurd habsolute (by decide)
    rw [join_of_isAbsolute _ habsolute]
    simp [hne]

/-- The names of a path seen from a directory are those of the directory and then its own. -/
theorem parts_join (dir : String) {name : String} (h : isAbsolute name = false) :
    parts (join dir name) = parts dir ++ parts name := by
  have hname : name.startsWith "/" = false := h
  rw [join, hname]
  by_cases hdir : dir = ""
  · subst hdir
    simp [parts_eq, Text.splitOn]
  · by_cases hslash : dir.endsWith "/" = true
    · simp [hdir, hslash, parts_append_of_endsWith]
    · simp [hdir, hslash, parts_append_slash]

/-- A path without names is empty or starts at the root. -/
theorem isAbsolute_of_parts_eq_nil {path : String} (h : parts path = []) (hne : path ≠ "") :
    isAbsolute path = true := by
  rw [isAbsolute_iff]
  rw [parts_eq] at h
  rcases hpath : path.toList with _ | ⟨c, rest⟩
  · exact absurd (String.toList_eq_nil_iff.1 hpath) hne
  · by_cases hc : c = '/'
    · simp [hc]
    · rw [hpath, Text.splitOn, if_neg hc] at h
      split at h <;> simp at h

theorem isAbsolute_append {a : String} (h : a ≠ "") (b : String) :
    isAbsolute (a ++ b) = isAbsolute a := by
  rw [Bool.eq_iff_iff, isAbsolute_iff, isAbsolute_iff, String.toList_append]
  rcases ha : a.toList with _ | ⟨c, rest⟩
  · exact absurd (String.toList_eq_nil_iff.1 ha) h
  · simp

theorem join_empty_endsWith {dir : String} (h : join dir "" ≠ "") :
    (join dir "").endsWith "/" = true := by
  have habsolute : "".startsWith "/" = false := by decide
  rw [join, habsolute] at h ⊢
  by_cases hdir : dir = ""
  · simp [hdir] at h
  · by_cases hslash : dir.endsWith "/" = true
    · simp [hdir, hslash]
    · simp [hdir, hslash, endsWith_slash_iff]

theorem isAbsolute_join (dir : String) {name : String} (h : isAbsolute name = false) :
    isAbsolute (join dir name) = isAbsolute dir := by
  have hname : name.startsWith "/" = false := h
  rw [join, hname]
  by_cases hdir : dir = ""
  · subst hdir
    simpa using h.trans (show false = isAbsolute "" by decide)
  · by_cases hslash : dir.endsWith "/" = true
    · simp [hdir, hslash, isAbsolute_append hdir]
    · simp [hdir, hslash, String.append_assoc, isAbsolute_append hdir]

theorem isAbsolute_of_not_mem {name : String} (h : '/' ∉ name.toList) :
    isAbsolute name = false := by
  rw [← Bool.not_eq_true, isAbsolute_iff]
  rintro ⟨rest, hrest⟩
  exact h (by simp [← hrest])

theorem parts_of_not_mem {name : String} (hne : name ≠ "") (h : '/' ∉ name.toList) :
    parts name = [name] := by
  have hnil : name.toList ≠ [] := fun hn => hne (String.toList_eq_nil_iff.1 hn)
  simp [parts_eq, Text.splitOn_of_not_mem h, hnil]

/-- A single name that leads down from every directory. -/
def IsName (name : String) : Prop :=
  name ≠ "" ∧ '/' ∉ name.toList ∧ name ≠ "." ∧ name ≠ ".." ∧
    name.utf8ByteSize ≤ FileTree.maxName

instance (name : String) : Decidable (IsName name) := inferInstanceAs (Decidable (_ ∧ _))

namespace IsName

variable {name : String}

theorem isAbsolute (h : IsName name) : Path.isAbsolute name = false :=
  isAbsolute_of_not_mem h.2.1

theorem parts (h : IsName name) : Path.parts name = [name] := parts_of_not_mem h.1 h.2.1

theorem join_endsWith (h : IsName name) (dir : String) :
    (join dir name).endsWith "/" = false := by
  obtain ⟨last, hlast⟩ : ∃ c, name.toList.getLast? = some c := by
    refine Option.ne_none_iff_exists'.1 fun hnone => h.1 ?_
    rwa [List.getLast?_eq_none_iff, String.toList_eq_nil_iff] at hnone
  have hne : last ≠ '/' := fun hl => h.2.1 (hl ▸ List.mem_of_getLast? hlast)
  have hend : ∀ front : List Char, ¬ ['/'] <:+ front ++ name.toList := by
    intro front hs
    rw [List.singleton_suffix_iff_getLast?_eq_some, List.getLast?_append, hlast] at hs
    exact hne (Option.some.inj hs)
  rw [← Bool.not_eq_true, endsWith_slash_iff, join,
    show name.startsWith "/" = false from h.isAbsolute]
  by_cases hdir : dir = ""
  · simpa [hdir] using hend []
  · by_cases hslash : dir.endsWith "/" = true
    · simpa [hdir, hslash] using hend dir.toList
    · simpa [hdir, hslash] using hend (dir.toList ++ ['/'])

end IsName

/-! ### Walking -/

/-- The place that a name leads to from a place. -/
def step (here : List String) (part : String) : List String :=
  if part = "." then here else if part = ".." then here.dropLast else here ++ [part]

/-- The place that names lead to from a place, one after the other. -/
def walk (here parts : List String) : List String := parts.foldl step here

@[simp] theorem walk_nil (here : List String) : walk here [] = here := rfl

@[simp] theorem walk_cons (here : List String) (part : String) (rest : List String) :
    walk here (part :: rest) = walk (step here part) rest := rfl

theorem walk_append (here front behind : List String) :
    walk here (front ++ behind) = walk (walk here front) behind :=
  List.foldl_append

theorem IsName.step {name : String} (h : IsName name) (here : List String) :
    Path.step here name = here ++ [name] := by
  rw [Path.step, if_neg h.2.2.1, if_neg h.2.2.2.1]

end Path

/-! ### Sights -/

/-- What can be seen at a place. What a directory holds is seen at other places. -/
inductive Sight where
  | nothing
  | file (content : ByteArray) (executable : Bool)
  | dir

namespace Sight

/-- How a node looks. -/
def ofNode : Option Node → Sight
  | none => .nothing
  | some (.file content executable) => .file content executable
  | some (.dir _) => .dir

/-- Whether there is a file. -/
def IsFile (s : Sight) : Prop := ∃ content executable, s = .file content executable

end Sight

namespace FileTree

/-- What can be seen at a place of a tree. -/
def sight (t : FileTree) (place : List String) : Sight := Sight.ofNode (t.nodeAt? place)

/-- The place of a path. -/
def place (t : FileTree) (path : String) : List String := Path.walk (t.start path) (Path.parts path)

theorem sight_eq_dir_iff {t : FileTree} {place : List String} :
    t.sight place = .dir ↔ ∃ entries, t.nodeAt? place = some (.dir entries) := by
  rw [sight]
  rcases t.nodeAt? place with _ | ⟨_ | _⟩ <;> simp [Sight.ofNode]

theorem sight_eq_file_iff {t : FileTree} {place : List String} {content : ByteArray}
    {executable : Bool} :
    t.sight place = .file content executable ↔
      t.nodeAt? place = some (.file content executable) := by
  rw [sight]
  rcases t.nodeAt? place with _ | ⟨_ | _⟩ <;> simp [Sight.ofNode]

theorem sight_eq_nothing_iff {t : FileTree} {place : List String} :
    t.sight place = .nothing ↔ t.nodeAt? place = none := by
  rw [sight]
  rcases t.nodeAt? place with _ | ⟨_ | _⟩ <;> simp [Sight.ofNode]

/-! ### The places of paths in a directory -/

theorem start_join (t : FileTree) (dir : String) {name : String}
    (h : Path.isAbsolute name = false) : t.start (Path.join dir name) = t.start dir := by
  rw [start, start, Path.isAbsolute_join dir h]

theorem place_join (t : FileTree) (dir : String) {name : String}
    (h : Path.isAbsolute name = false) :
    t.place (Path.join dir name) = Path.walk (t.place dir) (Path.parts name) := by
  rw [place, t.start_join dir h, Path.parts_join dir h, Path.walk_append, place]

theorem place_join_name (t : FileTree) (dir : String) {name : String} (h : Path.IsName name) :
    t.place (Path.join dir name) = t.place dir ++ [name] := by
  rw [t.place_join dir h.isAbsolute, h.parts, Path.walk_cons, Path.walk_nil, h.step]

theorem place_congr {t t' : FileTree} (h : t'.workingDir = t.workingDir) (path : String) :
    t'.place path = t.place path := by
  rw [place, place, start, start, h]

/-! ### Following a path -/

/-- The names can be followed from a place: every place that one of them is looked up in is a
directory, and no name is too long. -/
def Passable (t : FileTree) : List String → List String → Prop
  | _, [] => True
  | here, part :: rest =>
    t.sight here = .dir ∧ (part = "." ∨ part = ".." ∨ part.utf8ByteSize ≤ maxName) ∧
      t.Passable (Path.step here part) rest

theorem passable_append {t : FileTree} {here front behind : List String} :
    t.Passable here (front ++ behind) ↔
      t.Passable here front ∧ t.Passable (Path.walk here front) behind := by
  induction front generalizing here with
  | nil => simp [Passable]
  | cons part rest ih => simp [Passable, ih, and_assoc]

theorem follow_eq_ok_iff {t : FileTree} {here parts names : List String} :
    t.follow here parts = .ok names ↔ t.Passable here parts ∧ names = Path.walk here parts := by
  induction parts generalizing here with
  | nil => simp [follow, Passable, eq_comm]
  | cons part rest ih =>
    rw [follow, Passable, Path.walk_cons]
    rcases hnode : t.nodeAt? here with _ | ⟨content, executable⟩ | entries
    · simp [sight, hnode, Sight.ofNode]
    · simp [sight, hnode, Sight.ofNode]
    · have hdir : t.sight here = .dir := sight_eq_dir_iff.2 ⟨entries, hnode⟩
      by_cases hdot : part = "."
      · simp [hdot, hdir, ih, Path.step]
      · by_cases hdots : part = ".."
        · simp [hdots, hdir, ih, Path.step]
        · by_cases hlong : maxName < part.utf8ByteSize
          · have hnot : ¬ part.utf8ByteSize ≤ maxName := by omega
            simp [hdot, hdots, hlong, hnot]
          · simp [hdot, hdots, hlong, hdir, ih, Path.step, Nat.not_lt.1 hlong]

/-- The path can be followed to its place: it is a path at all, its names can be followed, and a
directory is there if a slash at its end asks for one. -/
structure Reaches (t : FileTree) (path : String) : Prop where
  isPath : pathFault? path = none
  passable : t.Passable (t.start path) (Path.parts path)
  isDir : path.endsWith "/" = true → t.sight (t.place path) = .dir

theorem resolve_eq_ok_iff {t : FileTree} {path : String} {names : List String} :
    t.resolve path = .ok names ↔ t.Reaches path ∧ names = t.place path := by
  rw [resolve]
  rcases hfault : pathFault? path with _ | fault
  · simp only [follow_eq_ok_iff]
    by_cases hslash : path.endsWith "/" = true
    · rw [if_pos hslash, passable_append, Path.walk_append]
      constructor
      · rintro ⟨⟨hpass, hdir, -⟩, rfl⟩
        exact ⟨⟨hfault, hpass, fun _ => hdir⟩, by simp [Path.step, place]⟩
      · rintro ⟨hreach, rfl⟩
        exact ⟨⟨hreach.passable, hreach.isDir hslash, Or.inl rfl, trivial⟩,
          by simp [Path.step, place]⟩
    · rw [if_neg hslash, List.append_nil]
      exact ⟨fun ⟨hpass, hnames⟩ => ⟨⟨hfault, hpass, fun h => absurd h hslash⟩, hnames⟩,
        fun ⟨hreach, hnames⟩ => ⟨hreach.passable, hnames⟩⟩
  · simp only [reduceCtorEq, false_iff, not_and]
    intro hreach
    exact absurd hreach.isPath (by simp [hfault])

/-! ### Looking at what a path leads to -/

theorem node_eq_ok_iff {t : FileTree} {path : String} {n : Node} :
    t.node path = .ok n ↔ t.Reaches path ∧ t.nodeAt? (t.place path) = some n := by
  rw [node]
  constructor
  · intro h
    obtain ⟨names, hnames, hnode⟩ := except_bind_ok h
    obtain ⟨hreach, rfl⟩ := resolve_eq_ok_iff.1 hnames
    refine ⟨hreach, ?_⟩
    split at hnode
    · next hn => rw [hn, Except.ok.inj hnode]
    · cases hnode
  · rintro ⟨hreach, hn⟩
    rw [resolve_eq_ok_iff.2 ⟨hreach, rfl⟩, except_ok_bind, hn]

theorem holds_iff {t : FileTree} {path : String} :
    t.holds path = true ↔ t.Reaches path ∧ t.sight (t.place path) ≠ .nothing := by
  have hsome : t.sight (t.place path) ≠ .nothing ↔ ∃ n, t.nodeAt? (t.place path) = some n := by
    rw [Ne, sight_eq_nothing_iff, ← Ne, Option.ne_none_iff_exists']
  have hok : t.holds path = true ↔ ∃ n, t.node path = .ok n := by
    rw [holds]
    rcases t.node path with _ | _ <;> simp [Except.isOk, Except.toBool]
  rw [hok, hsome]
  simp [node_eq_ok_iff]

theorem isFile_iff {t : FileTree} {path : String} :
    t.isFile path = true ↔ t.Reaches path ∧ (t.sight (t.place path)).IsFile := by
  have hok : t.isFile path = true ↔
      ∃ content executable, t.node path = .ok (.file content executable) := by
    rw [isFile]
    rcases t.node path with _ | ⟨_ | _⟩ <;> simp [Node.isFile]
  rw [hok]
  simp [node_eq_ok_iff, Sight.IsFile, sight_eq_file_iff]

theorem isDir_iff {t : FileTree} {path : String} :
    t.isDir path = true ↔ t.Reaches path ∧ t.sight (t.place path) = .dir := by
  have hok : t.isDir path = true ↔ ∃ entries, t.node path = .ok (.dir entries) := by
    rw [isDir]
    rcases t.node path with _ | ⟨_ | _⟩ <;> simp [Node.isDir]
  rw [hok]
  simp [node_eq_ok_iff, sight_eq_dir_iff]

theorem list_eq_ok_iff {t : FileTree} {path : String} {entries : Entries Node} :
    t.list path = .ok entries ↔
      t.Reaches path ∧ t.nodeAt? (t.place path) = some (.dir entries) := by
  have hok : t.list path = .ok entries ↔ t.node path = .ok (.dir entries) := by
    rw [list]
    rcases t.node path with _ | ⟨_ | _⟩ <;> simp [bind, Except.bind]
  rw [hok, node_eq_ok_iff]

theorem readBytes_eq_ok_iff {t : FileTree} {path : String} {content : ByteArray} :
    t.readBytes path = .ok content ↔
      t.Reaches path ∧ ∃ executable, t.sight (t.place path) = .file content executable := by
  have hok : t.readBytes path = .ok content ↔
      ∃ executable, t.node path = .ok (.file content executable) := by
    rw [readBytes]
    rcases t.node path with _ | ⟨_ | _⟩ <;> simp [bind, Except.bind]
  rw [hok]
  simp [node_eq_ok_iff, sight_eq_file_iff]

theorem readText_of_sight {t : FileTree} {path text : String} {executable : Bool}
    (hreach : t.Reaches path) (h : t.sight (t.place path) = .file text.toUTF8 executable) :
    t.readText path = .ok text := by
  have hbytes : t.readBytes path = .ok text.toUTF8 :=
    readBytes_eq_ok_iff.2 ⟨hreach, executable, h⟩
  rw [readText, hbytes, except_ok_bind, Text.utf8?_toUTF8]

/-! ### Single names in a directory -/

theorem pathFault?_eq_none_iff {path : String} :
    pathFault? path = none ↔
      '\x00' ∉ path.toList ∧ path ≠ "" ∧ path.utf8ByteSize ≤ maxPath := by
  rw [pathFault?]
  by_cases hnul : '\x00' ∈ path.toList
  · simp [hnul]
  · by_cases hempty : path = ""
    · simp [hempty]
    · simp [hnul, hempty]

theorem pathFault?_of_append {a b : String} (ha : a ≠ "") (h : pathFault? (a ++ b) = none) :
    pathFault? a = none := by
  obtain ⟨hnul, -, hsize⟩ := pathFault?_eq_none_iff.1 h
  rw [String.toList_append, List.mem_append, not_or] at hnul
  rw [String.utf8ByteSize_append] at hsize
  exact pathFault?_eq_none_iff.2 ⟨hnul.1, ha, by omega⟩

/-- A single name in a directory is reached by reaching the directory. -/
theorem reaches_join_iff {t : FileTree} {dir name : String} (h : Path.IsName name) :
    t.Reaches (Path.join dir name) ↔
      pathFault? (Path.join dir name) = none ∧ t.Passable (t.start dir) (Path.parts dir) ∧
        t.sight (t.place dir) = .dir := by
  have hpass : t.Passable (t.start (Path.join dir name)) (Path.parts (Path.join dir name)) ↔
      t.Passable (t.start dir) (Path.parts dir) ∧ t.sight (t.place dir) = .dir := by
    rw [t.start_join dir h.isAbsolute, Path.parts_join dir h.isAbsolute, h.parts, passable_append]
    simp [Passable, h.2.2.2.2, place]
  constructor
  · intro hreach
    exact ⟨hreach.isPath, hpass.1 hreach.passable⟩
  · rintro ⟨hfault, hdir⟩
    exact ⟨hfault, hpass.2 hdir, fun hslash => by simp [h.join_endsWith dir] at hslash⟩

/-- Where a single name in a directory is reached, the directory is held. -/
theorem holds_of_reaches_join {t : FileTree} {dir name : String} (h : Path.IsName name)
    (hdir : dir ≠ "") (hreach : t.Reaches (Path.join dir name)) : t.holds dir = true := by
  obtain ⟨hfault, hpass, hsight⟩ := (reaches_join_iff h).1 hreach
  obtain ⟨rest, hrest⟩ := Path.join_eq_append dir h.isAbsolute
  have hdirFault : pathFault? dir = none := pathFault?_of_append hdir (hrest ▸ hfault)
  exact holds_iff.2 ⟨⟨hdirFault, hpass, fun _ => hsight⟩, by simp [hsight]⟩

end FileTree

end ParamSweep
