import ParamSweep.Experiment.Manifest

/-!
The text of a manifest and the names in it.

A manifest is read in two ways: the library trims its lines and passes over blank ones, and a job
counts the line feeds and takes what stands between two of them. On names that fit on a line both
give back the names that were written, in the same order: `parse_body` and `terminatedLines_body`.
-/

namespace ParamSweep

namespace Text

/-! ### Pieces between separators -/

theorem splitOn_ne_nil (c : Char) (cs : List Char) : splitOn c cs ≠ [] := by
  cases cs with
  | nil => simp [splitOn]
  | cons d rest =>
    simp only [splitOn]
    split
    · simp
    · split <;> simp

theorem splitOn_of_not_mem {c : Char} {cs : List Char} (h : c ∉ cs) : splitOn c cs = [cs] := by
  induction cs with
  | nil => rfl
  | cons d rest ih =>
    obtain ⟨hd, hrest⟩ := List.ne_and_not_mem_of_not_mem_cons h
    rw [splitOn, if_neg hd.symm, ih hrest]

/-- What stands in a piece stands in the text. -/
theorem mem_of_mem_splitOn {c d : Char} :
    ∀ {cs piece : List Char}, piece ∈ splitOn c cs → d ∈ piece → d ∈ cs
  | [], piece, hpiece, hd => by
    rw [splitOn, List.mem_singleton] at hpiece
    exact hpiece ▸ hd
  | e :: rest, piece, hpiece, hd => by
    rw [splitOn] at hpiece
    split at hpiece
    · rcases List.mem_cons.1 hpiece with rfl | hpiece
      · cases hd
      · exact List.mem_cons_of_mem _ (mem_of_mem_splitOn hpiece hd)
    · rcases hs : splitOn c rest with _ | ⟨first, others⟩
      · exact absurd hs (splitOn_ne_nil c rest)
      · have hfirst : first ∈ splitOn c rest := hs ▸ List.mem_cons_self
        rw [hs] at hpiece
        rcases List.mem_cons.1 hpiece with rfl | hpiece
        · rcases List.mem_cons.1 hd with rfl | hd
          · exact List.mem_cons_self
          · exact List.mem_cons_of_mem _ (mem_of_mem_splitOn hfirst hd)
        · have hother : piece ∈ splitOn c rest := hs ▸ List.mem_cons_of_mem _ hpiece
          exact List.mem_cons_of_mem _ (mem_of_mem_splitOn hother hd)

/-- A separator divides the pieces before it from those behind it. -/
theorem splitOn_append_cons (c : Char) (before behind : List Char) :
    splitOn c (before ++ c :: behind) = splitOn c before ++ splitOn c behind := by
  induction before with
  | nil => simp [splitOn]
  | cons d rest ih =>
    by_cases hd : d = c
    · simp [splitOn, hd, ih]
    · simp only [List.cons_append, splitOn, if_neg hd, ih]
      rcases hs : splitOn c rest with _ | ⟨piece, pieces⟩
      · exact absurd hs (splitOn_ne_nil c rest)
      · rfl

/-! ### Lines that end in a line feed -/

/-- The lines of a text that end in a line feed. -/
def terminatedLines (s : String) : List String :=
  (splitOn '\n' s.toList).dropLast.map String.ofList

theorem splitOn_flatMap {lines : List (List Char)} (h : ∀ l ∈ lines, '\n' ∉ l) :
    splitOn '\n' (lines.flatMap (· ++ ['\n'])) = lines ++ [[]] := by
  induction lines with
  | nil => rfl
  | cons l rest ih =>
    obtain ⟨hl, hrest⟩ := List.forall_mem_cons.1 h
    rw [List.flatMap_cons, List.append_assoc, List.singleton_append, splitOn_append_cons,
      splitOn_of_not_mem hl, ih hrest]
    rfl

theorem linesOf_append_nil (lines : List (List Char)) :
    linesOf (lines ++ [[]]) = lines.map dropReturn := by
  induction lines with
  | nil => rfl
  | cons l rest ih =>
    rw [List.map_cons, ← ih]
    cases rest <;> rfl

theorem dropReturn_of_not_mem {line : List Char} (h : '\r' ∉ line) : dropReturn line = line := by
  have hlast : line.getLast? ≠ some '\r' := fun hr => h (List.mem_of_getLast? hr)
  rw [dropReturn, if_neg hlast]

end Text

namespace Manifest

/-! ### Names that fit on a line -/

theorem fitsLine_iff {name : String} :
    fitsLine name = true ↔ Text.blankText name = false ∧ Text.trimmed name = name ∧
      '\n' ∉ name.toList ∧ '\r' ∉ name.toList := by
  simp [fitsLine, and_assoc]

theorem ne_empty_of_fitsLine {name : String} (h : fitsLine name = true) : name ≠ "" := by
  rintro rfl
  exact absurd h (by decide)

theorem toList_body (names : List String) :
    (body names).toList = (names.map String.toList).flatMap (· ++ ['\n']) := by
  simp [body, String.toList_join, List.flatMap_map]

variable {names : List String}

theorem splitOn_body (h : ∀ n ∈ names, fitsLine n = true) :
    Text.splitOn '\n' (body names).toList = names.map String.toList ++ [[]] := by
  rw [toList_body]
  refine Text.splitOn_flatMap fun l hl => ?_
  obtain ⟨n, hn, rfl⟩ := List.mem_map.1 hl
  exact (fitsLine_iff.1 (h n hn)).2.2.1

/-- The lines that a job counts are the names that were written. -/
theorem terminatedLines_body (h : ∀ n ∈ names, fitsLine n = true) :
    Text.terminatedLines (body names) = names := by
  rw [Text.terminatedLines, splitOn_body h, List.dropLast_concat, List.map_map]
  simp [Function.comp_def]

theorem textLines_body (h : ∀ n ∈ names, fitsLine n = true) :
    Text.textLines (body names) = names := by
  have hreturn : ∀ l ∈ names.map String.toList, Text.dropReturn l = l := by
    intro l hl
    obtain ⟨n, hn, rfl⟩ := List.mem_map.1 hl
    exact Text.dropReturn_of_not_mem (fitsLine_iff.1 (h n hn)).2.2.2
  rw [Text.textLines, Text.lines, splitOn_body h, Text.linesOf_append_nil,
    List.map_congr_left hreturn]
  simp [Function.comp_def]

/-- The names that are read are the names that were written. -/
theorem parse_body (h : ∀ n ∈ names, fitsLine n = true) : parse (body names) = names := by
  have htrim : ∀ n ∈ names, Text.trimmed n = n := fun n hn => (fitsLine_iff.1 (h n hn)).2.1
  rw [parse, textLines_body h, List.map_congr_left htrim, List.map_id', List.filter_eq_self]
  intro n hn
  simpa using ne_empty_of_fitsLine (h n hn)

end Manifest

end ParamSweep
