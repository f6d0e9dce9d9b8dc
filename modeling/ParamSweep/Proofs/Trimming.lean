import Mathlib.Data.List.DropRight
import ParamSweep.Text.Pieces

/-!
Blanks at the ends of a text.

`trim_eq_self_iff` says which texts trimming leaves alone, and `trim_append_cons` that a character
that is no blank stays where it is, so that trimming a line does not move its columns.
-/

namespace ParamSweep.Text

variable {cs blanks : List Char} {c : Char}

theorem trimEnd_eq_rdropWhile (cs : List Char) : trimEnd cs = cs.rdropWhile isBlank := rfl

/-! ### Texts that stay as they are -/

theorem trimStart_eq_self_iff :
    trimStart cs = cs ↔ ∀ c, cs.head? = some c → isBlank c = false := by
  cases cs with
  | nil => simp [trimStart]
  | cons c rest => simp [trimStart, List.dropWhile_eq_self_iff]

theorem trimEnd_eq_self_iff :
    trimEnd cs = cs ↔ ∀ c, cs.getLast? = some c → isBlank c = false := by
  rw [← List.head?_reverse, ← trimStart_eq_self_iff, trimStart, trimEnd, List.reverse_eq_iff]

/-- Trimming leaves a text alone when neither end is blank. -/
theorem trim_eq_self_iff :
    trim cs = cs ↔ (∀ c, cs.head? = some c → isBlank c = false) ∧
      ∀ c, cs.getLast? = some c → isBlank c = false := by
  rw [← trimStart_eq_self_iff, ← trimEnd_eq_self_iff, trim]
  constructor
  · intro h
    -- what is cut off at one end cannot come back at the other
    have hlength : cs.length ≤ (trimStart cs).length := by
      have hle := (List.rdropWhile_prefix isBlank (trimStart cs)).length_le
      rwa [← trimEnd_eq_rdropWhile, h] at hle
    have hstart : trimStart cs = cs := (List.dropWhile_suffix _).eq_of_length_le hlength
    exact ⟨hstart, by rwa [hstart] at h⟩
  · rintro ⟨hstart, hend⟩
    rw [hstart, hend]

theorem trimmed_eq_self_iff {s : String} : trimmed s = s ↔ trim s.toList = s.toList := by
  rw [trimmed, ← String.toList_inj, String.toList_ofList]

theorem mem_of_mem_trimStart (h : c ∈ trimStart cs) : c ∈ cs := (List.dropWhile_suffix _).mem h

theorem mem_of_mem_trim (h : c ∈ trim cs) : c ∈ cs :=
  mem_of_mem_trimStart ((List.rdropWhile_prefix isBlank (trimStart cs)).mem h)

/-! ### Blanks that go -/

theorem trimEnd_append_blanks (h : ∀ c ∈ blanks, isBlank c = true) :
    trimEnd (cs ++ blanks) = trimEnd cs := by
  rw [trimEnd, List.reverse_append,
    List.dropWhile_append_of_pos fun c hc => h c (List.mem_reverse.1 hc), trimEnd]

/-- Blanks behind a text do not count. -/
theorem trim_append_blanks (h : ∀ c ∈ blanks, isBlank c = true) :
    trim (cs ++ blanks) = trim cs := by
  rw [trim, trim, trimStart, trimStart, List.dropWhile_append]
  split
  next hnil =>
    rw [List.dropWhile_eq_nil_iff.2 h, List.isEmpty_iff.1 hnil]
  next => exact trimEnd_append_blanks h

/-- Blanks before a text do not count. -/
theorem trim_trimStart (cs : List Char) : trim (trimStart cs) = trim cs := by
  rw [trim, trimStart, trimStart, List.dropWhile_idempotent, trim, trimStart]

theorem exists_eq_trimEnd_append (cs : List Char) :
    ∃ blanks, cs = trimEnd cs ++ blanks ∧ ∀ c ∈ blanks, isBlank c = true :=
  ⟨cs.rtakeWhile isBlank, (List.rdropWhile_append_rtakeWhile).symm,
    fun _ => List.mem_rtakeWhile_imp⟩

theorem trim_trimEnd (cs : List Char) : trim (trimEnd cs) = trim cs := by
  obtain ⟨blanks, hcs, hblanks⟩ := exists_eq_trimEnd_append cs
  exact (trim_append_blanks hblanks).symm.trans (congrArg trim hcs.symm)

/-- A line means the same with and without the carriage return at its end. -/
theorem trim_dropReturn (line : List Char) : trim (dropReturn line) = trim line := by
  rw [dropReturn]
  split
  next hreturn =>
    obtain ⟨front, rfl⟩ := List.getLast?_eq_some_iff.1 hreturn
    rw [List.dropLast_concat, trim_append_blanks (by simp; decide)]
  next => rfl

/-! ### Characters that stay -/

variable {before behind : List Char}

theorem trimStart_append_cons (hc : isBlank c = false) :
    trimStart (before ++ c :: behind) = trimStart before ++ c :: behind := by
  rw [trimStart, trimStart, List.dropWhile_append]
  split
  next hnil =>
    rw [List.isEmpty_iff.1 hnil, List.dropWhile_cons_of_neg (by simp [hc]), List.nil_append]
  next => rfl

theorem trimEnd_append_cons (hc : isBlank c = false) :
    trimEnd (before ++ c :: behind) = before ++ c :: trimEnd behind := by
  have hreverse : (before ++ c :: behind).reverse = behind.reverse ++ c :: before.reverse := by
    simp
  rw [trimEnd, hreverse, ← trimStart, trimStart_append_cons hc]
  simp [trimEnd, trimStart]

/-- What is no blank keeps what stands on either side of it apart. -/
theorem trim_append_cons (hc : isBlank c = false) :
    trim (before ++ c :: behind) = trimStart before ++ c :: trimEnd behind := by
  rw [trim, trimStart_append_cons hc, trimEnd_append_cons hc]

theorem takeWhile_ne_append_cons (h : c ∉ before) :
    (before ++ c :: behind).takeWhile (· ≠ c) = before := by
  have hne : ∀ d ∈ before, decide (d ≠ c) = true := fun d hd =>
    decide_eq_true (ne_of_mem_of_not_mem hd h)
  rw [List.takeWhile_append_of_pos hne, List.takeWhile_cons_of_neg (by simp), List.append_nil]

theorem takeWhile_ne_of_not_mem (h : c ∉ cs) : cs.takeWhile (· ≠ c) = cs :=
  List.takeWhile_eq_self_iff.2 fun _ hd => decide_eq_true (ne_of_mem_of_not_mem hd h)

/-- The text up to a separator that is no blank is the same, up to blanks, when the end of the text
has been trimmed. -/
theorem trim_takeWhile_trimEnd (hc : isBlank c = false) (cs : List Char) :
    trim ((trimEnd cs).takeWhile (· ≠ c)) = trim (cs.takeWhile (· ≠ c)) := by
  by_cases hmem : c ∈ cs
  · obtain ⟨before, behind, rfl, hbefore⟩ := List.eq_append_cons_of_mem hmem
    rw [trimEnd_append_cons hc, takeWhile_ne_append_cons hbefore,
      takeWhile_ne_append_cons hbefore]
  · have hend : c ∉ trimEnd cs := fun h => by
      obtain ⟨blanks, hcs, -⟩ := exists_eq_trimEnd_append cs
      exact hmem (hcs ▸ List.mem_append_left _ h)
    rw [takeWhile_ne_of_not_mem hend, takeWhile_ne_of_not_mem hmem, trim_trimEnd]

end ParamSweep.Text
