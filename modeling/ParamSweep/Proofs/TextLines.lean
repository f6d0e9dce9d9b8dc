import ParamSweep.Proofs.ManifestLines

/-!
The lines of a text, the last of them, and the parts of a line.

A text without a line feed is one line or none; otherwise it is a line, its line feed and a text
that is read in the same way.
-/

namespace ParamSweep.Text

variable {cs line rest : List Char}

/-! ### Parts of a text -/

theorem containsPart_iff {part : List Char} : containsPart part cs = true ↔ part <:+: cs := by
  induction cs with
  | nil => rw [containsPart, List.isEmpty_iff, List.infix_nil]
  | cons c cs ih =>
    rw [containsPart, Bool.or_eq_true, ih, startsWith, List.isPrefixOf_iff_prefix,
      List.infix_cons_iff]

theorem hasPart_iff {part s : String} : hasPart part s = true ↔ part.toList <:+: s.toList :=
  containsPart_iff

/-! ### Lines -/

theorem lines_of_not_mem (h : '\n' ∉ cs) : lines cs = if cs = [] then [] else [cs] := by
  rw [lines, splitOn_of_not_mem h, linesOf]
  simp only [List.isEmpty_iff]

/-- A line feed ends a line. -/
theorem lines_append_feed (h : '\n' ∉ line) (rest : List Char) :
    lines (line ++ '\n' :: rest) = dropReturn line :: lines rest := by
  rw [lines, splitOn_append_cons, splitOn_of_not_mem h, List.singleton_append, linesOf, lines]
  exact splitOn_ne_nil _ _

/-! ### The last of some items -/

variable {α : Type} {n k : Nat} {xs : List α}

theorem lastOf_suffix (n : Nat) (xs : List α) : lastOf n xs <:+ xs := List.drop_suffix _ _

theorem length_lastOf (n : Nat) (xs : List α) : (lastOf n xs).length = min n xs.length := by
  rw [lastOf, List.length_drop]
  omega

/-- Of the last items, the last are the last of all. -/
theorem lastOf_lastOf (h : k ≤ n) (xs : List α) : lastOf k (lastOf n xs) = lastOf k xs := by
  rw [lastOf, length_lastOf, lastOf, List.drop_drop, lastOf]
  congr 1
  omega

end ParamSweep.Text
