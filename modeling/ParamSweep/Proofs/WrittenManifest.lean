import ParamSweep.Proofs.TaskNumbers
import ParamSweep.Proofs.Trimming

/-!
What the manifest takes, and what comes back.

The writer is stricter than the reader. The reader trims every line, takes a carriage return off its
end and passes over blank lines; the writer refuses a name that any of this would change. `IsLine`
says which names these are, character by character and without the reader's own functions, so that
`read_of_write` is a statement about names and not about the two functions agreeing.
-/

namespace ParamSweep

variable {τ : Type}

namespace Manifest

/-! ### Names that make a line -/

/-- A name that makes a line: there is something to see in it, it neither starts nor ends with white
space, and it has no line feed and no carriage return in it. -/
structure IsLine (name : String) : Prop where
  visible : ∃ c ∈ name.toList, Text.isBlank c = false
  first : ∀ c, name.toList.head? = some c → Text.isBlank c = false
  last : ∀ c, name.toList.getLast? = some c → Text.isBlank c = false
  noFeed : '\n' ∉ name.toList
  noReturn : '\r' ∉ name.toList

/-- The writer takes the names that make a line. -/
theorem fitsLine_iff_isLine {name : String} : fitsLine name = true ↔ IsLine name := by
  have hblank : Text.blankText name = false ↔ ∃ c ∈ name.toList, Text.isBlank c = false := by
    simp [Text.blankText]
  rw [fitsLine_iff, hblank, Text.trimmed_eq_self_iff, Text.trim_eq_self_iff]
  constructor
  · rintro ⟨hvisible, ⟨hfirst, hlast⟩, hfeed, hreturn⟩
    exact ⟨hvisible, hfirst, hlast, hfeed, hreturn⟩
  · rintro ⟨hvisible, hfirst, hlast, hfeed, hreturn⟩
    exact ⟨hvisible, ⟨hfirst, hlast⟩, hfeed, hreturn⟩

end Manifest

/-! ### A disk that takes the file -/

/-- The disk lets a file be written at a path: some text or other can be. -/
def Site.Takes (s : Site τ) (path : String) : Prop :=
  ∃ text, (outcome (Action.replaceText path text) s).1 = .ok ⟨⟩

/-- Where one text can be written, every text can. -/
theorem Site.Takes.replaceText {s : Site τ} {path : String} (h : s.Takes path) (text : String) :
    ∃ s', outcome (Action.replaceText path text) s = (.ok ⟨⟩, s') := by
  obtain ⟨other, hother⟩ := h
  obtain ⟨s₁, hdir, hfile⟩ := Action.replaceText_ok (outcome_of_answer hother)
  obtain ⟨hreach, hsize, hlast, hnotDir, -⟩ := FileTree.replaceFile_eq_ok_iff.1 hfile
  have hfile' := FileTree.replaceFile_eq_ok_iff.2
    ⟨hreach, hsize, hlast, hnotDir, Eq.refl (s₁.tree.setAt (s₁.tree.place path)
      (some (.file text.toUTF8 false)))⟩
  rw [Action.replaceText, Action.replaceFile, outcome_bind, hdir]
  simp only
  rw [Action.outcome_change, hfile']
  exact ⟨_, rfl⟩

namespace Manifest

/-- A manifest whose names make a line each is written, if the disk takes it, and its text is these
lines. -/
theorem write_of_lines {l : Layout} {names : List String} {s : Site τ}
    (hdisk : s.Takes l.manifestPath) (hlines : ∀ name ∈ names, IsLine name) :
    ∃ s', outcome (write l names) s = (.ok ⟨⟩, s') ∧
      s'.tree.readText l.manifestPath = .ok (body names) := by
  obtain ⟨s', hs'⟩ := hdisk.replaceText (body names)
  refine ⟨s', ?_, (Action.written_replaceText hs').readText⟩
  rwa [manifestWrite_of_fits l fun name hname => fitsLine_iff_isLine.2 (hlines name hname)]

/-- Where the disk takes the file, a manifest is written exactly when every name makes a line. Once
it is written it is read to the same names, and they are its lines, feed by feed; when it is refused,
nothing has changed. -/
theorem read_of_write (l : Layout) (names : List String) (s : Site τ)
    (hdisk : s.Takes l.manifestPath) :
    ∃ answer s', outcome (write l names) s = (answer, s') ∧
      (answer = .ok ⟨⟩ ↔ ∀ name ∈ names, IsLine name) ∧
      (answer = .ok ⟨⟩ → read s'.tree l = .ok names ∧
        ∃ text, s'.tree.readText l.manifestPath = .ok text ∧ Text.terminatedLines text = names) ∧
      (answer ≠ .ok ⟨⟩ → s' = s) := by
  by_cases hlines : ∀ name ∈ names, IsLine name
  · obtain ⟨s', hwrite, htext⟩ := write_of_lines hdisk hlines
    have hfit : ∀ name ∈ names, fitsLine name = true := fun name hname =>
      fitsLine_iff_isLine.2 (hlines name hname)
    refine ⟨_, s', hwrite, iff_of_true rfl hlines, fun _ => ⟨read_of_readText htext hfit, ?_⟩,
      fun hne => absurd rfl hne⟩
    exact ⟨body names, htext, terminatedLines_body hfit⟩
  · have hnot : ¬ ∀ name ∈ names, fitsLine name = true := fun hfit =>
      hlines fun name hname => fitsLine_iff_isLine.1 (hfit name hname)
    obtain ⟨name, hrefused⟩ := outcome_manifestWrite_of_not_fits (l := l) hnot s
    exact ⟨_, s, hrefused, iff_of_false nofun hlines, nofun, fun _ => rfl⟩

/-- Two names, one with a blank inside it, are written and read back; a name that ends in a
carriage return is refused, and the old manifest stands. -/
theorem read_of_write_two_names :
    (∃ s', outcome (write usualLayout ["a b", "c"]) (siteWithPlan "") = (.ok ⟨⟩, s') ∧
      read s'.tree usualLayout = .ok ["a b", "c"]) ∧
    (outcome (write usualLayout ["a b", "c\r"]) (siteWithPlan "")).2 = siteWithPlan "" := by
  have hdisk : (siteWithPlan "").Takes usualLayout.manifestPath :=
    ⟨"", eq_ok_of_isOk (by decide +kernel)⟩
  have hfits : (∀ name ∈ ["a b", "c"], fitsLine name = true) ∧ fitsLine "c\r" = false := by decide
  constructor
  · obtain ⟨answer, s', hwrite, hiff, hread, -⟩ :=
      read_of_write usualLayout ["a b", "c"] (siteWithPlan "") hdisk
    have hok := hiff.2 fun name hname => fitsLine_iff_isLine.1 (hfits.1 name hname)
    rw [hok] at hwrite
    exact ⟨s', hwrite, (hread hok).1⟩
  · obtain ⟨answer, s', hwrite, hiff, -, hsame⟩ :=
      read_of_write usualLayout ["a b", "c\r"] (siteWithPlan "") hdisk
    rw [hwrite]
    refine hsame fun hok => ?_
    have hline := fitsLine_iff_isLine.2 (hiff.1 hok "c\r" (by decide))
    exact absurd (hfits.2.symm.trans hline) nofun

end Manifest

end ParamSweep
