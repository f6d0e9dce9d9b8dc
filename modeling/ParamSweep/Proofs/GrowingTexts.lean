import Mathlib.Data.List.Infix
import ParamSweep.Proofs.TextLines
import ParamSweep.Text.Case
import ParamSweep.Text.Utf8

/-!
Texts that something is written to.

When bytes are added to a file, what it was read as does not simply become longer. The character
that had been cut off at its end turns into another one, the carriage return at the end of its last
line may come to belong to a line feed, and a capital sigma gets another small form when a letter
follows it. None of this touches printable ASCII, so what stands in such a text in printable ASCII
stands in it for good: `infix_of_grows` for a text as it is, `infix_lower_of_grows` in small
letters, and `exists_line_of_extends` line by line.
-/

namespace ParamSweep.Text

variable {part old new kept tail more : List Char} {c : Char}

/-! ### Printable ASCII -/

/-- A printable ASCII character. -/
def Printable (c : Char) : Prop := 32 ≤ c.toNat ∧ c.toNat ≤ 126

instance : DecidablePred Printable := fun _ => inferInstanceAs (Decidable (_ ∧ _))

theorem printable_toLower (h : Printable c) : Printable c.toLower := by
  have hall : ∀ n < 127, 32 ≤ n → 32 ≤ (Char.ofNat n).toLower.toNat ∧
      (Char.ofNat n).toLower.toNat ≤ 126 := by decide
  have hc := hall c.toNat (by have := h.2; omega) h.1
  rwa [Char.ofNat_toNat] at hc

/-- Printable ASCII is still so in small letters. -/
theorem printable_lower {w : String} (h : ∀ c ∈ w.toList, Printable c) :
    ∀ c ∈ (lower w).toList, Printable c := by
  have hfrom : ∀ cs before : List Char, (∀ c ∈ cs, Printable c) →
      ∀ c ∈ lowerFrom before cs, Printable c := by
    intro cs
    induction cs with
    | nil => intro before _ c hc; cases hc
    | cons d rest ih =>
      intro before hcs c hc
      obtain ⟨hd, hrest⟩ := List.forall_mem_cons.1 hcs
      have hsigma : d ≠ 'Σ' := by
        rintro rfl
        exact absurd hd.2 (by decide)
      rw [lowerFrom, if_neg hsigma, lowerChar, if_pos (by have := hd.2; omega)] at hc
      rcases List.mem_append.1 hc with hc | hc
      · rw [List.mem_singleton.1 hc]
        exact printable_toLower hd
      · exact ih _ hrest c hc
  rw [lower, String.toList_ofList]
  exact hfrom _ _ h

/-! ### Growing -/

/-- What a text or a line may become when more is written: its end may change as far as it is made
of carriage returns and of characters that had been cut off. -/
def Grows (old new : List Char) : Prop :=
  ∃ kept tail more, old = kept ++ tail ∧ new = kept ++ more ∧
    ∀ c ∈ tail, c = '\r' ∨ c = replacement

theorem not_printable_of_mem_tail (h : c = '\r' ∨ c = replacement) : ¬ Printable c := by
  rcases h with rfl | rfl
  · exact fun h => absurd h.1 (by decide)
  · exact fun h => absurd h.2 (by decide)

/-- What has no character of an end in it stands before that end. -/
theorem infix_of_infix_append (h : part <:+: kept ++ tail) (htail : ∀ c ∈ part, c ∉ tail) :
    part <:+: kept := by
  induction tail using List.reverseRecOn with
  | nil => rwa [List.append_nil] at h
  | append_singleton tail d ih =>
    have hd : d ∉ part := fun hmem => htail d hmem (by simp)
    rw [← List.append_assoc, List.infix_concat_iff, List.suffix_concat_iff] at h
    rcases h with (rfl | ⟨front, rfl, -⟩) | h
    · exact List.nil_infix
    · exact absurd (by simp) hd
    · exact ih h fun c hc hmem => htail c hc (List.mem_append_left _ hmem)

/-- Printable ASCII in a text stays in it. -/
theorem infix_of_grows (hpart : ∀ c ∈ part, Printable c) (h : Grows old new)
    (hold : part <:+: old) : part <:+: new := by
  obtain ⟨kept, tail, more, rfl, rfl, htail⟩ := h
  have hkept : part <:+: kept := infix_of_infix_append hold fun c hc hmem =>
    not_printable_of_mem_tail (htail c hmem) (hpart c hc)
  exact hkept.trans (List.prefix_append _ _).isInfix

/-! ### Small letters -/

/-- One small sigma for both. -/
def oneSigma (c : Char) : Char := if c = 'ς' then 'σ' else c

/-- Up to the form of the sigmas, letters are made small one by one. -/
theorem map_lowerFrom (before cs : List Char) :
    (lowerFrom before cs).map oneSigma = (cs.flatMap lowerChar).map oneSigma := by
  induction cs generalizing before with
  | nil => rfl
  | cons c rest ih =>
    rw [lowerFrom, List.map_append, ih, List.flatMap_cons, List.map_append]
    congr 1
    split
    next hsigma =>
      subst hsigma
      split <;> decide
    next => rfl

theorem oneSigma_eq_of_printable {d : Char} (hd : Printable d) (h : oneSigma c = d) : c = d := by
  rw [oneSigma] at h
  split at h
  · rw [← h] at hd
    exact absurd hd.2 (by decide)
  · exact h

theorem oneSigma_of_printable (h : Printable c) : oneSigma c = c := by
  rw [oneSigma, if_neg]
  rintro rfl
  exact absurd h.2 (by decide)

/-- Printable ASCII does not care for sigmas. -/
theorem infix_map_oneSigma_iff (hpart : ∀ c ∈ part, Printable c) {cs : List Char} :
    part <:+: cs.map oneSigma ↔ part <:+: cs := by
  have hself : part.map oneSigma = part := by
    rw [List.map_congr_left fun c hc => oneSigma_of_printable (hpart c hc), List.map_id']
  constructor
  · rintro ⟨before, behind, h⟩
    obtain ⟨front, behind', rfl, hfront, -⟩ := List.map_eq_append_iff.1 h.symm
    obtain ⟨before', part', rfl, -, hpart'⟩ := List.map_eq_append_iff.1 hfront
    have hfixed : ∀ c ∈ part', c = oneSigma c := fun c hc =>
      oneSigma_eq_of_printable (hpart _ (hpart' ▸ List.mem_map_of_mem hc)) rfl
    have hsame : part' = part := by
      rw [← hpart', ← List.map_congr_left hfixed, List.map_id']
    exact ⟨before', behind', by rw [hsame]⟩
  · intro h
    rw [← hself]
    exact h.map oneSigma

/-- What grows, grows in small letters too, up to the form of the sigmas. -/
theorem Grows.small (h : Grows old new) :
    Grows ((old.flatMap lowerChar).map oneSigma) ((new.flatMap lowerChar).map oneSigma) := by
  obtain ⟨kept, tail, more, rfl, rfl, htail⟩ := h
  refine ⟨(kept.flatMap lowerChar).map oneSigma, (tail.flatMap lowerChar).map oneSigma,
    (more.flatMap lowerChar).map oneSigma, by simp, by simp, fun c hc => ?_⟩
  obtain ⟨d, hd, rfl⟩ := List.mem_map.1 hc
  obtain ⟨e, he, hde⟩ := List.mem_flatMap.1 hd
  have hfixed : lowerChar '\r' = ['\r'] ∧ lowerChar replacement = [replacement] ∧
      oneSigma '\r' = '\r' ∧ oneSigma replacement = replacement := by decide +kernel
  obtain ⟨hreturn, hreplacement, hreturn', hreplacement'⟩ := hfixed
  rcases htail e he with rfl | rfl
  · rw [hreturn, List.mem_singleton] at hde
    exact .inl (hde ▸ hreturn')
  · rw [hreplacement, List.mem_singleton] at hde
    exact .inr (hde ▸ hreplacement')

/-- Printable ASCII in a text in small letters stays in it. -/
theorem infix_lower_of_grows {s s' : String} (hpart : ∀ c ∈ part, Printable c)
    (h : Grows s.toList s'.toList) (hold : part <:+: (lower s).toList) :
    part <:+: (lower s').toList := by
  rw [lower, String.toList_ofList, ← infix_map_oneSigma_iff hpart, map_lowerFrom] at hold ⊢
  refine infix_of_grows hpart h.small hold

/-! ### Bytes behind bytes -/

/-- What a text becomes when bytes are added to those that it was read from: there is something
behind it, and if its last character had been cut off, something else in its place. -/
def Extends (old new : List Char) : Prop :=
  ∃ kept tail more, old = kept ++ tail ∧ new = kept ++ more ∧
    (tail = [] ∨ tail = [replacement] ∧ more ≠ [])

theorem Extends.grows (h : Extends old new) : Grows old new := by
  obtain ⟨kept, tail, more, hold, hnew, htail⟩ := h
  refine ⟨kept, tail, more, hold, hnew, fun c hc => .inr ?_⟩
  rcases htail with rfl | ⟨rfl, -⟩
  · cases hc
  · exact List.mem_singleton.1 hc

theorem Extends.append_left (h : Extends old new) (cs : List Char) :
    Extends (cs ++ old) (cs ++ new) := by
  obtain ⟨kept, tail, more, rfl, rfl, htail⟩ := h
  exact ⟨cs ++ kept, tail, more, by simp, by simp, htail⟩

/-- An unfinished character comes to something, whatever follows it. -/
theorem lossyFrom_ne_nil (u : Unfinished) (bytes : List UInt8) : lossyFrom (some u) bytes ≠ [] := by
  induction bytes generalizing u with
  | nil => exact List.cons_ne_nil _ _
  | cons b rest ih =>
    rw [lossyFrom]
    simp only [nextByte]
    split
    · split
      · exact List.cons_ne_nil _ _
      · exact ih _
    · exact List.cons_ne_nil _ _

theorem extends_lossyFrom (u : Option Unfinished) (bytes more : List UInt8) :
    Extends (lossyFrom u bytes) (lossyFrom u (bytes ++ more)) := by
  induction bytes generalizing u with
  | nil =>
    cases u with
    | none => exact ⟨[], [], _, rfl, rfl, .inl rfl⟩
    | some u => exact ⟨[], [replacement], _, rfl, rfl, .inr ⟨rfl, lossyFrom_ne_nil u more⟩⟩
  | cons b rest ih =>
    rw [List.cons_append, lossyFrom, lossyFrom]
    exact (ih _).append_left _

/-- The text of a file to which bytes have been added. -/
theorem extends_utf8Lossy (bytes more : ByteArray) :
    Extends (utf8Lossy bytes).toList (utf8Lossy (bytes ++ more)).toList := by
  rw [utf8Lossy, utf8Lossy, String.toList_ofList, String.toList_ofList,
    ByteArray.toList_data_append]
  exact extends_lossyFrom none _ _

/-! ### Line by line -/

theorem Grows.refl (cs : List Char) : Grows cs cs := ⟨cs, [], [], by simp, by simp, nofun⟩

/-- The last line may lose the carriage return at its end to a line feed. -/
theorem grows_dropReturn (htail : ∀ c ∈ tail, c = '\r' ∨ c = replacement) (more : List Char) :
    Grows (kept ++ tail) (dropReturn (kept ++ more)) := by
  rw [dropReturn]
  split
  next hreturn =>
    rcases List.eq_nil_or_concat more with rfl | ⟨more, d, rfl⟩
    · rw [List.append_nil] at hreturn ⊢
      obtain ⟨front, rfl⟩ := List.getLast?_eq_some_iff.1 hreturn
      refine ⟨front, '\r' :: tail, [], by simp, by simp, fun c hc => ?_⟩
      rcases List.mem_cons.1 hc with rfl | hc
      · exact .inl rfl
      · exact htail c hc
    · refine ⟨kept, tail, more, rfl, ?_, htail⟩
      rw [List.concat_eq_append, ← List.append_assoc, List.dropLast_concat]
  next => exact ⟨kept, tail, more, rfl, rfl, htail⟩

/-- Every line of a text has one that it has become. -/
theorem exists_line_of_extends (h : Extends old new) {line : List Char} (hline : line ∈ lines old) :
    ∃ line' ∈ lines new, Grows line line' := by
  obtain ⟨kept, tail, more, rfl, rfl, htail⟩ := h
  induction hn : kept.length using Nat.strong_induction_on generalizing kept with
  | _ n ih =>
  by_cases hfeed : '\n' ∈ kept
  · -- the lines that have been ended stay as they are
    obtain ⟨first, rest, rfl, hfirst⟩ := List.eq_append_cons_of_mem hfeed
    rw [List.append_assoc, List.cons_append, lines_append_feed hfirst] at hline ⊢
    rcases List.mem_cons.1 hline with rfl | hline
    · exact ⟨_, List.mem_cons_self, Grows.refl _⟩
    · obtain ⟨line', hline', hgrows⟩ := ih rest.length (by simp [← hn]; omega) rest hline rfl
      exact ⟨line', List.mem_cons_of_mem _ hline', hgrows⟩
  · -- the last line goes on
    have htail' : ∀ c ∈ tail, c = '\r' ∨ c = replacement := by
      rcases htail with rfl | ⟨rfl, -⟩
      · exact nofun
      · exact fun c hc => .inr (List.mem_singleton.1 hc)
    have hnone : '\n' ∉ kept ++ tail := by
      rw [List.mem_append, not_or]
      exact ⟨hfeed, fun hmem => by rcases htail' _ hmem with h | h <;> cases h⟩
    rw [lines_of_not_mem hnone] at hline
    split at hline
    · cases hline
    next hne =>
      rw [List.mem_singleton] at hline
      subst hline
      by_cases hmore : '\n' ∈ more
      · obtain ⟨rest, behind, rfl, hrest⟩ := List.eq_append_cons_of_mem hmore
        have hnone' : '\n' ∉ kept ++ rest := by simp [hfeed, hrest]
        rw [← List.append_assoc, lines_append_feed hnone']
        exact ⟨_, List.mem_cons_self, grows_dropReturn htail' rest⟩
      · have hnone' : '\n' ∉ kept ++ more := by simp [hfeed, hmore]
        have hne' : kept ++ more ≠ [] := by
          rcases htail with rfl | ⟨rfl, hmore⟩
          · rw [List.append_nil] at hne
            simp [hne]
          · simp [hmore]
        rw [lines_of_not_mem hnone', if_neg hne']
        exact ⟨_, List.mem_cons_self, kept, tail, more, rfl, rfl, htail'⟩

end ParamSweep.Text
