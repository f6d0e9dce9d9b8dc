import Mathlib
import ParamSweep.Proofs.Combinations
import ParamSweep.Proofs.DoubleOrder
import ParamSweep.Proofs.FieldBytes

/-!
What the check of the outputs says about the runs.

Two things are looked at in the last snapshots of the runs: their digests and their peaks. Each may
turn up an issue that counts the runs. The digests are equal if the bytes of the fields are, which
is less than equal fields (`identicalLine_mem_iff`). A snapshot without a finite sample has no peak,
and it is counted in the issue all the same (`peakLine_mem_iff`).
-/

namespace ParamSweep.Integrity

variable {runs : List SampledRun} {s t : Snapshot} {x y p : Float} {xs : List Float} {n m : ℕ}
  {value value' : String}

/-! ### Lines that count -/

/-- The issue that the outputs are the same. -/
def identicalLine (n : ℕ) : String :=
  "all " ++ toString n ++ " sampled runs produced identical final snapshots; " ++
    "the sweep did not change the simulation"

/-- The issue that the peaks are the same. -/
def peakLine (n : ℕ) (value : String) : String :=
  "all " ++ toString n ++ " sampled runs share the same peak value " ++ value

theorem space_not_mem_toString (n : ℕ) : ' ' ∉ (toString n).toList := by
  intro h
  have hdigit := Nat.isDigit_of_mem_toDigits (by decide) (by decide) (String.toList_ofList ▸ h)
  revert hdigit
  decide

/-- The count ends at the first space behind it. -/
theorem counted_inj {rest rest' : List Char}
    (h : "all ".toList ++ ((toString n).toList ++ ' ' :: rest) =
      "all ".toList ++ ((toString m).toList ++ ' ' :: rest')) : n = m ∧ rest = rest' := by
  rw [List.append_cancel_left_eq] at h
  obtain ⟨hcount, hrest⟩ :=
    append_first_inj (space_not_mem_toString n) (space_not_mem_toString m) h
  exact ⟨Nat.repr_inj.1 (String.toList_inj.1 hcount), hrest⟩

theorem toList_peakLine (n : ℕ) (value : String) :
    (peakLine n value).toList = "all ".toList ++ ((toString n).toList ++
      ' ' :: ("sampled runs share the same peak value ".toList ++ value.toList)) := by
  simp [peakLine]

theorem toList_identicalLine (n : ℕ) :
    (identicalLine n).toList = "all ".toList ++ ((toString n).toList ++
      ' ' :: ("sampled runs produced identical final snapshots; ".toList ++
        "the sweep did not change the simulation".toList)) := by
  simp [identicalLine]

theorem peakLine_inj : peakLine n value = peakLine m value' ↔ n = m ∧ value = value' := by
  constructor
  · intro h
    rw [← String.toList_inj, toList_peakLine, toList_peakLine] at h
    obtain ⟨hcount, hrest⟩ := counted_inj h
    rw [List.append_cancel_left_eq, String.toList_inj] at hrest
    exact ⟨hcount, hrest⟩
  · rintro ⟨rfl, rfl⟩
    rfl

theorem identicalLine_inj : identicalLine n = identicalLine m ↔ n = m := by
  constructor
  · intro h
    rw [← String.toList_inj, toList_identicalLine, toList_identicalLine] at h
    exact (counted_inj h).1
  · rintro rfl
    rfl

/-- The two issues are told apart by what follows the count. -/
theorem peakLine_ne_identicalLine (n m : ℕ) (value : String) :
    peakLine n value ≠ identicalLine m := by
  intro h
  rw [← String.toList_inj, toList_peakLine, toList_identicalLine] at h
  have hverb := congrArg (fun cs => cs[13]?) (counted_inj h).2
  revert hverb
  simp

/-! ### Items that are all the same -/

theorem distinct_eq_singleton_iff {α : Type} [DecidableEq α] {xs : List α} {a : α} :
    distinct xs = [a] ↔ a ∈ xs ∧ ∀ b ∈ xs, b = a := by
  have hmem : ∀ b, b ∈ distinct xs ↔ b ∈ xs := fun b => List.mem_eraseDups
  constructor
  · intro h
    simp only [h, List.mem_singleton] at hmem
    exact ⟨(hmem a).1 rfl, fun b hb => (hmem b).2 hb⟩
  · rintro ⟨ha, hall⟩
    refine List.perm_singleton.1 <|
      (List.perm_ext_iff_of_nodup (nodup_eraseDups xs) (List.nodup_singleton a)).2 fun b => ?_
    rw [List.mem_singleton]
    exact (hmem b).trans ⟨hall b, fun hb => hb ▸ ha⟩

theorem length_distinct_eq_one_iff {α : Type} [DecidableEq α] {xs : List α} :
    (distinct xs).length = 1 ↔ xs ≠ [] ∧ ∀ a ∈ xs, ∀ b ∈ xs, a = b := by
  rw [List.length_eq_one_iff]
  simp only [distinct_eq_singleton_iff]
  constructor
  · rintro ⟨a, ha, hall⟩
    exact ⟨List.ne_nil_of_mem ha, fun b hb c hc => (hall b hb).trans (hall c hc).symm⟩
  · rintro ⟨hne, hall⟩
    obtain ⟨a, ha⟩ := List.exists_mem_of_ne_nil xs hne
    exact ⟨a, ha, fun b hb => hall b hb a ha⟩

/-! ### Peaks -/

/-- The number is the greatest finite sample of the snapshot. -/
structure IsPeak (s : Snapshot) (p : Float) : Prop where
  mem : p ∈ s.samples
  finite : p.isFinite = true
  le : ∀ x ∈ s.samples, x.isFinite = true → x ≤ p

theorem isNaN_of_isFinite (h : x.isFinite = true) : x.isNaN = false := by
  have hfinite : x.toModel.unpack.isFinite = true := h
  show x.toModel.unpack.isNaN = false
  cases hx : x.toModel.unpack with
  | notANumber => rw [hx] at hfinite; cases hfinite
  | _ => rfl

/-- The greater of two numbers is one of them and ranks below neither. -/
theorem greater_spec (hx : x.isNaN = false) (hy : y.isNaN = false) :
    (greater x y = x ∨ greater x y = y) ∧ rank x ≤ rank (greater x y) ∧
      rank y ≤ rank (greater x y) := by
  rw [greater, hy, Bool.or_false]
  by_cases hle : y ≤ x
  · rw [if_pos (decide_eq_true hle)]
    exact ⟨.inl rfl, le_refl _, (le_iff_rank_le hy hx).1 hle⟩
  · rw [if_neg (by simpa using hle)]
    rw [le_iff_rank_le hy hx, not_le] at hle
    exact ⟨.inr rfl, le_of_lt hle, le_refl _⟩

/-- The greatest of several numbers, taken one after the other. -/
theorem foldl_greater_spec (hx : x.isNaN = false) (hxs : ∀ y ∈ xs, y.isNaN = false) :
    xs.foldl greater x ∈ x :: xs ∧ ∀ y ∈ x :: xs, rank y ≤ rank (xs.foldl greater x) := by
  induction xs generalizing x with
  | nil => simp
  | cons y ys ih =>
    have hy := hxs y List.mem_cons_self
    have hys : ∀ z ∈ ys, z.isNaN = false := fun z hz => hxs z (List.mem_cons_of_mem _ hz)
    obtain ⟨hchoice, hlex, hley⟩ := greater_spec hx hy
    have hgreater : (greater x y).isNaN = false := by
      obtain h | h := hchoice <;> rw [h] <;> assumption
    obtain ⟨hmem, hle⟩ := ih hgreater hys
    rw [List.foldl_cons]
    refine ⟨?_, fun z hz => ?_⟩
    · obtain hfirst | hrest := List.mem_cons.1 hmem
      · rw [hfirst]
        obtain h | h := hchoice <;> rw [h] <;> simp
      · exact List.mem_cons_of_mem _ (List.mem_cons_of_mem _ hrest)
    · have hmost := hle _ List.mem_cons_self
      obtain rfl | hz := List.mem_cons.1 hz
      · exact le_trans hlex hmost
      · obtain rfl | hz := List.mem_cons.1 hz
        · exact le_trans hley hmost
        · exact hle z (List.mem_cons_of_mem _ hz)

theorem isPeak_of_peak? (h : peak? s = some p) : IsPeak s p := by
  rw [peak?] at h
  split at h
  · cases h
  · next first rest hfinite =>
    have hmem : ∀ x, x ∈ first :: rest ↔ x ∈ s.samples ∧ x.isFinite = true := by
      intro x
      rw [← hfinite, List.mem_filter]
    have hnumber : ∀ x ∈ first :: rest, x.isNaN = false := fun x hx =>
      isNaN_of_isFinite ((hmem x).1 hx).2
    obtain ⟨hp, hle⟩ := foldl_greater_spec (hnumber first List.mem_cons_self)
      fun x hx => hnumber x (List.mem_cons_of_mem _ hx)
    rw [Option.some_inj] at h
    rw [h] at hp hle
    refine ⟨((hmem p).1 hp).1, ((hmem p).1 hp).2, fun x hx hxfinite => ?_⟩
    have hx' := (hmem x).2 ⟨hx, hxfinite⟩
    exact (le_iff_rank_le (hnumber x hx') (hnumber p hp)).2 (hle x hx')

/-- A snapshot has a peak exactly if one of its samples is finite. -/
theorem exists_peak?_iff : (∃ p, peak? s = some p) ↔ ∃ x ∈ s.samples, x.isFinite = true := by
  rw [peak?]
  cases hfinite : s.samples.filter Float.isFinite with
  | nil =>
    rw [List.filter_eq_nil_iff] at hfinite
    exact iff_of_false nofun fun ⟨x, hx, hxfinite⟩ => hfinite x hx hxfinite
  | cons first rest =>
    have hfirst : first ∈ s.samples.filter Float.isFinite := by simp [hfinite]
    exact iff_of_true ⟨_, rfl⟩ ⟨first, List.mem_filter.1 hfirst⟩

/-! ### The issues -/

/-- Some of the snapshots has this peak, and no one has another. -/
def SharedPeak (last : List Snapshot) (p : Float) : Prop :=
  (∃ s ∈ last, peak? s = some p) ∧ ∀ s ∈ last, ∀ q, peak? s = some q → q = p

theorem mem_peakBits_iff {last : List Snapshot} {bits : UInt64} :
    bits ∈ (last.filterMap peak?).map Float.toBits ↔
      ∃ s ∈ last, ∃ p, peak? s = some p ∧ p.toBits = bits := by
  simp only [List.mem_map, List.mem_filterMap]
  constructor
  · rintro ⟨p, ⟨s, hs, hp⟩, hbits⟩
    exact ⟨s, hs, p, hp, hbits⟩
  · rintro ⟨s, hs, p, hp, hbits⟩
    exact ⟨p, ⟨s, hs, hp⟩, hbits⟩

theorem distinct_peaks_eq_singleton_iff {last : List Snapshot} {p : Float} :
    distinct ((last.filterMap peak?).map Float.toBits) = [p.toBits] ↔ SharedPeak last p := by
  rw [distinct_eq_singleton_iff]
  simp only [mem_peakBits_iff, Float.toBits_inj]
  constructor
  · rintro ⟨⟨s, hs, q, hq, rfl⟩, hall⟩
    exact ⟨⟨s, hs, hq⟩, fun t ht r hr => Float.toBits_inj.1 (hall _ ⟨t, ht, r, hr, rfl⟩)⟩
  · rintro ⟨⟨s, hs, hp⟩, hall⟩
    refine ⟨⟨s, hs, p, hp, rfl⟩, ?_⟩
    rintro _ ⟨t, ht, q, hq, rfl⟩
    rw [hall t ht q hq]

/-- The issue on the digests of the last snapshots, if there is one. -/
def identicalIssues (last : List Snapshot) : List String :=
  if 1 < last.length && (distinct (last.map signature)).length == 1 then
    [identicalLine last.length]
  else []

/-- The issue on their peaks, if there is one. -/
def peakIssues (last : List Snapshot) : List String :=
  match distinct ((last.filterMap peak?).map Float.toBits) with
  | [bits] =>
    if 1 < last.length then
      [peakLine last.length (Decimal.scientificPlaces 10 (Float.ofBits bits))]
    else []
  | _ => []

theorem issues_of_ne_nil (h : finals runs ≠ []) :
    (checkOutputDiversity runs).issues =
      identicalIssues (finals runs) ++ peakIssues (finals runs) := by
  rw [checkOutputDiversity, if_neg (by simpa using h)]
  rfl

theorem mem_identicalIssues_iff {last : List Snapshot} {line : String} :
    line ∈ identicalIssues last ↔ 1 < last.length ∧ line = identicalLine last.length ∧
      ∀ s ∈ last, ∀ t ∈ last, signature s = signature t := by
  have hsame : (distinct (last.map signature)).length = 1 ↔
      last ≠ [] ∧ ∀ s ∈ last, ∀ t ∈ last, signature s = signature t := by
    rw [length_distinct_eq_one_iff]
    simp only [ne_eq, List.map_eq_nil_iff, List.forall_mem_map]
  rw [identicalIssues]
  split_ifs with h
  · rw [Bool.and_eq_true, decide_eq_true_eq, beq_iff_eq, hsame] at h
    rw [List.mem_singleton]
    exact ⟨fun hline => ⟨h.1, hline, h.2.2⟩, fun hline => hline.2.1⟩
  · rw [Bool.and_eq_true, decide_eq_true_eq, beq_iff_eq, hsame] at h
    refine iff_of_false List.not_mem_nil fun ⟨hmany, _, hall⟩ => h ⟨hmany, ?_, hall⟩
    rintro rfl
    cases hmany

theorem mem_peakIssues_iff {last : List Snapshot} {line : String} :
    line ∈ peakIssues last ↔ 1 < last.length ∧ ∃ p, SharedPeak last p ∧
      line = peakLine last.length (Decimal.scientificPlaces 10 p) := by
  rw [peakIssues]
  split
  · next bits hbits =>
    obtain ⟨s, hs, p, hp, rfl⟩ := mem_peakBits_iff.1 (distinct_eq_singleton_iff.1 hbits).1
    have hshared := distinct_peaks_eq_singleton_iff.1 hbits
    have honly : ∀ q, SharedPeak last q ↔ q = p :=
      fun q => ⟨fun hq => (hq.2 s hs p hp).symm, fun hq => hq ▸ hshared⟩
    rw [Float.ofBits_toBits]
    simp only [honly, exists_eq_left]
    split_ifs with hmany
    · rw [List.mem_singleton]
      exact ⟨fun hline => ⟨hmany, hline⟩, And.right⟩
    · exact iff_of_false List.not_mem_nil fun h => hmany h.1
  · next hbits =>
    refine iff_of_false List.not_mem_nil fun ⟨_, p, hp, _⟩ => ?_
    exact hbits _ (distinct_peaks_eq_singleton_iff.2 hp)

/-- Where nothing can be read neither issue is reported. -/
theorem not_mem_issues_of_nil {line : String} (hnil : finals runs = [])
    (hline : line.toList.head? = some 'a') : line ∉ (checkOutputDiversity runs).issues := by
  rw [checkOutputDiversity, hnil]
  intro h
  rw [List.mem_singleton.1 h] at hline
  revert hline
  decide

/-- When the issue that the peaks are the same is reported. -/
theorem peakLine_mem_iff :
    peakLine n value ∈ (checkOutputDiversity runs).issues ↔
      1 < n ∧ n = (finals runs).length ∧
        ∃ p, value = Decimal.scientificPlaces 10 p ∧ SharedPeak (finals runs) p := by
  by_cases hnil : finals runs = []
  · refine iff_of_false (not_mem_issues_of_nil hnil ?_) fun ⟨hmany, hcount, _⟩ => ?_
    · rw [toList_peakLine]
      rfl
    · rw [hcount, hnil] at hmany
      cases hmany
  · rw [issues_of_ne_nil hnil, List.mem_append, mem_identicalIssues_iff, mem_peakIssues_iff]
    simp only [peakLine_ne_identicalLine, peakLine_inj, false_and, and_false, false_or]
    constructor
    · rintro ⟨hmany, p, hp, rfl, hvalue⟩
      exact ⟨hmany, rfl, p, hvalue, hp⟩
    · rintro ⟨hmany, rfl, p, hvalue, hp⟩
      exact ⟨hmany, p, hp, rfl, hvalue⟩

/-- When the issue that the outputs are the same is reported. -/
theorem identicalLine_mem_iff :
    identicalLine n ∈ (checkOutputDiversity runs).issues ↔
      1 < n ∧ n = (finals runs).length ∧
        ∀ s ∈ finals runs, ∀ t ∈ finals runs, signature s = signature t := by
  by_cases hnil : finals runs = []
  · refine iff_of_false (not_mem_issues_of_nil hnil ?_) fun ⟨hmany, hcount, _⟩ => ?_
    · rw [toList_identicalLine]
      rfl
    · rw [hcount, hnil] at hmany
      cases hmany
  · rw [issues_of_ne_nil hnil, List.mem_append, mem_identicalIssues_iff, mem_peakIssues_iff]
    simp only [identicalLine_inj, (peakLine_ne_identicalLine _ _ _).symm, and_false, exists_false,
      or_false]
    constructor
    · rintro ⟨hmany, rfl, hall⟩
      exact ⟨hmany, rfl, hall⟩
    · rintro ⟨hmany, rfl, hall⟩
      exact ⟨hmany, rfl, hall⟩

/-! ### What the issues stand for -/

/-- The issue on the peaks is reported for two or more runs if those of their last snapshots that
have a peak have the same one. All of them have it exactly if each holds a finite sample. -/
theorem peak_shared_iff (runs : List SampledRun) (n : ℕ) (value : String) :
    (peakLine n value ∈ (checkOutputDiversity runs).issues ↔
      1 < n ∧ n = (finals runs).length ∧
        ∃ p, value = Decimal.scientificPlaces 10 p ∧ SharedPeak (finals runs) p) ∧
    ∀ p, SharedPeak (finals runs) p →
      ((∀ s ∈ finals runs, peak? s = some p ∧ IsPeak s p) ↔
        ∀ s ∈ finals runs, ∃ x ∈ s.samples, x.isFinite = true) := by
  refine ⟨peakLine_mem_iff, fun p hp => ⟨fun hall s hs => ?_, fun hall s hs => ?_⟩⟩
  · exact exists_peak?_iff.1 ⟨p, (hall s hs).1⟩
  · obtain ⟨q, hq⟩ := exists_peak?_iff.2 (hall s hs)
    obtain rfl := hp.2 s hs q hq
    exact ⟨hq, isPeak_of_peak? hq⟩

/-- Runs that end with these snapshots. -/
def endingWith (last : List Snapshot) : List SampledRun :=
  last.map fun s => ⟨"a", "outputs/a", .ok [s]⟩

theorem finals_endingWith (last : List Snapshot) : finals (endingWith last) = last := by
  rw [finals, endingWith, List.filterMap_map]
  exact List.filterMap_some

/-- A snapshot without samples is counted among those that share the peak of the other. -/
theorem peak_shared_with_empty :
    peakLine 2 "1.0000000000e0" ∈
        (checkOutputDiversity (endingWith [⟨0, [("rho", [1])]⟩, ⟨0, [("rho", [])]⟩])).issues ∧
      ¬ ∃ p, ∀ s ∈ finals (endingWith [⟨0, [("rho", [1])]⟩, ⟨0, [("rho", [])]⟩]),
        peak? s = some p := by
  have hone : (1 : Float).isFinite = true ∧
      "1.0000000000e0" = Decimal.scientificPlaces 10 1 := by decide +kernel
  have hpeak : ∀ time, peak? ⟨time, [("rho", [1])]⟩ = some 1 := by
    intro time
    rw [peak?]
    simp [Snapshot.samples, hone.1]
  rw [peakLine_mem_iff, finals_endingWith]
  refine ⟨⟨by decide, rfl, 1, hone.2, ⟨_, List.mem_cons_self, hpeak 0⟩, ?_⟩, ?_⟩
  · intro s hs q hq
    obtain rfl | rfl : s = _ ∨ s = _ := by simpa using hs
    · exact Option.some.inj (hq.symm.trans (hpeak 0))
    · cases hq
  · rintro ⟨p, hp⟩
    cases hp _ (List.mem_cons_of_mem _ List.mem_cons_self)

/-- If no two contents have one digest, the issue on the outputs is reported exactly where the bytes
of the last snapshots are the same. Equal bytes are equal contents for snapshots of one shape, and
so they are for comparable ones. -/
theorem identical_iff_of_comparable (s t : Snapshot) (runs : List SampledRun)
    (hdigest : Set.InjOn Digest.sha256 {bytes | ∃ u ∈ finals runs, contentBytes u = bytes}) :
    (SameContents s t ↔ contentBytes s = contentBytes t ∧ shape s.fields = shape t.fields) ∧
    (Comparable s t → (SameContents s t ↔ contentBytes s = contentBytes t)) ∧
    (∀ n, identicalLine n ∈ (checkOutputDiversity runs).issues ↔
      1 < n ∧ n = (finals runs).length ∧
        ∀ u ∈ finals runs, ∀ v ∈ finals runs, contentBytes u = contentBytes v) ∧
    ((∀ u ∈ finals runs, ∀ v ∈ finals runs, Comparable u v) → ∀ n,
      identicalLine n ∈ (checkOutputDiversity runs).issues →
        ∀ u ∈ finals runs, ∀ v ∈ finals runs, SameContents u v) := by
  have hsame : (∀ u ∈ finals runs, ∀ v ∈ finals runs, signature u = signature v) ↔
      ∀ u ∈ finals runs, ∀ v ∈ finals runs, contentBytes u = contentBytes v :=
    ⟨fun h u hu v hv => hdigest ⟨u, hu, rfl⟩ ⟨v, hv, rfl⟩ (h u hu v hv),
      fun h u hu v hv => congrArg Digest.sha256 (h u hu v hv)⟩
  have hreported : ∀ n, identicalLine n ∈ (checkOutputDiversity runs).issues ↔
      1 < n ∧ n = (finals runs).length ∧
        ∀ u ∈ finals runs, ∀ v ∈ finals runs, contentBytes u = contentBytes v := by
    intro n
    rw [identicalLine_mem_iff, hsame]
  refine ⟨sameContents_iff, Comparable.sameContents_iff, hreported, ?_⟩
  intro hcomparable n hn u hu v hv
  exact (hcomparable u hu v hv).sameContents_iff.2 (((hreported n).1 hn).2.2 u hu v hv)

theorem different_outputs_not_identical :
    identicalLine 2 ∉
      (checkOutputDiversity (endingWith [⟨0, [("rho", [1])]⟩, ⟨0, [("rho", [2])]⟩])).issues := by
  obtain ⟨first, hfirst⟩ : ∃ s : Snapshot, s = ⟨0, [("rho", [1])]⟩ := ⟨_, rfl⟩
  obtain ⟨second, hsecond⟩ : ∃ s : Snapshot, s = ⟨0, [("rho", [2])]⟩ := ⟨_, rfl⟩
  have hdigests : Digest.sha256 (contentBytes first) ≠ Digest.sha256 (contentBytes second) := by
    rw [hfirst, hsecond]
    decide +kernel
  have hdigest : Set.InjOn Digest.sha256
      {bytes | ∃ u ∈ finals (endingWith [first, second]), contentBytes u = bytes} := by
    rw [finals_endingWith]
    rintro _ ⟨u, hu, rfl⟩ _ ⟨v, hv, rfl⟩ heq
    obtain rfl | rfl : u = first ∨ u = second := by simpa using hu
    · obtain rfl | rfl : v = u ∨ v = second := by simpa using hv
      · rfl
      · exact absurd heq hdigests
    · obtain rfl | rfl : v = first ∨ v = u := by simpa using hv
      · exact absurd heq.symm hdigests
      · rfl
  rw [← hfirst, ← hsecond,
    (identical_iff_of_comparable first second _ hdigest).2.2.1, finals_endingWith]
  rintro ⟨-, -, hall⟩
  exact hdigests (congrArg Digest.sha256
    (hall first List.mem_cons_self second (List.mem_cons_of_mem _ List.mem_cons_self)))

/-- The last sample of a field is read as the name of another one. -/
theorem identical_of_split_field :
    identicalLine 2 ∈ (checkOutputDiversity (endingWith
        [⟨0, [("rho", [1]), ("ux", [Float.ofBits 0x0072616568737875])]⟩,
          ⟨0, [("rho", [1]), ("ux", []), ("uxshear", [])]⟩])).issues ∧
      ¬ SameContents ⟨0, [("rho", [1]), ("ux", [Float.ofBits 0x0072616568737875])]⟩
        ⟨0, [("rho", [1]), ("ux", []), ("uxshear", [])]⟩ := by
  have hsample : sampleBytes (Float.ofBits 0x0072616568737875) =
      Digest.bytesOf "uxshear" ++ [0] := by decide +kernel
  have hbytes := contentBytes_split hsample 0 0 [("rho", [1])] [] "ux" [] []
  constructor
  · rw [identicalLine_mem_iff, finals_endingWith]
    refine ⟨by decide, rfl, fun s hs t ht => congrArg Digest.sha256 ?_⟩
    obtain rfl | rfl : s = _ ∨ s = _ := by simpa using hs
    · obtain rfl | rfl : t = _ ∨ t = _ := by simpa using ht
      · rfl
      · exact hbytes
    · obtain rfl | rfl : t = _ ∨ t = _ := by simpa using ht
      · exact hbytes.symm
      · rfl
  · rw [sameContents_iff_fields]
    intro h
    cases h

end ParamSweep.Integrity
