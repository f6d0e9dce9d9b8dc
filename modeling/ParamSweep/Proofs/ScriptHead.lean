import Mathlib
import ParamSweep.Proofs.NumericNames
import ParamSweep.Proofs.TaskNumbers
import ParamSweep.Programs.Shell

/-!
The head of a job script: the lines before its commands, in which the scheduler looks for options.

The script sets four options itself, and refuses a plan that names one of them as a directive. But
the directives are pasted into lines: a key or a value with a blank, an equals sign or a line feed in
it can spell an option that it is not. `setOnce_iff_keptApart` says exactly when each of the four
stands in the head once, as the script sets it.
-/

namespace ParamSweep

/-! ### Words of a line -/

namespace Text

/-- What stands before the first separator joins the first piece of what follows. -/
theorem splitOn_append_of_not_mem {c : Char} {before : List Char} (h : c ∉ before)
    (behind : List Char) :
    ∃ piece pieces, splitOn c behind = piece :: pieces ∧
      splitOn c (before ++ behind) = (before ++ piece) :: pieces := by
  induction before with
  | nil =>
    obtain ⟨piece, pieces, hbehind⟩ := List.exists_cons_of_ne_nil (splitOn_ne_nil c behind)
    exact ⟨piece, pieces, hbehind, hbehind⟩
  | cons d rest ih =>
    obtain ⟨hd, hrest⟩ := List.ne_and_not_mem_of_not_mem_cons h
    obtain ⟨piece, pieces, hbehind, happend⟩ := ih hrest
    refine ⟨piece, pieces, hbehind, ?_⟩
    rw [List.cons_append, splitOn, if_neg hd.symm, happend]
    rfl

theorem not_mem_of_mem_splitOn {c : Char} :
    ∀ {cs piece : List Char}, piece ∈ splitOn c cs → c ∉ piece
  | [], piece, hpiece => by
    rw [splitOn, List.mem_singleton] at hpiece
    exact hpiece ▸ List.not_mem_nil
  | d :: rest, piece, hpiece => by
    rw [splitOn] at hpiece
    split at hpiece
    · rcases List.mem_cons.1 hpiece with rfl | hpiece
      · exact List.not_mem_nil
      · exact not_mem_of_mem_splitOn hpiece
    next hd =>
      obtain ⟨first, others, hs⟩ := List.exists_cons_of_ne_nil (splitOn_ne_nil c rest)
      have hrest : ∀ piece ∈ first :: others, c ∉ piece := fun piece hmem =>
        not_mem_of_mem_splitOn (hs ▸ hmem)
      rw [hs] at hpiece
      rcases List.mem_cons.1 hpiece with rfl | hpiece
      · exact List.not_mem_cons_of_ne_of_not_mem (Ne.symm hd) (hrest first List.mem_cons_self)
      · exact hrest piece (List.mem_cons_of_mem _ hpiece)

end Text

namespace Shell

/-- A text without a character that divides words or lines. -/
def Solid (s : String) : Prop := ∀ c ∈ s.toList, c ≠ ' ' ∧ c ≠ '\t' ∧ c ≠ '\n'

variable {s t : String}

theorem Solid.append (hs : Solid s) (ht : Solid t) : Solid (s ++ t) := by
  intro c hc
  rw [String.toList_append, List.mem_append] at hc
  exact hc.elim (hs c) (ht c)

theorem Solid.not_mem_feed (h : Solid s) : '\n' ∉ s.toList := fun hc => (h _ hc).2.2 rfl

theorem Solid.map_eq (h : Solid s) :
    (s.toList.map fun c => if c = '\n' || c = '\t' then ' ' else c) = s.toList := by
  conv_rhs => rw [← List.map_id s.toList]
  refine List.map_congr_left fun c hc => ?_
  simp [(h c hc).2.1, (h c hc).2.2]

theorem splitBlanks_blank_append (s t : String) :
    splitBlanks (s ++ " " ++ t) = splitBlanks s ++ splitBlanks t := by
  have hblank : (" " : String).toList = [' '] := rfl
  simp only [splitBlanks, String.toList_append, hblank, List.map_append, List.append_assoc]
  rw [List.map_singleton, List.singleton_append, if_neg (by decide), Text.splitOn_append_cons,
    List.filter_append, List.map_append]

/-- A text without blanks stays together at the front of the first word. -/
theorem splitBlanks_solid_append (hs : Solid s) (hne : s ≠ "") (t : String) :
    ∃ rest words, splitBlanks (s ++ t) = (s ++ rest) :: words := by
  have hblank : ' ' ∉ s.toList := fun hc => (hs _ hc).1 rfl
  obtain ⟨piece, pieces, -, happend⟩ := Text.splitOn_append_of_not_mem hblank
    (t.toList.map fun c => if c = '\n' || c = '\t' then ' ' else c)
  refine ⟨String.ofList piece, (pieces.filter fun w => !w.isEmpty).map String.ofList, ?_⟩
  have hfilled : (!(s.toList ++ piece).isEmpty) = true := by simp [hne]
  rw [splitBlanks, String.toList_append, List.map_append, hs.map_eq, happend,
    List.filter_cons_of_pos (by exact hfilled), List.map_cons, String.ofList_append,
    String.ofList_toList]

theorem splitBlanks_solid (hs : Solid s) (hne : s ≠ "") : splitBlanks s = [s] := by
  have hblank : ' ' ∉ s.toList := fun hc => (hs _ hc).1 rfl
  have hfilled : (!s.toList.isEmpty) = true := by simp [hne]
  rw [splitBlanks, hs.map_eq, Text.splitOn_of_not_mem hblank,
    List.filter_cons_of_pos (by exact hfilled), List.filter_nil, List.map_singleton,
    String.ofList_toList]

end Shell

namespace Script

open Shell (Solid splitBlanks)

/-! ### Lines that set options -/

/-- The pieces of a text between its line feeds. -/
def pieces (s : String) : List String := (Text.splitOn '\n' s.toList).map String.ofList

/-- The line with which the commands of a script begin. -/
def strictMode : String := "set -euo pipefail"

/-- The lines of a script before its commands. -/
def headLines (script : String) : List String := (pieces script).takeWhile (· ≠ strictMode)

/-- The option that a word spells. -/
def option? (word : String) : Option String :=
  match word.toList with
  | '-' :: '-' :: rest => some (String.ofList (rest.takeWhile (· ≠ '=')))
  | _ => none

/-- Whether one of the words of a directive spells an option. -/
def sets (option line : String) : Bool :=
  Text.startsWith "#SBATCH".toList line.toList &&
    ((splitBlanks line).filterMap option?).contains option

/-- The directive that gives an option a value. -/
def directiveLine (option value : String) : String := "#SBATCH --" ++ option ++ "=" ++ value

/-- The options that tie a script to its suite, with their values. -/
def ownSettings (i : Inputs) : List (String × String) :=
  [("job-name", i.experiment), ("array", "1-" ++ toString i.numRuns),
   ("output", i.logsDir ++ "/%A_%a.out"), ("error", i.logsDir ++ "/%A_%a.err")]

/-- The lines of the plan's directives that stand in the head of the script. -/
def planLines (hpc : HpcSettings) : List String :=
  (((planDirectives hpc.sbatch).toOption.getD []).flatMap pieces).takeWhile (· ≠ strictMode)

/-- The script sets each of its options in one line of its head, and no other line of the head sets
it. -/
def SetOnce (i : Inputs) (script : String) : Prop :=
  ∀ p ∈ ownSettings i, (headLines script).filter (sets p.1) = [directiveLine p.1 p.2]

/-- The script's own directives and those of the plan keep out of each other's way. -/
structure KeptApart (i : Inputs) : Prop where
  /-- The script's own values stay on their lines. -/
  feed : ∀ p ∈ ownSettings i, '\n' ∉ p.2.toList
  /-- They spell no option of the script. -/
  own : ∀ p ∈ ownSettings i, ∀ o ∈ reserved, sets o (directiveLine p.1 p.2) = true → o = p.1
  /-- The lines of the plan spell no option of the script. -/
  plan : ∀ line ∈ planLines i.hpc, ∀ o ∈ reserved, sets o line = false

variable {i : Inputs} {script o key value : String}

theorem ownDirectives_eq (i : Inputs) :
    ownDirectives i = (ownSettings i).map fun p => directiveLine p.1 p.2 := by
  simp only [ownDirectives, ownSettings, directiveLine, List.map_cons, List.map_nil,
    String.append_assoc]
  rfl

theorem exists_ownSetting (ho : o ∈ reserved) : ∃ v, (o, v) ∈ ownSettings i := by
  simp only [reserved, List.mem_cons, List.not_mem_nil, or_false] at ho
  rcases ho with rfl | rfl | rfl | rfl <;> simp [ownSettings]

theorem mem_reserved_of_ownSettings {p : String × String} (hp : p ∈ ownSettings i) :
    p.1 ∈ reserved := by
  simp only [ownSettings, List.mem_cons, List.not_mem_nil, or_false] at hp
  rcases hp with rfl | rfl | rfl | rfl <;> simp [reserved]

/-! ### What a directive sets -/

/-- A key that is one word, and not cut off where its value begins. -/
def PlainKey (key : String) : Prop := Solid key ∧ '=' ∉ key.toList

theorem plainKey_of_reserved (ho : o ∈ reserved) : PlainKey o := by
  simp only [reserved, List.mem_cons, List.not_mem_nil, or_false] at ho
  rcases ho with rfl | rfl | rfl | rfl <;> simp [PlainKey, Solid]

theorem solid_dashes : Solid "--" := by simp [Solid]

theorem solid_equals : Solid "=" := by simp [Solid]

/-- A word spells the key that it begins with, up to an equals sign. -/
theorem option?_dashes (hkey : '=' ∉ key.toList) (rest : String) :
    option? ("--" ++ key ++ "=" ++ rest) = some key ∧ option? ("--" ++ key) = some key := by
  have hdashes : ("--" : String).toList = ['-', '-'] := rfl
  have hequals : ("=" : String).toList = ['='] := rfl
  have hall : ∀ c ∈ key.toList, decide (c ≠ '=') = true := fun c hc =>
    decide_eq_true fun heq => hkey (heq ▸ hc)
  have htake : (key.toList ++ '=' :: rest.toList).takeWhile (· ≠ '=') = key.toList := by
    rw [List.takeWhile_append_of_pos hall, List.takeWhile_cons_of_neg (by simp), List.append_nil]
  have htake' : key.toList.takeWhile (· ≠ '=') = key.toList := List.takeWhile_eq_self_iff.2 hall
  constructor
  · simp only [option?, String.toList_append, hdashes, hequals, List.cons_append,
      List.nil_append, List.append_assoc]
    rw [htake, String.ofList_toList]
  · simp only [option?, String.toList_append, hdashes, List.cons_append, List.nil_append]
    rw [htake', String.ofList_toList]

theorem sets_directive (w : String) :
    sets o ("#SBATCH --" ++ w) = ((splitBlanks ("--" ++ w)).filterMap option?).contains o := by
  have hsplit : "#SBATCH --" ++ w = "#SBATCH" ++ " " ++ ("--" ++ w) := by
    rw [← String.append_assoc]
    rfl
  have hstart : Text.startsWith "#SBATCH".toList ("#SBATCH --" ++ w).toList = true := by
    rw [String.toList_append]
    rfl
  have hmark : splitBlanks "#SBATCH" = ["#SBATCH"] := by decide +kernel
  have hnone : option? "#SBATCH" = none := by decide +kernel
  rw [sets, hstart, Bool.true_and, hsplit, Shell.splitBlanks_blank_append, hmark,
    List.singleton_append, List.filterMap_cons, hnone]

/-- A directive sets its own option, whatever its value is. -/
theorem sets_directiveLine (ho : PlainKey o) (value : String) :
    sets o (directiveLine o value) = true := by
  obtain ⟨rest, words, hwords⟩ := Shell.splitBlanks_solid_append (s := "--" ++ o ++ "=")
    ((solid_dashes.append ho.1).append solid_equals) (by simp) value
  have hline : directiveLine o value = "#SBATCH --" ++ (o ++ "=" ++ value) := by
    simp only [directiveLine, String.append_assoc]
  rw [hline, sets_directive, ← String.append_assoc, ← String.append_assoc, hwords,
    List.filterMap_cons_some (option?_dashes ho.2 rest).1]
  simp

theorem sets_solid {w : String} (hw : Solid w) :
    sets o ("#SBATCH --" ++ w) = decide (option? ("--" ++ w) = some o) := by
  rw [sets_directive, Shell.splitBlanks_solid (solid_dashes.append hw) (by simp)]
  cases h : option? ("--" ++ w) <;> simp [h, eq_comm]

/-- A directive without blanks sets its own option only. -/
theorem eq_of_sets (hkey : PlainKey key) (hvalue : Solid value)
    (h : sets o (directiveLine key value) = true) : o = key := by
  have hline : directiveLine key value = "#SBATCH --" ++ (key ++ "=" ++ value) := by
    simp only [directiveLine, String.append_assoc]
  rw [hline, sets_solid ((hkey.1.append solid_equals).append hvalue), ← String.append_assoc,
    ← String.append_assoc, (option?_dashes hkey.2 value).1] at h
  simpa [eq_comm] using h

theorem eq_of_sets_bare (hkey : PlainKey key) (h : sets o ("#SBATCH --" ++ key) = true) :
    o = key := by
  rw [sets_solid hkey.1, (option?_dashes hkey.2 "").2] at h
  simpa [eq_comm] using h

/-! ### The lines of the head -/

theorem pieces_of_not_mem {s : String} (h : '\n' ∉ s.toList) : pieces s = [s] := by
  rw [pieces, Text.splitOn_of_not_mem h, List.map_singleton, String.ofList_toList]

/-- The pieces of lines that are put together are those of each of them. -/
theorem pieces_join (ls : List String) :
    pieces (String.join (ls.map (· ++ "\n"))) = ls.flatMap pieces ++ [""] := by
  have hfeed : ("\n" : String).toList = ['\n'] := rfl
  induction ls with
  | nil => rfl
  | cons l ls ih =>
    rw [pieces] at ih
    rw [List.map_cons, String.join_cons, pieces, String.toList_append, String.toList_append, hfeed,
      List.append_assoc, List.singleton_append, Text.splitOn_append_cons, List.map_append, ih,
      List.flatMap_cons, List.append_assoc, pieces]

theorem directiveLine_ne_strictMode (option value : String) :
    directiveLine option value ≠ strictMode := by
  intro h
  have hhead := congrArg (fun s : String => s.toList.head?) h
  simp [directiveLine, strictMode, String.toList_append] at hhead

theorem build_ok (h : build i = .ok script) :
    ∃ ds, planDirectives i.hpc.sbatch = .ok ds ∧ ∃ rest, script = String.join
      (("#!/bin/bash" :: ownDirectives i ++ ds ++ "" :: strictMode :: rest).map (· ++ "\n")) := by
  obtain ⟨ls, hlines, rfl⟩ := except_map_ok h
  rw [lines] at hlines
  split at hlines
  · cases hlines
  · obtain ⟨ds, hds, hlines⟩ := except_bind_ok hlines
    cases hlines
    refine ⟨ds, hds, "" :: (moduleLines i.hpc ++ preparation i ++ stageFunction ++ stages i), ?_⟩
    simp only [strictMode, List.append_assoc, List.cons_append, List.nil_append]

theorem pieces_build (h : build i = .ok script)
    (hfeed : ∀ line ∈ ownDirectives i, '\n' ∉ line.toList) :
    ∃ ds rest, planDirectives i.hpc.sbatch = .ok ds ∧ pieces script =
      ("#!/bin/bash" :: ownDirectives i) ++ (ds.flatMap pieces ++ "" :: strictMode :: rest) := by
  obtain ⟨ds, hds, rest, rfl⟩ := build_ok h
  have hshebang : pieces "#!/bin/bash" = ["#!/bin/bash"] := pieces_of_not_mem (by simp)
  have hempty : pieces "" = [""] := pieces_of_not_mem (by simp)
  have hstrict : pieces strictMode = [strictMode] := pieces_of_not_mem (by simp [strictMode])
  have hown : (ownDirectives i).flatMap pieces = ownDirectives i := by
    rw [List.flatMap_congr fun line hline => pieces_of_not_mem (hfeed line hline),
      List.flatMap_singleton']
  refine ⟨ds, rest.flatMap pieces ++ [""], hds, ?_⟩
  simp only [pieces_join, List.flatMap_append, List.flatMap_cons, hshebang, hown, hempty, hstrict,
    List.append_assoc, List.nil_append, List.cons_append]

/-- What sets an option in the head stands in the script's own directives or in the plan's. -/
theorem filter_headLines (h : build i = .ok script)
    (hfeed : ∀ line ∈ ownDirectives i, '\n' ∉ line.toList) (o : String) :
    (headLines script).filter (sets o) =
      (ownDirectives i).filter (sets o) ++ (planLines i.hpc).filter (sets o) := by
  obtain ⟨ds, rest, hds, hpieces⟩ := pieces_build h hfeed
  have hshebang : sets o "#!/bin/bash" = false := by simp [sets, Text.startsWith]
  have hempty : sets o "" = false := by simp [sets, Text.startsWith]
  have hbefore : ∀ line ∈ "#!/bin/bash" :: ownDirectives i, decide (line ≠ strictMode) = true := by
    refine List.forall_mem_cons.2 ⟨by decide, fun line hline => decide_eq_true ?_⟩
    rw [ownDirectives_eq] at hline
    obtain ⟨p, -, rfl⟩ := List.mem_map.1 hline
    exact directiveLine_ne_strictMode p.1 p.2
  have hplan : planLines i.hpc = (ds.flatMap pieces).takeWhile (· ≠ strictMode) := by
    rw [planLines, hds]
    rfl
  rw [headLines, hpieces, List.takeWhile_append_of_pos hbefore, List.filter_append,
    List.filter_cons_of_neg (by simp [hshebang]), hplan, List.takeWhile_append]
  congr 1
  split
  next hall =>
    -- no directive of the plan ends the head: the blank line behind them is its last
    have hself : (ds.flatMap pieces).takeWhile (· ≠ strictMode) = ds.flatMap pieces :=
      (List.takeWhile_prefix _).eq_of_length hall
    rw [hself, List.takeWhile_cons_of_pos (by decide), List.takeWhile_cons_of_neg (by simp),
      List.filter_append, List.filter_cons_of_neg (by simp [hempty]), List.filter_nil,
      List.append_nil]
  next => rfl

theorem option_eq_of_directiveLine (ho : PlainKey o) (hkey : PlainKey key) {v : String}
    (h : directiveLine o v = directiveLine key value) : o = key := by
  have hmark : ∀ k w, (directiveLine k w).toList =
      "#SBATCH ".toList ++ ("--" ++ k ++ "=" ++ w).toList := by
    intro k w
    simp [directiveLine, String.toList_append]
  have htext : ("--" ++ o ++ "=" ++ v).toList = ("--" ++ key ++ "=" ++ value).toList := by
    have hlists := congrArg String.toList h
    rw [hmark, hmark] at hlists
    exact List.append_cancel_left hlists
  have hsame := congrArg option? (String.toList_inj.1 htext)
  rw [(option?_dashes ho.2 v).1, (option?_dashes hkey.2 value).1] at hsame
  exact Option.some.inj hsame

theorem not_mem_feed_of_headLines {line : String} (h : line ∈ headLines script) :
    '\n' ∉ line.toList := by
  obtain ⟨piece, hpiece, rfl⟩ := List.mem_map.1 ((List.takeWhile_prefix _).subset h)
  rw [String.toList_ofList]
  exact Text.not_mem_of_mem_splitOn hpiece

/-- A value without a line feed makes a directive of one line. -/
theorem not_mem_feed_directiveLine (ho : PlainKey o) (hvalue : '\n' ∉ value.toList) :
    '\n' ∉ (directiveLine o value).toList := by
  simp [directiveLine, String.toList_append, ho.1.not_mem_feed, hvalue]

theorem forall_ownDirectives (hfeed : ∀ p ∈ ownSettings i, '\n' ∉ p.2.toList) :
    ∀ line ∈ ownDirectives i, '\n' ∉ line.toList := by
  rw [ownDirectives_eq]
  refine List.forall_mem_map.2 fun p hp => ?_
  exact not_mem_feed_directiveLine (plainKey_of_reserved (mem_reserved_of_ownSettings hp))
    (hfeed p hp)

theorem keptApart_of_setOnce (h : build i = .ok script) (hs : SetOnce i script) : KeptApart i := by
  have hfeed : ∀ p ∈ ownSettings i, '\n' ∉ p.2.toList := by
    intro p hp hmem
    have hline : directiveLine p.1 p.2 ∈ (headLines script).filter (sets p.1) := by
      rw [hs p hp]
      exact List.mem_singleton_self _
    refine not_mem_feed_of_headLines (List.mem_of_mem_filter hline) ?_
    simp [directiveLine, String.toList_append, hmem]
  have honly : ∀ o v, (o, v) ∈ ownSettings i →
      (ownDirectives i).filter (sets o) ++ (planLines i.hpc).filter (sets o) =
        [directiveLine o v] := fun o v ho =>
    (filter_headLines h (forall_ownDirectives hfeed) o).symm.trans (hs (o, v) ho)
  refine ⟨hfeed, fun p hp o ho hsets => ?_, fun line hline o ho => ?_⟩
  · obtain ⟨v, hv⟩ := exists_ownSetting ho
    have hmem : directiveLine p.1 p.2 ∈ (ownDirectives i).filter (sets o) := by
      refine List.mem_filter.2 ⟨?_, hsets⟩
      rw [ownDirectives_eq]
      exact List.mem_map_of_mem hp
    have heq := List.mem_singleton.1 (honly o v hv ▸ List.mem_append_left _ hmem)
    exact (option_eq_of_directiveLine (plainKey_of_reserved (mem_reserved_of_ownSettings hp))
      (plainKey_of_reserved ho) heq).symm
  · obtain ⟨v, hv⟩ := exists_ownSetting ho
    -- the script's own line is there already, so there is no room for one of the plan
    have hown : directiveLine o v ∈ (ownDirectives i).filter (sets o) := by
      refine List.mem_filter.2 ⟨?_, sets_directiveLine (plainKey_of_reserved ho) v⟩
      rw [ownDirectives_eq]
      exact List.mem_map_of_mem hv
    have hlength := congrArg List.length (honly o v hv)
    rw [List.length_append, List.length_singleton] at hlength
    have hpos := List.length_pos_of_mem hown
    have hnil : (planLines i.hpc).filter (sets o) = [] := List.length_eq_zero_iff.1 (by omega)
    exact Bool.eq_false_iff.2 (List.filter_eq_nil_iff.1 hnil line hline)

theorem setOnce_of_keptApart (h : build i = .ok script) (hk : KeptApart i) : SetOnce i script := by
  intro p hp
  have ho := mem_reserved_of_ownSettings hp
  have hplan : (planLines i.hpc).filter (sets p.1) = [] :=
    List.filter_eq_nil_iff.2 fun line hline => by simp [hk.plan line hline p.1 ho]
  have hsame : ∀ q ∈ ownSettings i,
      (sets p.1 ∘ fun q => directiveLine q.1 q.2) q = decide (q.1 = p.1) := by
    intro q hq
    refine Bool.eq_iff_iff.2 ⟨fun hsets => ?_, fun heq => ?_⟩
    · exact decide_eq_true (hk.own q hq p.1 ho hsets).symm
    · rw [← of_decide_eq_true heq]
      exact sets_directiveLine (plainKey_of_reserved (mem_reserved_of_ownSettings hq)) q.2
  have hone : (ownSettings i).filter (fun q => decide (q.1 = p.1)) = [p] := by
    simp only [ownSettings, List.mem_cons, List.not_mem_nil, or_false] at hp
    rcases hp with rfl | rfl | rfl | rfl <;> simp [ownSettings]
  rw [filter_headLines h (forall_ownDirectives hk.feed), hplan, List.append_nil, ownDirectives_eq,
    List.filter_map, List.filter_congr hsame, hone, List.map_singleton]

/-! ### Plain texts -/

/-- The texts that become directives hold no blanks, and the keys no equals sign. -/
structure Plain (i : Inputs) : Prop where
  experiment : Solid i.experiment
  logsDir : Solid i.logsDir
  keys : ∀ e ∈ i.hpc.sbatch, PlainKey e.1
  texts : ∀ e ∈ i.hpc.sbatch, ∀ s, e.2 = .str s → Solid s

theorem mem_planDirectives : ∀ {entries : List (String × Value)} {ds : List String} {d : String},
    planDirectives entries = .ok ds → d ∈ ds →
      ∃ e ∈ entries, e.1 ∉ reserved ∧ directive? e.1 e.2 = .ok (some d)
  | [], _, d, h, hd => by
    cases h
    cases hd
  | (key, value) :: rest, _, d, h, hd => by
    rw [planDirectives] at h
    split at h
    · cases h
    next hkey =>
      obtain ⟨first, hfirst, h⟩ := except_bind_ok h
      obtain ⟨others, hothers, h⟩ := except_bind_ok h
      cases h
      rcases List.mem_append.1 hd with hd | hd
      · refine ⟨(key, value), List.mem_cons_self, by simpa using hkey, ?_⟩
        rw [hfirst, Option.mem_toList.1 hd]
      · obtain ⟨e, he, hfree, hline⟩ := mem_planDirectives hothers hd
        exact ⟨e, List.mem_cons_of_mem _ he, hfree, hline⟩

theorem solid_of_numberChars {s : String} (h : ∀ c ∈ s.toList, c ∈ Naming.numberChars) :
    Solid s := by
  have hchars : ∀ c ∈ Naming.numberChars, c ≠ ' ' ∧ c ≠ '\t' ∧ c ≠ '\n' := by
    simp [Naming.numberChars]
  exact fun c hc => hchars c (h c hc)

theorem solid_nat (n : ℕ) : Solid (toString n) :=
  solid_of_numberChars (Naming.spelled_int n).chars

theorem solid_write (x : Float) : Solid (Decimal.Notation.json.write x) := by
  have hnull : Solid "null" := by simp [Solid]
  have hlayout : ∀ d, Solid (String.ofList (Decimal.Notation.json.layout d)) := by
    intro d
    refine solid_of_numberChars ?_
    rw [String.toList_ofList]
    exact (Naming.Spelled.of_numeral (Decimal.numeral_layout _ d)).chars
  have hsign : Solid (if Decimal.signBit x then "-" else "") := by split <;> simp [Solid]
  rw [Decimal.Notation.write]
  dsimp only
  split
  · exact hnull
  · split
    · exact hnull
    · exact hsign.append (hlayout _)

theorem solid_number (n : Number) : Solid (Value.num n).compact := by
  cases n with
  | int n => exact solid_of_numberChars (by
      simpa [Value.compact, Json.chars, Json.number] using (Naming.spelled_int n).chars)
  | float x => simpa [Value.compact, Json.chars, Json.number] using solid_write x

theorem solid_ownSettings (hp : Plain i) : ∀ p ∈ ownSettings i, Solid p.2 := by
  simp only [ownSettings, List.forall_mem_cons]
  refine ⟨hp.experiment, ?_, ?_, ?_, List.forall_mem_nil _⟩
  · exact Solid.append (by simp [Solid]) (solid_nat i.numRuns)
  · exact hp.logsDir.append (by simp [Solid])
  · exact hp.logsDir.append (by simp [Solid])

/-- A directive of plain texts is one line, and sets the option that its key names. -/
theorem plain_directive {d : String} {value : Value} (hkey : PlainKey key)
    (htext : ∀ s, value = .str s → Solid s) (hd : directive? key value = .ok (some d)) :
    pieces d = [d] ∧ ∀ o, sets o d = true → o = key := by
  have hbare : '\n' ∉ ("#SBATCH --" ++ key).toList := by
    simp [String.toList_append, hkey.1.not_mem_feed]
  have hvalue : ∀ s, Solid s →
      pieces (directiveLine key s) = [directiveLine key s] ∧
        ∀ o, sets o (directiveLine key s) = true → o = key := fun s hs =>
    ⟨pieces_of_not_mem (not_mem_feed_directiveLine hkey hs.not_mem_feed),
      fun o => eq_of_sets hkey hs⟩
  cases value with
  | bool b =>
    cases b with
    | true =>
      cases hd
      exact ⟨pieces_of_not_mem hbare, fun o => eq_of_sets_bare hkey⟩
    | false => cases hd
  | null | list _ | mapping _ => cases hd
  | str s =>
    cases hd
    exact hvalue s (htext s rfl)
  | num n =>
    cases hd
    exact hvalue _ (solid_number n)

theorem keptApart_of_plain (hp : Plain i) : KeptApart i where
  feed p hmem := (solid_ownSettings hp p hmem).not_mem_feed
  own p hmem o ho hsets :=
    eq_of_sets (plainKey_of_reserved (mem_reserved_of_ownSettings hmem))
      (solid_ownSettings hp p hmem) hsets
  plan line hline o ho := by
    obtain ⟨d, hd, hpiece⟩ := List.mem_flatMap.1 ((List.takeWhile_prefix _).subset hline)
    cases hds : planDirectives i.hpc.sbatch with
    | error _ =>
      rw [hds] at hd
      cases hd
    | ok ds =>
      rw [hds] at hd
      obtain ⟨e, he, hfree, hdirective⟩ := mem_planDirectives hds hd
      obtain ⟨hone, hsets⟩ := plain_directive (hp.keys e he) (hp.texts e he) hdirective
      obtain rfl := List.mem_singleton.1 (hone ▸ hpiece)
      exact Bool.eq_false_iff.2 fun hs => hfree (hsets o hs ▸ ho)

/-- Each of the script's own options stands in its head once, with the script's value, exactly if
the directives are kept apart; they are where the texts that become directives are plain. -/
theorem setOnce_iff_keptApart (h : build i = .ok script) :
    (SetOnce i script ↔ KeptApart i) ∧ (Plain i → SetOnce i script) :=
  ⟨⟨keptApart_of_setOnce h, setOnce_of_keptApart h⟩,
    fun hp => setOnce_of_keptApart h (keptApart_of_plain hp)⟩

/-- A suite of four runs with the given directives. -/
def shocktube (sbatch : Entries Value) : Inputs where
  experiment := "shocktube"
  experimentDir := "/work/runs/shocktube"
  logsDir := "/work/runs/shocktube/slurm_logs"
  hpc := { sbatch := sbatch }
  logFiles := {}
  numRuns := 4
  rebuild := true

theorem setOnce_of_shocktube :
    ∃ script, build (shocktube [("exclusive", .bool true), ("ntasks", .nat 4),
        ("time", .str "02:00:00")]) = .ok script ∧
      SetOnce (shocktube [("exclusive", .bool true), ("ntasks", .nat 4),
        ("time", .str "02:00:00")]) script := by
  refine ⟨_, rfl, (setOnce_iff_keptApart rfl).2 ⟨?_, ?_, ?_, ?_⟩⟩
  · simp [shocktube, Solid]
  · simp [shocktube, Solid]
  · simp [shocktube, PlainKey, Solid]
  · simp [shocktube, Solid, Value.nat]

/-- A key with an equals sign in it is not a reserved one, and gives the array a second value. -/
theorem array_set_twice :
    ∃ script, build (shocktube [("array=1-2", .bool true)]) = .ok script ∧
      ¬ SetOnce (shocktube [("array=1-2", .bool true)]) script := by
  refine ⟨_, rfl, fun hs => ?_⟩
  have hlines : planLines (shocktube [("array=1-2", .bool true)]).hpc = ["#SBATCH --array=1-2"] := by
    decide +kernel
  have hsets : sets "array" "#SBATCH --array=1-2" = true := by decide +kernel
  have hfree := (keptApart_of_setOnce rfl hs).plan "#SBATCH --array=1-2"
    (hlines ▸ List.mem_singleton_self _) "array" (by simp [reserved])
  rw [hsets] at hfree
  cases hfree

end Script

end ParamSweep
