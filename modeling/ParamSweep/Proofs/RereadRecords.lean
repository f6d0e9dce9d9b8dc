import Mathlib
import ParamSweep.Output.SuiteRecord
import ParamSweep.Proofs.Derivation
import ParamSweep.Proofs.RereadValues
import ParamSweep.Proofs.TaskNumbers
import ParamSweep.Suite.Generate

/-!
Records read from the indented text of a mapping.

The reader goes through the entries of the mapping one by one. An entry that is no field is passed
over; a field is taken, or the whole record is refused with it. So of a run in the record of a suite
come its name and its digest, and nothing but the parameters can keep it from being read
(`leaves_recordedRun`).
-/

namespace ParamSweep

/-- Entries of different keys, put in the order of the keys. -/
theorem Entries.ofList_eq {α : Type} {pairs t : Entries α} (hnodup : pairs.keys.Nodup)
    (hascending : t.Ascending) (hmem : ∀ p, p ∈ pairs ↔ p ∈ t) : ofList pairs = t := by
  refine (ascending_ofList pairs).ext hascending fun key => Option.ext fun value => ?_
  have hfind : (ofList pairs).find? key = pairs.find? key := by
    rw [ofList, ← union, find?_union_of_nodup hnodup]
    simp [find?]
  rw [hfind, find?_eq_some_iff_of_nodup hnodup, hascending.find?_eq_some_iff, hmem]

namespace Json

variable {α σ : Type} {cs rest : List Char} {level outer : ℕ}

/-! ### Lists of items of one kind -/

section Items

variable {ι : Type} {read? : List Char → Option (α × List Char)} {toValue : ι → Value}
  {reads : ι → Bool} {P : ι → α → Prop} {xs : List ι}

theorem itemsOf?_skip (fuel : ℕ) (cs : List Char) :
    itemsOf? read? fuel (skip cs) = itemsOf? read? fuel cs := by
  cases fuel with
  | zero => rfl
  | succ fuel => rw [itemsOf?, itemsOf?, skip_skip]

/-- Every item takes at least a line. -/
theorem length_le_prettyBehindItem (level : ℕ) (vs : List Value) :
    vs.length ≤ (prettyBehindItem level vs).length := by
  induction vs with
  | nil => simp
  | cons v vs ih =>
    have hline : 0 < (newline level).length := by simp [newline]
    have htext : prettyBehindItem level (v :: vs) =
        ',' :: (newline level ++ (prettyChars level v ++ prettyBehindItem level vs)) := by
      rw [← prettyList_cons, prettyBehindItem]
      simp
    rw [htext, List.length_cons, List.length_cons, List.length_append, List.length_append]
    omega

theorem leaves_itemsOf? {fuel : ℕ} (hne : xs ≠ []) (hproper : ∀ x ∈ xs, (toValue x).Proper)
    (hread : ∀ x ∈ xs, ∀ rest, Stops rest →
      Leaves rest (reads x) (P x) (read? (prettyChars level (toValue x) ++ rest)))
    (hfuel : xs.length ≤ fuel) :
    Leaves rest (xs.all reads) (List.Forall₂ P xs) (itemsOf? read? fuel
      (prettyList level (xs.map toValue) ++ (newline outer ++ ']' :: rest))) := by
  induction xs generalizing fuel with
  | nil => exact absurd rfl hne
  | cons x xs ih =>
    obtain ⟨hx, hproper⟩ := List.forall_mem_cons.1 hproper
    obtain ⟨hfirst, hread⟩ := List.forall_mem_cons.1 hread
    obtain ⟨fuel, rfl⟩ : ∃ n, fuel = n + 1 :=
      Nat.exists_eq_succ_of_ne_zero (by rw [List.length_cons] at hfuel; omega)
    have hskip : skip (prettyList level ((x :: xs).map toValue) ++ (newline outer ++ ']' :: rest)) =
        prettyChars level (toValue x) ++
          (prettyBehindItem level (xs.map toValue) ++ (newline outer ++ ']' :: rest)) := by
      rw [List.map_cons, prettyList_cons, List.append_assoc, skip_newline, List.append_assoc,
        skip_prettyChars hx]
    rw [itemsOf?, hskip, List.all_cons]
    rcases hfirst _ (stops_prettyBehindItem level outer _ (']' :: rest)) with
      ⟨hreads, a, ha, hvalue⟩ | ⟨hreads, hvalue⟩
    · rw [hvalue, hreads]
      cases xs with
      | nil =>
        simp only [List.map_nil, prettyBehindItem, List.nil_append, Option.bind_eq_bind,
          Option.bind_some, skip_newline_bracket]
        exact .inl ⟨rfl, [a], .cons ha .nil, rfl⟩
      | cons x' xs =>
        have hitems := ih (List.cons_ne_nil x' xs) hproper hread (Nat.le_of_succ_le_succ hfuel)
        simp only [List.map_cons, prettyBehindItem, List.cons_append, Option.bind_eq_bind,
          Option.bind_some, skip_comma, Bool.true_and]
        exact hitems.map (a :: ·) fun as has => .cons ha has
    · rw [hvalue, hreads]
      exact .inr ⟨rfl, rfl⟩

/-- A list is read item by item. -/
theorem leaves_listOf? (hproper : ∀ x ∈ xs, (toValue x).Proper)
    (hread : ∀ x ∈ xs, ∀ rest, Stops rest →
      Leaves rest (reads x) (P x) (read? (prettyChars (level + 1) (toValue x) ++ rest))) :
    Leaves rest (xs.all reads) (List.Forall₂ P xs)
      (listOf? read? (prettyChars level (.list (xs.map toValue)) ++ rest)) := by
  cases xs with
  | nil => exact .inl ⟨rfl, [], .nil, rfl⟩
  | cons x xs =>
    obtain ⟨c, cs, hskip, hc, hcs⟩ := skip_prettyList (hproper x List.mem_cons_self) (level + 1)
      (xs.map toValue) (newline level ++ ']' :: rest)
    have hfuel : (x :: xs).length ≤ (c :: cs).length + 1 := by
      have hbehind := length_le_prettyBehindItem (level + 1) (xs.map toValue)
      rw [List.length_map] at hbehind
      rw [hcs, List.length_append, List.length_append, List.length_cons]
      omega
    have hlist : listOf? read? (prettyChars level (.list ((x :: xs).map toValue)) ++ rest) =
        itemsOf? read? ((c :: cs).length + 1)
          (prettyList (level + 1) ((x :: xs).map toValue) ++ (newline level ++ ']' :: rest)) := by
      rw [List.map_cons, prettyChars_list_cons, listOf?, skip_leftBracket, ← itemsOf?_skip, hskip]
      simp only [hskip]
      split
      next heq => exact absurd (List.cons.inj heq).1 hc
      next => rfl
    rw [hlist]
    exact leaves_itemsOf? (List.cons_ne_nil x xs) hproper hread hfuel

end Items

/-! ### Records -/

section Records

variable {fields : List (RecordField σ)} {fuel : ℕ} {seen : List String} {s : σ} {k : String}
  {v : Value} {t : List (String × Value)}

theorem recordEntries?_skip (fuel : ℕ) (seen : List String) (s : σ) (cs : List Char) :
    recordEntries? fields fuel seen s (skip cs) = recordEntries? fields fuel seen s cs := by
  cases fuel with
  | zero => rfl
  | succ fuel => rw [recordEntries?, recordEntries?, skip_skip]

/-- The reader of a record, before entries that are still to come. -/
def readOn? (fields : List (RecordField σ)) (level outer fuel : ℕ) (seen : List String) (s : σ)
    (rest : List Char) : List (String × Value) → Option (σ × List String × List Char)
  | [] => some (s, seen, rest)
  | p :: t => recordEntries? fields fuel seen s
      (prettyEntries level (p :: t) ++ (newline outer ++ '\x7d' :: rest))

/-- What stands behind an entry tells whether there are more to come. -/
theorem readOn?_behind :
    (match skip (prettyBehindEntry level t ++ (newline outer ++ '\x7d' :: rest)) with
      | '\x7d' :: r => some (s, seen, r)
      | ',' :: r => recordEntries? fields fuel seen s r
      | _ => none) = readOn? fields level outer fuel seen s rest t := by
  cases t with
  | nil =>
    rw [prettyBehindEntry, List.nil_append, skip_newline_brace]
    rfl
  | cons p t =>
    rw [prettyBehindEntry, List.cons_append, skip_comma]
    · rfl
    · simp

/-- An entry that is no field is passed over. -/
theorem readOn?_passed (hfind : fields.find? (·.name == k) = none) (hv : v.Proper) :
    readOn? fields level outer (fuel + 1) seen s rest ((k, v) :: t) =
      readOn? fields level outer fuel seen s rest t := by
  have hvalue := skipFirst?_prettyChars level hv
    (stops_prettyBehindEntry level outer t ('\x7d' :: rest))
  rw [readOn?, recordEntries?, skip_prettyEntries, string?_quote]
  simp only [Option.bind_eq_bind, Option.bind_some, skip_colon, hfind, hvalue, Option.map_some]
  exact readOn?_behind

variable {f : RecordField σ}

/-- A field is taken. -/
theorem readOn?_taken {s' : σ} (hfind : fields.find? (·.name == k) = some f)
    (hseen : seen.contains k = false) (hv : v.Proper)
    (htake : f.take? s (prettyChars level v ++
        (prettyBehindEntry level t ++ (newline outer ++ '\x7d' :: rest))) =
      some (s', prettyBehindEntry level t ++ (newline outer ++ '\x7d' :: rest))) :
    readOn? fields level outer (fuel + 1) seen s rest ((k, v) :: t) =
      readOn? fields level outer fuel (k :: seen) s' rest t := by
  rw [readOn?, recordEntries?, skip_prettyEntries, string?_quote]
  simp only [Option.bind_eq_bind, Option.bind_some, skip_colon, hfind, hseen, skip_blank,
    skip_prettyChars hv, htake, Option.map_some, Bool.false_eq_true, if_false]
  exact readOn?_behind

/-- A field that is refused takes the record with it. -/
theorem readOn?_refused (hfind : fields.find? (·.name == k) = some f) (hv : v.Proper)
    (htake : f.take? s (prettyChars level v ++
      (prettyBehindEntry level t ++ (newline outer ++ '\x7d' :: rest))) = none) :
    readOn? fields level outer (fuel + 1) seen s rest ((k, v) :: t) = none := by
  rw [readOn?, recordEntries?, skip_prettyEntries, string?_quote]
  simp only [Option.bind_eq_bind, Option.bind_some, skip_colon, hfind, skip_blank,
    skip_prettyChars hv, htake, Option.map_none]
  split <;> rfl

theorem length_le_prettyBehindEntry (level : ℕ) (t : List (String × Value)) :
    t.length ≤ (prettyBehindEntry level t).length := by
  induction t with
  | nil => simp
  | cons p t ih =>
    have htext : prettyBehindEntry level (p :: t) = ',' :: (newline level ++ (quote p.1 ++
        ':' :: ' ' :: (prettyChars level p.2 ++ prettyBehindEntry level t))) := by
      rw [← prettyEntries_cons, prettyBehindEntry]
      simp
    simp only [htext, List.length_cons, List.length_append]
    omega

theorem RecordField.take?_of {name : String} {required : Bool}
    {read? : List Char → Option (α × List Char)} {set : α → σ → σ} (s : σ) (cs : List Char) :
    (RecordField.of name required read? set).take? s cs =
      (read? cs).map fun p => (set p.1 s, p.2) := rfl

/-- A record is read entry by entry, and refused if a field is missing. -/
theorem record?_prettyChars (fields : List (RecordField σ)) (level : ℕ) (rest : List Char)
    (blank : σ) (ht : t ≠ []) :
    ∃ fuel, t.length ≤ fuel ∧ record? fields blank (prettyChars level (.mapping t) ++ rest) =
      (readOn? fields (level + 1) level fuel [] blank rest t).bind fun r =>
        if fields.any fun f => f.required && !r.2.1.contains f.name then none
        else some (r.1, r.2.2) := by
  obtain ⟨⟨k, v⟩, t, rfl⟩ := List.exists_cons_of_ne_nil ht
  have hskip := skip_prettyEntries (level + 1) k v t (newline level ++ '\x7d' :: rest)
  have hbehind := length_le_prettyBehindEntry (level + 1) t
  refine ⟨(skip (prettyEntries (level + 1) ((k, v) :: t) ++
    (newline level ++ '\x7d' :: rest))).length + 1, ?_, ?_⟩
  · simp only [hskip, List.length_append, List.length_cons]
    omega
  · rw [readOn?, ← recordEntries?_skip, prettyChars_mapping_cons, record?, skip_leftBrace]
    simp only [hskip, quote, List.cons_append]
    rfl

end Records

theorem leaves_table? (depth level : ℕ) (rest : List Char) {t : List (String × Value)}
    (ht : ∀ p ∈ t, p.2.Proper) :
    Leaves rest (Value.rereadEntries depth t) (fun _ => True)
      (table? depth (prettyChars level (.mapping t) ++ rest)) := by
  cases t with
  | nil => exact .inl ⟨rfl, [], trivial, rfl⟩
  | cons p t =>
    obtain ⟨k, v⟩ := p
    have hskip := skip_prettyEntries (level + 1) k v t (newline level ++ '\x7d' :: rest)
    -- what is skipped in front is made up for by the line of the closing brace
    have hfuel : 2 * (prettyEntries (level + 1) ((k, v) :: t)).length ≤ 2 * (skip (prettyEntries
        (level + 1) ((k, v) :: t) ++ (newline level ++ '\x7d' :: rest))).length + 2 := by
      have hlength := congrArg List.length (prettyEntries_cons (level + 1) k v t)
      simp only [List.length_append, List.length_cons, newline, List.length_replicate] at hlength
      rw [hskip]
      simp only [List.length_append, List.length_cons, newline, List.length_replicate]
      omega
    have hentries := (leaves_entries? _ depth (level + 1) level rest (List.cons_ne_nil (k, v) t) ht
      hfuel).map (Q := fun _ => True) Entries.ofList fun _ _ => trivial
    rw [← entries?_skip, hskip] at hentries
    rw [prettyChars_mapping_cons, table?, skip_leftBrace]
    simp only [hskip]
    exact hentries

end Json

/-- Whether the parameters of a run can be read where its record has them. -/
def Run.rereads (run : Run) : Bool :=
  Value.rereadEntries RecordedRun.parameterDepth run.parameters

namespace RecordedRun

open Json

variable {rest : List Char} {level : ℕ}

theorem runRecord_eq (task : ℕ) (run : Run) : Generate.runRecord task run =
    .mapping [("branch", .str run.branch),
      ("config_digest", .str (Digest.ofValue (configsValue run.configs))), ("name", .str run.name),
      ("parameters", .mapping run.parameters), ("task_id", .nat task)] := by
  have hnodup : ["task_id", "name", "branch", "parameters", "config_digest"].Nodup := by
    decide +kernel
  have hascending : ["branch", "config_digest", "name", "parameters", "task_id"].Pairwise
      (· < ·) := by
    decide +kernel
  refine congrArg Value.mapping (Entries.ofList_eq hnodup hascending fun p => ?_)
  simp only [List.mem_cons, List.not_mem_nil, or_false]
  tauto

def nameField : RecordField RecordedRun := .of "name" true string? fun a r => { r with name := a }

def parametersField : RecordField RecordedRun :=
  .of "parameters" false (table? parameterDepth) fun a r => { r with parameters := a }

def digestField : RecordField RecordedRun :=
  .of "config_digest" false optionalString? fun a r => { r with configDigest := a }

/-- The fields of a run. -/
def fields : List (RecordField RecordedRun) := [nameField, parametersField, digestField]

theorem take?_nameField (r : RecordedRun) (name : String) (behind : List Char) :
    nameField.take? r (prettyChars level (.str name) ++ behind) =
      some ({ r with name := name }, behind) := by
  rw [prettyChars, nameField, RecordField.take?_of, string?_quote]
  rfl

theorem take?_digestField (r : RecordedRun) (digest : String) (behind : List Char) :
    digestField.take? r (prettyChars level (.str digest) ++ behind) =
      some ({ r with configDigest := some digest }, behind) := by
  have hread : optionalString? (quote digest ++ behind) =
    (string? (quote digest ++ behind)).map fun p => (some p.1, p.2) := rfl
  rw [prettyChars, digestField, RecordField.take?_of, hread, string?_quote]
  rfl

theorem find?_fields : fields.find? (·.name == "branch") = none ∧
    fields.find? (·.name == "config_digest") = some digestField ∧
    fields.find? (·.name == "name") = some nameField ∧
    fields.find? (·.name == "parameters") = some parametersField ∧
    fields.find? (·.name == "task_id") = none := by
  simp [fields, nameField, parametersField, digestField, RecordField.of]

/-- A run is recorded with its name and the digest of its documents. -/
def Records (run : Run) (r : RecordedRun) : Prop :=
  r.name = run.name ∧ r.configDigest = some (Digest.ofValue (configsValue run.configs))

/-- A run is read with its name and its digest, unless its parameters cannot be read. -/
theorem leaves_read? (task : ℕ) {run : Run} (h : (Value.mapping run.parameters).Proper) :
    Leaves rest run.rereads (Records run)
      (read? (prettyChars level (Generate.runRecord task run) ++ rest)) := by
  obtain ⟨digest, hvalue⟩ : ∃ digest, digest = Digest.ofValue (configsValue run.configs) :=
    ⟨_, rfl⟩
  obtain ⟨hbranch, hdigest, hname, hparameters, htask⟩ := find?_fields
  rw [runRecord_eq, ← hvalue]
  obtain ⟨fuel, hfuel, hread⟩ := record?_prettyChars fields level rest {}
    (t := [("branch", .str run.branch), ("config_digest", .str digest), ("name", .str run.name),
      ("parameters", .mapping run.parameters), ("task_id", .nat task)]) (by simp)
  obtain ⟨fuel, rfl⟩ : ∃ n, fuel = n + 5 := ⟨fuel - 5, by simp at hfuel; omega⟩
  have hread' : read? = record? fields {} := rfl
  rw [hread', hread, readOn?_passed hbranch (.str _),
    readOn?_taken hdigest (by simp) (.str _) (take?_digestField _ digest _),
    readOn?_taken hname (by simp) (.str _) (take?_nameField _ run.name _)]
  rcases leaves_table? parameterDepth (level + 1) (prettyBehindEntry (level + 1)
    [("task_id", .nat task)] ++ (newline level ++ '\x7d' :: rest)) h.entries with
    ⟨hreads, a, -, htable⟩ | ⟨hreads, htable⟩
  · rw [readOn?_taken hparameters (by simp) h
        (by rw [parametersField, RecordField.take?_of, htable]; rfl),
      readOn?_passed htask (Value.proper_nat _)]
    refine .inl ⟨hreads, ⟨run.name, a, some digest⟩, ⟨rfl, congrArg some hvalue⟩, ?_⟩
    simp [readOn?, fields, nameField, parametersField, digestField, RecordField.of]
  · rw [readOn?_refused hparameters h (by rw [parametersField, RecordField.take?_of, htable]; rfl)]
    exact .inr ⟨hreads, rfl⟩

end RecordedRun

namespace SuiteRecord

open Json

theorem suiteRecord_eq (s : CompiledSuite) (renderer : String) (now : Moment) :
    Generate.suiteRecord s renderer now =
      .mapping [("experiment", .str s.experiment), ("generated_at", .str now.text),
        ("planned_runs", .nat s.plannedRuns), ("rebuild", s.rebuild.toValue),
        ("renderer", .str renderer), ("runs", .list (Generate.runRecords 1 s.runs)),
        ("schema_version", .str "suite_record_v1"),
        ("swept_variables", .strings s.sweptVariables)] := by
  have hnodup : ["schema_version", "experiment", "generated_at", "renderer", "planned_runs",
      "swept_variables", "rebuild", "runs"].Nodup := by
    decide +kernel
  have hascending : ["experiment", "generated_at", "planned_runs", "rebuild", "renderer", "runs",
      "schema_version", "swept_variables"].Pairwise (· < ·) := by
    decide +kernel
  refine congrArg Value.mapping (Entries.ofList_eq hnodup hascending fun p => ?_)
  simp only [List.mem_cons, List.not_mem_nil, or_false]
  tauto

def variablesField : RecordField SuiteRecord :=
  .of "swept_variables" false (listOf? string?) fun a r => { r with sweptVariables := a }

def runsField : RecordField SuiteRecord :=
  .of "runs" false (listOf? RecordedRun.read?) fun a r => { r with runs := a }

/-- The fields of a suite. -/
def fields : List (RecordField SuiteRecord) := [variablesField, runsField]

theorem find?_fields : fields.find? (·.name == "runs") = some runsField ∧
    fields.find? (·.name == "swept_variables") = some variablesField ∧
    ∀ key ∈ ["experiment", "generated_at", "planned_runs", "rebuild", "renderer",
      "schema_version"], fields.find? (·.name == key) = none := by
  simp [fields, variablesField, runsField, RecordField.of]

theorem take?_variablesField {level : ℕ} {rest : List Char} (r : SuiteRecord)
    (names : List String) :
    variablesField.take? r (prettyChars level (.strings names) ++ rest) =
      some ({ r with sweptVariables := names }, rest) := by
  have hnames : Leaves rest (names.all fun _ => true) (List.Forall₂ (· = ·) names)
      (listOf? string? (prettyChars level (.list (names.map Value.str)) ++ rest)) :=
    leaves_listOf? (fun name _ => .str name) fun name _ rest _ =>
      .inl ⟨rfl, name, rfl, string?_quote name rest⟩
  rcases hnames with ⟨-, as, has, hread⟩ | ⟨hnot, -⟩
  · obtain rfl := List.forall₂_eq_eq_eq.symm ▸ has
    rw [variablesField, RecordField.take?_of, Value.strings, hread]
    rfl
  · simp at hnot

theorem proper_runRecord (task : ℕ) {run : Run} (h : (Value.mapping run.parameters).Proper) :
    (Generate.runRecord task run).Proper := by
  refine Value.proper_record ?_
  simp [h, Value.proper_nat, Value.Proper.str]

theorem leaves_runs {level : ℕ} {rest : List Char} {runs : List Run}
    (h : ∀ run ∈ runs, (Value.mapping run.parameters).Proper) :
    Leaves rest (runs.all Run.rereads) (List.Forall₂ RecordedRun.Records runs)
      (listOf? RecordedRun.read?
        (prettyChars level (.list (Generate.runRecords 1 runs)) ++ rest)) := by
  have hmem : ∀ p ∈ runs.zipIdx 1, (Value.mapping p.1.parameters).Proper :=
    fun p hp => h p.1 (List.fst_mem_of_mem_zipIdx hp)
  have hruns : Leaves rest ((runs.zipIdx 1).all fun p => p.1.rereads)
      (List.Forall₂ (fun p => RecordedRun.Records p.1) (runs.zipIdx 1))
      (listOf? RecordedRun.read? (prettyChars level
        (.list ((runs.zipIdx 1).map fun p => Generate.runRecord p.2 p.1)) ++ rest)) :=
    leaves_listOf? (fun p hp => proper_runRecord p.2 (hmem p hp))
      fun p hp rest _ => RecordedRun.leaves_read? p.2 (hmem p hp)
  have hall : ((runs.zipIdx 1).all fun p => p.1.rereads) = runs.all Run.rereads := by
    rw [← List.zipIdx_map_fst 1 runs, List.all_map, List.zipIdx_map_fst]
    rfl
  have hrecords : ∀ as, List.Forall₂ (fun p => RecordedRun.Records p.1) (runs.zipIdx 1) as →
      List.Forall₂ RecordedRun.Records runs as := by
    intro as has
    rw [← List.zipIdx_map_fst 1 runs, List.forall₂_map_left_iff]
    exact has
  rw [← Generate.runRecords_eq, hall] at hruns
  exact hruns.imp_left fun ⟨hreads, as, has, hread⟩ => ⟨hreads, as, hrecords as has, hread⟩

/-- The record of a suite is read with the names and the digests of all runs, unless the parameters
of a run cannot be read. -/
theorem leaves_read? (rest : List Char) {s : CompiledSuite} (renderer : String) (now : Moment)
    (hrebuild : s.rebuild.toValue.Proper)
    (hruns : ∀ run ∈ s.runs, (Value.mapping run.parameters).Proper) :
    Leaves rest (s.runs.all Run.rereads) (fun r => List.Forall₂ RecordedRun.Records s.runs r.runs)
      (read? (prettyChars 0 (Generate.suiteRecord s renderer now) ++ rest)) := by
  obtain ⟨fuel, hfuel, hread⟩ := record?_prettyChars fields 0 rest {}
    (t := [("experiment", .str s.experiment), ("generated_at", .str now.text),
      ("planned_runs", .nat s.plannedRuns), ("rebuild", s.rebuild.toValue),
      ("renderer", .str renderer), ("runs", .list (Generate.runRecords 1 s.runs)),
      ("schema_version", .str "suite_record_v1"),
      ("swept_variables", .strings s.sweptVariables)]) (by simp)
  have hread' : read? = record? fields {} := rfl
  obtain ⟨fuel, rfl⟩ : ∃ n, fuel = n + 8 := ⟨fuel - 8, by simp at hfuel; omega⟩
  obtain ⟨hrunsField, hvariables, hother⟩ := find?_fields
  have hlist : (Value.list (Generate.runRecords 1 s.runs)).Proper := by
    refine .list fun v hv => ?_
    rw [Generate.runRecords_eq] at hv
    obtain ⟨p, hp, rfl⟩ := List.mem_map.1 hv
    exact proper_runRecord p.2 (hruns p.1 (List.fst_mem_of_mem_zipIdx hp))
  have hnames : (Value.strings s.sweptVariables).Proper := by
    refine .list fun v hv => ?_
    obtain ⟨name, -, rfl⟩ := List.mem_map.1 hv
    exact .str name
  rw [suiteRecord_eq, hread', hread, readOn?_passed (hother _ (by simp)) (.str _),
    readOn?_passed (hother _ (by simp)) (.str _),
    readOn?_passed (hother _ (by simp)) (Value.proper_nat _),
    readOn?_passed (hother _ (by simp)) hrebuild, readOn?_passed (hother _ (by simp)) (.str _)]
  rcases leaves_runs hruns with ⟨hreads, as, has, htake⟩ | ⟨hreads, htake⟩
  · rw [readOn?_taken hrunsField (by simp) hlist
        (by rw [runsField, RecordField.take?_of, htake]; rfl),
      readOn?_passed (hother _ (by simp)) (.str _),
      readOn?_taken hvariables (by simp) hnames (take?_variablesField _ _)]
    refine .inl ⟨hreads, ⟨s.sweptVariables, as⟩, has, ?_⟩
    simp [readOn?, fields, variablesField, runsField, RecordField.of]
  · rw [readOn?_refused hrunsField hlist (by rw [runsField, RecordField.take?_of, htake]; rfl)]
    exact .inr ⟨hreads, rfl⟩

end SuiteRecord

end ParamSweep
