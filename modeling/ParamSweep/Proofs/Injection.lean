import ParamSweep.Proofs.Compilation

/-!
What becomes of one entry of one document when the parameters are put in their places.

A parameter with a target goes into a section of a file; if the entry looked at is that section, it
becomes a mapping with the parameter in it (`sectionAfter`). The other parameters are set wherever
they stand, one after the other; the entry looked at is replaced by the parameter of its own name
and searched for the others (`replacedIn`). Together this is `entryAfter`, and `entryOf_inject` says
that nothing else happens.
-/

namespace ParamSweep

namespace Entries

variable {α β : Type}

/-- The last entry of a key. In a table, which has no key twice, it is the only one. -/
def last? (key : String) : Entries α → Option α
  | [] => none
  | (k, v) :: rest => (last? key rest).orElse fun _ => if k = key then some v else none

theorem find?_map (f : α → β) (key : String) (t : Entries α) :
    find? key (t.map fun (k, v) => (k, f v)) = (t.find? key).map f := by
  induction t with
  | nil => rfl
  | cons p rest ih =>
    obtain ⟨k, v⟩ := p
    simp only [List.map_cons, find?]
    split
    · rfl
    · exact ih

theorem last?_filter {keep : String × α → Bool} {key : String}
    (h : ∀ v, keep (key, v) = true) (t : Entries α) :
    last? key (t.filter keep) = last? key t := by
  induction t with
  | nil => rfl
  | cons p rest ih =>
    obtain ⟨k, v⟩ := p
    by_cases hkeep : keep (k, v) = true
    · rw [List.filter_cons_of_pos hkeep, last?, last?, ih]
    · have hk : k ≠ key := by
        rintro rfl
        exact hkeep (h v)
      rw [List.filter_cons_of_neg hkeep, last?, ih, if_neg hk]
      cases last? key rest <;> rfl

end Entries

namespace Compile

variable {plan : Plan} {parameters : Entries Value} {configs configs' : Entries Document}
variable {file key : String}

/-- An entry at the top level of a document. -/
def entryOf (configs : Entries Document) (file key : String) : Option Value :=
  (configs.find? file).bind fun doc => doc.data.get? key

theorem entryOf_insert (other : String) (doc : Document) :
    entryOf (configs.insert other doc) file key =
      if other = file then doc.data.get? key else entryOf configs file key := by
  rw [entryOf, Entries.find?_insert]
  split <;> rfl

/-! ### Parameters with a target -/

/-- A section with a parameter put into it. -/
def withParameter (parameter : String) (value : Value) (entry : Option Value) : Value :=
  .mapping (((entry.bind Value.asMapping?).getD []).insert parameter value)

/-- An entry of a file after the parameters with a target have been put in their places. -/
def sectionAfter (parameters : Entries Value) (file key : String) :
    List (String × Target) → Option Value → Option Value
  | [], entry => entry
  | (parameter, target) :: rest, entry =>
    sectionAfter parameters file key rest <|
      match parameters.find? parameter with
      | some value =>
        if target = ⟨file, key⟩ then some (withParameter parameter value entry) else entry
      | none => entry

/-- A parameter is put into the section `key` of a file. -/
def Fills (parameters : Entries Value) (file key : String) (targets : Entries Target) : Prop :=
  ∃ parameter, (parameter, ⟨file, key⟩) ∈ targets ∧ (parameters.find? parameter).isSome = true

/-- Setting a parameter in a section touches that section alone. -/
theorem get?_setInSection {parameter : String} {«section» : String} {value data data' : Value}
    (h : setInSection file «section» data parameter value = .ok data') :
    data'.get? key =
      if «section» = key then some (withParameter parameter value (data.get? key))
      else data.get? key := by
  cases data with
  | mapping t =>
    simp only [setInSection] at h
    split at h
    · rename_i inner hinner
      cases h
      simp only [Value.get?, Entries.find?_insert]
      by_cases hkey : «section» = key
      · subst hkey
        rw [if_pos rfl, if_pos rfl, withParameter]
        rcases hentry : Entries.find? «section» t with _ | entry <;> rw [hentry] at hinner <;>
          cases hinner <;> rfl
      · rw [if_neg hkey, if_neg hkey]
    · cases h
  | _ => cases h

/-- What was there before is a mapping, if there was anything. -/
theorem isMapping_of_setInSection {parameter : String} {«section» : String}
    {value data data' entry : Value}
    (h : setInSection file «section» data parameter value = .ok data')
    (hentry : data.get? «section» = some entry) : entry.isMapping = true := by
  cases data with
  | mapping t =>
    simp only [setInSection] at h
    split at h
    · rename_i inner hinner
      rw [Value.get?] at hentry
      rw [hentry] at hinner
      cases hinner
      rfl
    · cases h
  | _ => cases h

/-- One target changes one entry. -/
theorem entryOf_setTarget {parameter : String} {target : Target} {value data : Value}
    {doc : Document} (hdoc : configs.find? target.file = some doc)
    (hdata : setInSection target.file target.section doc.data parameter value = .ok data) :
    entryOf (configs.insert target.file { doc with data := data }) file key =
      if target = ⟨file, key⟩ then some (withParameter parameter value (entryOf configs file key))
      else entryOf configs file key := by
  obtain ⟨name, «section»⟩ := target
  rw [entryOf_insert]
  by_cases hfile : name = file
  · subst hfile
    have hentry : entryOf configs name key = doc.data.get? key := by
      rw [entryOf, hdoc, Option.bind_some]
    rw [if_pos rfl, get?_setInSection hdata, hentry]
    simp only [Target.mk.injEq, true_and]
  · have htarget : (⟨name, «section»⟩ : Target) ≠ ⟨file, key⟩ := fun h => hfile (by cases h; rfl)
    rw [if_neg hfile, if_neg htarget]

theorem entryOf_injectTargets {targets : List (String × Target)}
    (h : injectTargets parameters configs targets = .ok configs') :
    entryOf configs' file key =
      sectionAfter parameters file key targets (entryOf configs file key) := by
  induction targets generalizing configs with
  | nil => cases h; rfl
  | cons p rest ih =>
    obtain ⟨parameter, target⟩ := p
    rw [sectionAfter]
    rcases hvalue : parameters.find? parameter with _ | value
    · rw [injectTargets, hvalue] at h
      exact ih h
    · obtain ⟨doc, data, hdoc, hdata, h⟩ := injectTargets_cons_ok hvalue h
      rw [ih h, entryOf_setTarget hdoc hdata]

theorem Fills.cons_iff {parameter : String} {target : Target} {rest : List (String × Target)} :
    Fills parameters file key ((parameter, target) :: rest) ↔
      (target = ⟨file, key⟩ ∧ (parameters.find? parameter).isSome = true) ∨
        Fills parameters file key rest := by
  constructor
  · rintro ⟨name, hmem, hsome⟩
    rcases List.mem_cons.1 hmem with heq | hmem
    · cases heq
      exact Or.inl ⟨rfl, hsome⟩
    · exact Or.inr ⟨name, hmem, hsome⟩
  · rintro (⟨rfl, hsome⟩ | ⟨name, hmem, hsome⟩)
    · exact ⟨parameter, List.mem_cons_self, hsome⟩
    · exact ⟨name, List.mem_cons_of_mem _ hmem, hsome⟩

theorem sectionAfter_of_not_fills {targets : List (String × Target)}
    (h : ¬ Fills parameters file key targets) (entry : Option Value) :
    sectionAfter parameters file key targets entry = entry := by
  induction targets generalizing entry with
  | nil => rfl
  | cons p rest ih =>
    obtain ⟨parameter, target⟩ := p
    rw [Fills.cons_iff, not_or] at h
    rw [sectionAfter, ih h.2]
    rcases hvalue : parameters.find? parameter with _ | value
    · rfl
    · have htarget : target ≠ ⟨file, key⟩ := fun htarget => h.1 ⟨htarget, by rw [hvalue]; rfl⟩
      exact if_neg htarget

theorem sectionAfter_mapping (targets : List (String × Target)) (t : Entries Value) :
    ∃ t', sectionAfter parameters file key targets (some (.mapping t)) = some (.mapping t') := by
  induction targets generalizing t with
  | nil => exact ⟨t, rfl⟩
  | cons p rest ih =>
    obtain ⟨parameter, target⟩ := p
    rw [sectionAfter]
    rcases parameters.find? parameter with _ | value
    · exact ih t
    · simp only
      split
      · exact ih _
      · exact ih t

/-- A section that is filled is a mapping. -/
theorem sectionAfter_of_fills {targets : List (String × Target)}
    (h : Fills parameters file key targets) (entry : Option Value) :
    ∃ t, sectionAfter parameters file key targets entry = some (.mapping t) := by
  induction targets generalizing entry with
  | nil =>
    obtain ⟨_, hmem, _⟩ := h
    cases hmem
  | cons p rest ih =>
    obtain ⟨parameter, target⟩ := p
    rw [sectionAfter]
    rcases Fills.cons_iff.1 h with ⟨rfl, hsome⟩ | h
    · obtain ⟨value, hvalue⟩ := Option.isSome_iff_exists.1 hsome
      rw [hvalue]
      simp only [if_true]
      exact sectionAfter_mapping rest _
    · exact ih h _

/-- A section can be filled only if it is a mapping or not there. -/
theorem isMapping_of_fills {targets : List (String × Target)} {entry : Value}
    (h : injectTargets parameters configs targets = .ok configs')
    (hfills : Fills parameters file key targets) (hentry : entryOf configs file key = some entry) :
    entry.isMapping = true := by
  induction targets generalizing configs with
  | nil =>
    obtain ⟨_, hmem, _⟩ := hfills
    cases hmem
  | cons p rest ih =>
    obtain ⟨parameter, target⟩ := p
    rcases hvalue : parameters.find? parameter with _ | value
    · rw [injectTargets, hvalue] at h
      rcases Fills.cons_iff.1 hfills with ⟨-, hsome⟩ | hfills
      · rw [hvalue] at hsome
        cases hsome
      · exact ih h hfills hentry
    · obtain ⟨doc, data, hdoc, hdata, h⟩ := injectTargets_cons_ok hvalue h
      by_cases htarget : target = ⟨file, key⟩
      · subst htarget
        rw [entryOf, hdoc, Option.bind_some] at hentry
        exact isMapping_of_setInSection hdata hentry
      · refine ih h ?_ ((entryOf_setTarget hdoc hdata).trans ?_)
        · exact (Fills.cons_iff.1 hfills).resolve_left fun hfirst => htarget hfirst.1
        · rw [if_neg htarget, hentry]

/-! ### The other parameters -/

/-- An entry after a parameter has been set wherever it stands. -/
def replacedIn (key : String) (entry : Value) (p : String × Value) : Value :=
  if key = p.1 then p.2 else replaceKey p.1 p.2 entry

theorem find?_replaceKeyIn (parameter : String) (value : Value) (t : List (String × Value)) :
    Entries.find? key (replaceKeyIn parameter value t) =
      (Entries.find? key t).map fun entry => replacedIn key entry (parameter, value) := by
  induction t with
  | nil => rfl
  | cons p rest ih =>
    obtain ⟨k, v⟩ := p
    rw [replaceKeyIn, Entries.find?, Entries.find?]
    by_cases hk : k = key
    · subst hk
      rw [if_pos rfl, if_pos rfl]
      rfl
    · rw [if_neg hk, if_neg hk, ih]

theorem isMapping_replaceKey (parameter : String) (value entry : Value) :
    (replaceKey parameter value entry).isMapping = entry.isMapping := by
  cases entry <;> rfl

theorem get?_replaceKey (parameter : String) (value data : Value) :
    (replaceKey parameter value data).get? key =
      (data.get? key).map fun entry => replacedIn key entry (parameter, value) := by
  cases data with
  | mapping t => exact find?_replaceKeyIn parameter value t
  | _ => rfl

theorem entryOf_replaceEverywhere (parameter : String) (value : Value) :
    entryOf (replaceEverywhere configs parameter value) file key =
      (entryOf configs file key).map fun entry => replacedIn key entry (parameter, value) := by
  have hfind := Entries.find?_map
    (fun doc : Document => { doc with data := replaceKey parameter value doc.data }) file configs
  rw [entryOf, replaceEverywhere, hfind, entryOf]
  cases configs.find? file with
  | none => rfl
  | some doc => exact get?_replaceKey parameter value doc.data

theorem entryOf_foldl (free : List (String × Value)) :
    entryOf (free.foldl (fun acc p => replaceEverywhere acc p.1 p.2) configs) file key =
      (entryOf configs file key).map fun entry => free.foldl (replacedIn key) entry := by
  induction free generalizing configs with
  | nil => simp
  | cons p rest ih =>
    rw [List.foldl_cons, ih, entryOf_replaceEverywhere, Option.map_map]
    rfl

/-! ### All of them -/

/-- The parameters without a target. -/
def freeParameters (plan : Plan) (parameters : Entries Value) : List (String × Value) :=
  parameters.filter fun (k, _) => !plan.parameterTargets.contains k

/-- An entry of a file after all parameters have been put in their places. -/
def entryAfter (plan : Plan) (parameters : Entries Value) (file key : String)
    (entry : Option Value) : Option Value :=
  (sectionAfter parameters file key plan.parameterTargets entry).map fun entry =>
    (freeParameters plan parameters).foldl (replacedIn key) entry

theorem entryOf_inject (h : inject plan configs parameters = .ok configs') :
    entryOf configs' file key = entryAfter plan parameters file key (entryOf configs file key) := by
  obtain ⟨targeted, htargets, h⟩ := except_bind_ok h
  cases h
  rw [entryOf_foldl, entryOf_injectTargets htargets]
  rfl

end Compile

end ParamSweep
