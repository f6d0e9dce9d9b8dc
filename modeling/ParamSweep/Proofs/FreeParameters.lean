import Mathlib.Data.List.Nodup
import Mathlib.Data.List.Perm.Basic
import ParamSweep.Proofs.DocumentData
import ParamSweep.Proofs.ValuePaths

/-!
Where the parameters go, looked at path by path.

A parameter without a target is set wherever a path ends in its name (`descend_replaceKey`). If the
values are no mappings, nothing lies below a place that has been set, so it makes no difference
which of two parameters is set first (`replaceKey_comm`), and each may as well be the last. A
parameter with a target is set at one entry of one section (`leafAt_setInSection`). All other paths
lead to what they led to before; what lies below an entry that is set is gone.
-/

namespace ParamSweep

namespace Compile

variable {plan : Plan} {parameters : Entries Value} {configs configs' : Entries Document}
variable {key other : String} {value otherValue data data' : Value}
variable {path before after : List String}

/-! ### A parameter that is set everywhere -/

theorem replaceKey_of_leaf (h : data.isMapping = false) : replaceKey key value data = data := by
  cases data with
  | mapping t => cases h
  | _ => rfl

/-- A path without the key leads to the same place, in which the key is set. -/
theorem descend_replaceKey_of_not_mem (h : key ∉ path) :
    (replaceKey key value data).descend path = (data.descend path).map (replaceKey key value) := by
  induction path generalizing data with
  | nil => rfl
  | cons k rest ih =>
    obtain ⟨hk, hrest⟩ := not_or.1 (mt List.mem_cons.2 h)
    rw [Value.descend, Value.descend, get?_replaceKey]
    cases data.get? k with
    | none => rfl
    | some w =>
      rw [Option.map_some, replacedIn, if_neg (Ne.symm hk), Option.bind_some, Option.bind_some]
      exact ih hrest

/-- A path through the key leads into the value that has been set. -/
theorem descend_replaceKey (h : key ∉ before) :
    (replaceKey key value data).descend (before ++ key :: after) =
      (data.descend (before ++ [key])).bind fun _ => value.descend after := by
  rw [Value.descend_append, Value.descend_append, descend_replaceKey_of_not_mem h, Option.bind_map,
    Option.bind_assoc]
  congr 1
  funext w
  rw [Function.comp, Value.descend, get?_replaceKey, Value.descend]
  cases w.get? key with
  | none => rfl
  | some entry => simp [replacedIn, Value.descend]

/-- Wherever the key stands, it has the value. -/
theorem eq_of_descend_replaceKey (hvalue : value.isMapping = false) {w : Value}
    (h : (replaceKey key value data).descend (path ++ [key]) = some w) : w = value := by
  obtain ⟨before, after, hpath, hbefore⟩ :=
    List.eq_append_cons_of_mem (List.mem_append_right path List.mem_cons_self)
  rw [hpath, descend_replaceKey hbefore] at h
  obtain ⟨_, -, h⟩ := Option.bind_eq_some_iff.1 h
  cases after with
  | nil => exact (Option.some.inj h).symm
  | cons k rest =>
    rw [Value.descend_of_leaf hvalue] at h
    cases h

mutual

/-- Two keys may be set in either order. -/
theorem replaceKey_comm (hne : key ≠ other) (hvalue : value.isMapping = false)
    (hother : otherValue.isMapping = false) : ∀ data : Value,
    replaceKey key value (replaceKey other otherValue data) =
      replaceKey other otherValue (replaceKey key value data)
  | .mapping t => by
    rw [replaceKey, replaceKey, replaceKey, replaceKey, replaceKeyIn_comm hne hvalue hother t]
  | .null => rfl
  | .bool _ => rfl
  | .num _ => rfl
  | .str _ => rfl
  | .list _ => rfl

theorem replaceKeyIn_comm (hne : key ≠ other) (hvalue : value.isMapping = false)
    (hother : otherValue.isMapping = false) : ∀ t : List (String × Value),
    replaceKeyIn key value (replaceKeyIn other otherValue t) =
      replaceKeyIn other otherValue (replaceKeyIn key value t)
  | [] => rfl
  | (k, v) :: rest => by
    simp only [replaceKeyIn]
    rw [replaceKeyIn_comm hne hvalue hother rest]
    congr 2
    by_cases hk : k = key
    · subst hk
      rw [if_pos rfl, if_pos rfl, if_neg hne, replaceKey_of_leaf hvalue]
    · rw [if_neg hk, if_neg hk]
      by_cases hk' : k = other
      · rw [if_pos hk', if_pos hk', replaceKey_of_leaf hother]
      · rw [if_neg hk', if_neg hk', replaceKey_comm hne hvalue hother v]

end

/-- All other paths lead to what they led to before. -/
theorem leafAt_replaceKey (h : key ∉ path) :
    (replaceKey key value data).leafAt path = data.leafAt path := by
  rw [Value.leafAt, Value.leafAt, descend_replaceKey_of_not_mem h, Option.map_map]
  congr 1
  funext w
  rw [Function.comp, isMapping_replaceKey]
  split
  next => rfl
  next hleaf => rw [replaceKey_of_leaf (Bool.eq_false_iff.2 hleaf)]

/-! ### All parameters without a target -/

/-- The parameters set one after the other. -/
def replaceAll (free : List (String × Value)) (configs : Entries Document) : Entries Document :=
  free.foldl (fun acc p => replaceEverywhere acc p.1 p.2) configs

/-- The parameters in their places, those without a target in a given order. -/
def injectInOrder (plan : Plan) (configs : Entries Document) (parameters : Entries Value)
    (order : List (String × Value)) : Except Cause (Entries Document) := do
  let configs ← injectTargets parameters configs plan.parameterTargets
  .ok (replaceAll order configs)

theorem inject_eq_injectInOrder :
    inject plan configs parameters =
      injectInOrder plan configs parameters (freeParameters plan parameters) := rfl

theorem replaceEverywhere_comm (hne : key ≠ other) (hvalue : value.isMapping = false)
    (hother : otherValue.isMapping = false) (configs : Entries Document) :
    replaceEverywhere (replaceEverywhere configs other otherValue) key value =
      replaceEverywhere (replaceEverywhere configs key value) other otherValue := by
  rw [replaceEverywhere, replaceEverywhere, replaceEverywhere, replaceEverywhere, List.map_map,
    List.map_map]
  refine List.map_congr_left fun p _ => ?_
  simp only [Function.comp, replaceKey_comm hne hvalue hother]

/-- In whatever order the parameters are set, the outcome is the same. -/
theorem replaceAll_perm {free order : List (String × Value)}
    (hvalues : ∀ p ∈ free, p.2.isMapping = false) (hkeys : (Entries.keys free).Nodup)
    (h : order.Perm free) (configs : Entries Document) :
    replaceAll order configs = replaceAll free configs := by
  refine List.Perm.foldl_eq' h (fun p hp q hq acc => ?_) configs
  have hp := h.mem_iff.1 hp
  have hq := h.mem_iff.1 hq
  by_cases hne : p.1 = q.1
  · -- one name, so one parameter
    rw [List.inj_on_of_nodup_map hkeys hp hq hne]
  · exact replaceEverywhere_comm (Ne.symm hne) (hvalues q hq) (hvalues p hp) acc

/-- Every parameter stands wherever its name stands: it may as well have been set last. -/
theorem eq_of_descend_replaceAll {free : List (String × Value)} {p : String × Value}
    (hvalues : ∀ p ∈ free, p.2.isMapping = false) (hkeys : (Entries.keys free).Nodup)
    (hp : p ∈ free) {file : String} {doc : Document}
    (hdoc : (file, doc) ∈ replaceAll free configs) {w : Value}
    (h : doc.data.descend (path ++ [p.1]) = some w) : w = p.2 := by
  obtain ⟨before, after, hfree⟩ := List.append_of_mem hp
  have hlast : (before ++ after ++ [p]).Perm free := by
    rw [hfree, List.append_assoc]
    exact (List.perm_append_singleton p after).append_left before
  rw [← replaceAll_perm hvalues hkeys hlast, replaceAll, List.foldl_append, List.foldl_cons,
    List.foldl_nil] at hdoc
  obtain ⟨q, -, heq⟩ := List.mem_map.1 hdoc
  cases heq
  exact eq_of_descend_replaceKey (hvalues p hp) h

/-- What the documents hold at a path, with their formats. -/
def heldAt (configs : Entries Document) (file : String) (path : List String) :
    Option (Option String × Option (Option Value)) :=
  (configs.find? file).map fun doc => (doc.format, doc.data.leafAt path)

theorem heldAt_replaceAll {free : List (String × Value)} (h : ∀ p ∈ free, p.1 ∉ path)
    (file : String) : heldAt (replaceAll free configs) file path = heldAt configs file path := by
  induction free generalizing configs with
  | nil => rfl
  | cons p rest ih =>
    have hfind := Entries.find?_map
      (fun doc : Document => { doc with data := replaceKey p.1 p.2 doc.data }) file configs
    rw [replaceAll, List.foldl_cons, ← replaceAll,
      ih fun q hq => h q (List.mem_cons_of_mem _ hq), heldAt, replaceEverywhere, hfind,
      Option.map_map, heldAt]
    congr 1
    funext doc
    rw [Function.comp, leafAt_replaceKey (h p List.mem_cons_self)]

/-! ### Parameters with a target -/

/-- A path that setting a parameter in a section does not touch: it does not end at the section, and
does not lead to the parameter's entry there or below it. -/
def Beside («section» parameter : String) (path : List String) : Prop :=
  path ≠ [«section»] ∧ ¬ [«section», parameter] <+: path

theorem get?_withParameter (parameter : String) (value : Value) (entry : Option Value) :
    (withParameter parameter value entry).get? key =
      if parameter = key then some value else entry.bind fun w => w.get? key := by
  rw [withParameter, Value.get?, Entries.find?_insert]
  congr 1
  cases entry with
  | none => rfl
  | some w => cases w <;> rfl

theorem leafAt_setInSection {file «section» parameter : String}
    (h : setInSection file «section» data parameter value = .ok data')
    (hpath : Beside «section» parameter path) : data'.leafAt path = data.leafAt path := by
  cases path with
  | nil =>
    obtain ⟨hafter, hbefore⟩ := shape_of_setInSection h
    simp only [Value.leafAt, Value.descend, Option.map_some, hafter, hbefore, if_true]
  | cons k rest =>
    rw [Value.leafAt, Value.leafAt, Value.descend, Value.descend, get?_setInSection h]
    by_cases hk : «section» = k
    · subst hk
      have hrest : rest ≠ [] := fun hnil => hpath.1 (by rw [hnil])
      obtain ⟨q, below, rfl⟩ := List.exists_cons_of_ne_nil hrest
      have hq : parameter ≠ q := fun heq => hpath.2 ⟨below, by rw [heq]; rfl⟩
      rw [if_pos rfl, Option.bind_some, Value.descend, get?_withParameter, if_neg hq,
        Option.bind_assoc]
      rfl
    · rw [if_neg hk]

/-- A path that no parameter with a target goes to, in a file. -/
def BesideTargets (parameters : Entries Value) (file : String) (path : List String)
    (targets : List (String × Target)) : Prop :=
  ∀ p ∈ targets, (parameters.find? p.1).isSome = true → p.2.file = file →
    Beside p.2.section p.1 path

theorem heldAt_injectTargets {targets : List (String × Target)} {file : String}
    (h : injectTargets parameters configs targets = .ok configs')
    (hpath : BesideTargets parameters file path targets) :
    heldAt configs' file path = heldAt configs file path := by
  refine injectTargets_induction (P := fun t => heldAt t file path = heldAt configs file path) h rfl
    fun p hp value hvalue t doc v ht hdoc hv => ?_
  rw [← ht, heldAt, heldAt, Entries.find?_insert]
  split
  next hfile =>
    have hbeside := hpath p hp (by rw [hvalue]; rfl) hfile
    rw [← hfile, hdoc, Option.map_some, Option.map_some, leafAt_setInSection hv hbeside]
  · rfl

/-! ### All of them -/

/-- Where no value is a mapping: a parameter without a target has its value wherever its name stands
in a document; in whatever order such parameters are set, the documents are the same; and a path
without their names leads in every document to what it led to before, unless a parameter with a
target is set at it or above it, or it ends at the section of one. -/
theorem placed_of_inject (hvalues : ∀ p ∈ parameters, p.2.isMapping = false)
    (hkeys : parameters.keys.Nodup) (h : inject plan configs parameters = .ok configs') :
    (∀ p ∈ freeParameters plan parameters, ∀ file doc, (file, doc) ∈ configs' →
      ∀ path w, doc.data.descend (path ++ [p.1]) = some w → w = p.2) ∧
    (∀ order, order.Perm (freeParameters plan parameters) →
      injectInOrder plan configs parameters order = .ok configs') ∧
    ∀ file path, (∀ p ∈ freeParameters plan parameters, p.1 ∉ path) →
      BesideTargets parameters file path plan.parameterTargets →
      heldAt configs' file path = heldAt configs file path := by
  have hfree : ∀ p ∈ freeParameters plan parameters, p.2.isMapping = false :=
    fun p hp => hvalues p (List.mem_of_mem_filter hp)
  have hnodup : (Entries.keys (freeParameters plan parameters)).Nodup :=
    hkeys.sublist (List.filter_sublist.map _)
  rw [inject_eq_injectInOrder] at h
  obtain ⟨targeted, htargets, h⟩ := except_bind_ok h
  cases h
  refine ⟨fun p hp file doc hdoc path w hw => ?_, fun order horder => ?_,
    fun file path hnames htargeted => ?_⟩
  · exact eq_of_descend_replaceAll hfree hnodup hp hdoc hw
  · rw [injectInOrder, htargets, except_ok_bind, replaceAll_perm hfree hnodup horder]
  · rw [heldAt_replaceAll hnames, heldAt_injectTargets htargets htargeted]

/-- A plan in which the parameter `p` goes into the section `s` of a file. -/
def sectionPlan : Plan where
  parameterTargets := [("p", ⟨"run.yaml", "s"⟩)]

/-- A document in which the parameter `nu` stands in a nested mapping. -/
def nestedConfigs : Entries Document :=
  [("run.yaml", ⟨none, .mapping [("a", .mapping [("nu", .int 1), ("x", .int 2)])]⟩)]

theorem placed_of_nested_parameter :
    ∃ configs', inject sectionPlan nestedConfigs [("nu", .int 5), ("p", .int 3)] = .ok configs' ∧
      (∀ doc, ("run.yaml", doc) ∈ configs' → ∀ w, doc.data.descend ["a", "nu"] = some w →
        w = .int 5) ∧
      heldAt configs' "run.yaml" ["a", "x"] = heldAt nestedConfigs "run.yaml" ["a", "x"] := by
  have hinject : inject sectionPlan nestedConfigs [("nu", .int 5), ("p", .int 3)] = .ok _ := rfl
  obtain ⟨hfree, -, hother⟩ := placed_of_inject (by decide) (by decide) hinject
  refine ⟨_, hinject,
    fun doc hdoc w hw => hfree ("nu", .int 5) (.head _) "run.yaml" doc hdoc ["a"] w hw,
    hother "run.yaml" ["a", "x"] ?_ ?_⟩
  · intro p hp
    obtain rfl : p = ("nu", .int 5) := List.mem_singleton.1 hp
    decide
  · intro p hp _ _
    obtain rfl : p = ("p", ⟨"run.yaml", "s"⟩) := List.mem_singleton.1 hp
    exact ⟨by decide, by decide⟩

/-- A document in which the entry of a section is itself a mapping. -/
def deepConfigs : Entries Document :=
  [("run.yaml", ⟨none, .mapping [("s", .mapping [("p", .mapping [("x", .int 1)])])]⟩)]

theorem below_sectionEntry_lost :
    ∃ configs', inject sectionPlan deepConfigs [("p", .int 5)] = .ok configs' ∧
      freeParameters sectionPlan [("p", .int 5)] = [] ∧
      (∀ p ∈ sectionPlan.parameterTargets,
        ["s", "p", "x"] ≠ [p.2.section] ∧ ["s", "p", "x"] ≠ [p.2.section, p.1]) ∧
      heldAt deepConfigs "run.yaml" ["s", "p", "x"] = some (none, some (some (.int 1))) ∧
      heldAt configs' "run.yaml" ["s", "p", "x"] = some (none, none) :=
  ⟨_, rfl, rfl, by decide, rfl, rfl⟩

end Compile

end ParamSweep
