import Mathlib
import ParamSweep.Config.Document
import ParamSweep.Proofs.JsonTokens
import ParamSweep.Proofs.ValuePaths

/-!
Values and their texts on one line.

A value is proper if its doubles are finite and the keys of all its mappings ascend. Of proper
values the text is unambiguous: the first character tells the kind, and what follows a value can be
told from it, so one text stands for one value (`compact_inj`). And proper values that hold the same
data, whatever the order of their entries, are one value (`sameData_iff`).
-/

namespace ParamSweep

/-- Tables of the same keys are equal if they hold the same under each. -/
theorem Entries.Ascending.ext_of_common {α : Type} {t t' : Entries α} (h : t.Ascending)
    (h' : t'.Ascending) (hkeys : ∀ key, t.contains key = t'.contains key)
    (hvalues : ∀ key v w, t.find? key = some v → t'.find? key = some w → v = w) : t = t' := by
  refine h.ext h' fun key => ?_
  have hkey := hkeys key
  rw [contains, contains] at hkey
  cases hv : t.find? key with
  | none =>
    rw [hv] at hkey
    exact (Option.not_isSome_iff_eq_none.1 (by rw [← hkey]; simp)).symm
  | some v =>
    rw [hv] at hkey
    obtain ⟨w, hw⟩ := Option.isSome_iff_exists.1 hkey.symm
    rw [hw, hvalues key v w hv hw]

namespace Value

/-- All doubles are finite, and the keys of every mapping ascend, those inside lists included. -/
inductive Proper : Value → Prop
  | null : Proper .null
  | bool (b : Bool) : Proper (.bool b)
  | num {n : Number} (finite : n.Finite) : Proper (.num n)
  | str (s : String) : Proper (.str s)
  | list {items : List Value} (proper : ∀ v ∈ items, v.Proper) : Proper (.list items)
  | mapping {t : Entries Value} (ascending : t.Ascending) (proper : ∀ p ∈ t, p.2.Proper) :
      Proper (.mapping t)

/-- Values hold the same data: lists item by item, mappings key by key, in whatever order the keys
stand. Numbers are the same if they are of one kind and equal. -/
inductive SameData : Value → Value → Prop
  | null : SameData .null .null
  | bool (b : Bool) : SameData (.bool b) (.bool b)
  | num (n : Number) : SameData (.num n) (.num n)
  | str (s : String) : SameData (.str s) (.str s)
  | list {a b : List Value} (length : a.length = b.length)
    (items : ∀ (i : ℕ) (v w : Value), a[i]? = some v → b[i]? = some w → SameData v w) :
      SameData (.list a) (.list b)
  | mapping {a b : Entries Value} (keys : ∀ key, a.contains key = b.contains key)
    (entries : ∀ key v w, a.find? key = some v → b.find? key = some w → SameData v w) :
      SameData (.mapping a) (.mapping b)

variable {v w : Value}

theorem Proper.sameData_self (h : v.Proper) : v.SameData v := by
  induction h with
  | null => exact .null
  | bool b => exact .bool b
  | @num n _ => exact .num n
  | str s => exact .str s
  | list _ ih =>
    refine .list rfl fun i x y hx hy => ?_
    obtain rfl := Option.some.inj (hx.symm.trans hy)
    exact ih x (List.mem_of_getElem? hx)
  | mapping _ _ ih =>
    refine .mapping (fun _ => rfl) fun key x y hx hy => ?_
    obtain rfl := Option.some.inj (hx.symm.trans hy)
    exact ih (key, x) (Entries.mem_of_find? hx)

theorem Proper.finite {n : Number} : (Value.num n).Proper → n.Finite
  | .num h => h

theorem Proper.items {items : List Value} : (Value.list items).Proper → ∀ v ∈ items, v.Proper
  | .list h => h

theorem Proper.ascending {t : Entries Value} : (Value.mapping t).Proper → t.Ascending
  | .mapping h _ => h

theorem Proper.entries {t : Entries Value} : (Value.mapping t).Proper → ∀ p ∈ t, p.2.Proper
  | .mapping _ h => h

theorem Proper.sorted (h : v.Proper) : v.Sorted := by
  induction h with
  | mapping ascending _ ih => exact (sorted_mapping_iff_mem ascending).2 ih
  | _ => exact sorted_of_leaf rfl

/-- Setting an entry keeps a mapping proper. -/
theorem Proper.insert {t : Entries Value} {key : String} (h : (Value.mapping t).Proper)
    (hv : v.Proper) : (Value.mapping (t.insert key v)).Proper := by
  refine .mapping h.ascending.insert fun p hp => ?_
  rcases Entries.mem_of_mem_insert hp with rfl | hp
  · exact hv
  · exact h.entries p hp

theorem Proper.union {t : Entries Value} (h : (Value.mapping t).Proper)
    {entries : List (String × Value)} (hentries : ∀ p ∈ entries, p.2.Proper) :
    (Value.mapping (t.union entries)).Proper := by
  induction entries generalizing t with
  | nil => exact h
  | cons p rest ih =>
    obtain ⟨hfirst, hrest⟩ := List.forall_mem_cons.1 hentries
    exact ih (h.insert hfirst) hrest

theorem proper_empty : (Value.mapping []).Proper := .mapping Entries.ascending_nil (by simp)

theorem proper_record {pairs : List (String × Value)} (h : ∀ p ∈ pairs, p.2.Proper) :
    (Value.record pairs).Proper :=
  proper_empty.union h

theorem proper_nat (n : ℕ) : (Value.nat n).Proper := .num trivial

theorem eq_of_sameData (h : v.SameData w) (hv : v.Proper) (hw : w.Proper) : v = w := by
  induction h with
  | null | bool | num | str => rfl
  | @list a b length _ ih =>
    refine congrArg Value.list (List.ext_getElem length fun i hi hi' => ?_)
    exact ih i _ _ (List.getElem?_eq_getElem hi) (List.getElem?_eq_getElem hi')
      (hv.items _ (List.getElem_mem hi)) (hw.items _ (List.getElem_mem hi'))
  | @mapping a b keys _ ih =>
    have hcommon : ∀ key x y, a.find? key = some x → b.find? key = some y → x = y :=
      fun key x y hx hy => ih key x y hx hy (hv.entries _ (Entries.mem_of_find? hx))
        (hw.entries _ (Entries.mem_of_find? hy))
    exact congrArg Value.mapping (hv.ascending.ext_of_common hw.ascending keys hcommon)

/-- Proper values are one value if they hold the same data. -/
theorem sameData_iff (hv : v.Proper) (hw : w.Proper) : v.SameData w ↔ v = w :=
  ⟨fun h => eq_of_sameData h hv hw, fun h => h ▸ hv.sameData_self⟩

end Value

namespace Json

/-- The kind of the values whose text starts with a character. -/
def kindOf (c : Char) : String :=
  if c = 'n' then "null"
  else if c = 't' ∨ c = 'f' then "a boolean"
  else if c = '"' then "a string"
  else if c = '[' then "a list"
  else if c = '\x7b' then "a mapping"
  else if c.isDigit = true ∨ c = '-' then "a number"
  else ""

theorem Written.head {cs : List Char} (h : Written cs) :
    ∃ c rest, cs = c :: rest ∧ (c.isDigit = true ∨ c = '-') := by
  cases h with
  | @plain ds tail h =>
    obtain ⟨d, ds, rfl⟩ := List.exists_cons_of_ne_nil h.ne
    exact ⟨d, ds ++ tail, rfl, .inl (h.digits d List.mem_cons_self)⟩
  | minus h => exact ⟨'-', _, rfl, .inr rfl⟩

theorem kindOf_number {c : Char} (h : c.isDigit = true ∨ c = '-') : kindOf c = "a number" := by
  have hne : ∀ d : Char, d.isDigit = false → d ≠ '-' → c ≠ d := by
    rintro d hd hminus rfl
    rcases h with h | h
    · rw [hd] at h
      cases h
    · exact hminus h
  simp [kindOf, h, hne 'n' (by decide) (by decide), hne 't' (by decide) (by decide),
    hne 'f' (by decide) (by decide), hne '"' (by decide) (by decide),
    hne '[' (by decide) (by decide), hne '\x7b' (by decide) (by decide)]

/-- The first character of a value's text tells the kind of the value. -/
theorem exists_cons_chars {v : Value} (hv : v.Proper) :
    ∃ c cs, chars v = c :: cs ∧ kindOf c = v.kind := by
  cases hv with
  | null => exact ⟨'n', _, rfl, rfl⟩
  | bool b => cases b <;> exact ⟨_, _, rfl, rfl⟩
  | num finite =>
    obtain ⟨c, rest, hcs, hc⟩ := (written_number finite).head
    exact ⟨c, rest, hcs, kindOf_number hc⟩
  | str s => exact ⟨'"', _, rfl, rfl⟩
  | list => exact ⟨'[', _, rfl, rfl⟩
  | mapping => exact ⟨'\x7b', _, rfl, rfl⟩

theorem kind_eq_of_chars {v w : Value} {a b : List Char} (hv : v.Proper) (hw : w.Proper)
    (h : chars v ++ a = chars w ++ b) : v.kind = w.kind := by
  obtain ⟨c, cs, hcs, hkind⟩ := exists_cons_chars hv
  obtain ⟨c', cs', hcs', hkind'⟩ := exists_cons_chars hw
  rw [hcs, hcs'] at h
  rw [← hkind, ← hkind', (List.cons.inj h).1]

theorem stops_cons {c : Char} (rest : List Char)
    (hc : c = ',' ∨ c = ']' ∨ c = '\x7d' ∨ c = '\n') : Stops (c :: rest) := by
  intro d hd
  cases hd
  exact hc

/-- What stands behind an item of a list that `rest` are the next items of. -/
def behindItem : List Value → List Char
  | [] => [']']
  | rest => ',' :: listChars rest

/-- What stands behind an entry of a mapping that `rest` are the next entries of. -/
def behindEntry : List (String × Value) → List Char
  | [] => ['\x7d']
  | rest => ',' :: entryChars rest

theorem listChars_cons (v : Value) (rest : List Value) :
    listChars (v :: rest) = chars v ++ behindItem rest := by
  cases rest <;> rfl

theorem entryChars_cons (k : String) (v : Value) (rest : List (String × Value)) :
    entryChars ((k, v) :: rest) = quote k ++ ':' :: (chars v ++ behindEntry rest) := by
  cases rest <;> rfl

theorem stops_behindItem (rest : List Value) (a : List Char) : Stops (behindItem rest ++ a) := by
  cases rest <;> exact stops_cons _ (by decide)

theorem stops_behindEntry (rest : List (String × Value)) (a : List Char) :
    Stops (behindEntry rest ++ a) := by
  cases rest <;> exact stops_cons _ (by decide)

/-- The text of an item is not the end of a list. -/
theorem listChars_cons_ne {v : Value} (hv : v.Proper) (rest : List Value) (a b : List Char) :
    listChars (v :: rest) ++ a ≠ ']' :: b := by
  obtain ⟨c, cs, hcs, hkind⟩ := exists_cons_chars hv
  rw [listChars_cons, hcs]
  rintro h
  rw [(List.cons.inj h).1] at hkind
  cases v <;> simp [kindOf, Value.kind] at hkind

mutual

/-- From a text that starts with a value, the value can be told and what follows it. -/
theorem chars_append_inj : ∀ {v w : Value} {a b : List Char}, v.Proper → w.Proper → Stops a →
    Stops b → chars v ++ a = chars w ++ b → v = w ∧ a = b
  | .null, w, a, b, hv, hw, _, _, h => by
    have hkind := kind_eq_of_chars hv hw h
    obtain rfl : w = .null := by cases w <;> simp [Value.kind] at hkind ⊢
    exact ⟨rfl, List.append_cancel_left h⟩
  | .bool p, w, a, b, hv, hw, _, _, h => by
    have hkind := kind_eq_of_chars hv hw h
    obtain ⟨q, rfl⟩ : ∃ q, w = .bool q := by cases w <;> simp [Value.kind] at hkind ⊢
    cases p <;> cases q <;> simp [chars] at h ⊢ <;> exact h
  | .num n, w, a, b, hv, hw, ha, hb, h => by
    have hkind := kind_eq_of_chars hv hw h
    obtain ⟨m, rfl⟩ : ∃ m, w = .num m := by cases w <;> simp [Value.kind] at hkind ⊢
    obtain ⟨rfl, hbehind⟩ := number_append_inj hv.finite hw.finite ha hb h
    exact ⟨rfl, hbehind⟩
  | .str s, w, a, b, hv, hw, _, _, h => by
    have hkind := kind_eq_of_chars hv hw h
    obtain ⟨t, rfl⟩ : ∃ t, w = .str t := by cases w <;> simp [Value.kind] at hkind ⊢
    obtain ⟨rfl, hbehind⟩ := quote_inj h
    exact ⟨rfl, hbehind⟩
  | .list items, w, a, b, hv, hw, _, _, h => by
    have hkind := kind_eq_of_chars hv hw h
    obtain ⟨items', rfl⟩ : ∃ items', w = .list items' := by
      cases w <;> simp [Value.kind] at hkind ⊢
    obtain ⟨rfl, hbehind⟩ := listChars_append_inj hv.items hw.items (List.cons.inj h).2
    exact ⟨rfl, hbehind⟩
  | .mapping t, w, a, b, hv, hw, _, _, h => by
    have hkind := kind_eq_of_chars hv hw h
    obtain ⟨t', rfl⟩ : ∃ t', w = .mapping t' := by cases w <;> simp [Value.kind] at hkind ⊢
    obtain ⟨rfl, hbehind⟩ := entryChars_append_inj hv.entries hw.entries (List.cons.inj h).2
    exact ⟨rfl, hbehind⟩

theorem listChars_append_inj : ∀ {vs ws : List Value} {a b : List Char}, (∀ v ∈ vs, v.Proper) →
    (∀ w ∈ ws, w.Proper) → listChars vs ++ a = listChars ws ++ b → vs = ws ∧ a = b
  | [], [], a, b, _, _, h => ⟨rfl, (List.cons.inj h).2⟩
  | [], w :: ws, a, b, _, hws, h =>
    absurd h.symm (listChars_cons_ne (hws w List.mem_cons_self) ws b a)
  | v :: vs, [], a, b, hvs, _, h =>
    absurd h (listChars_cons_ne (hvs v List.mem_cons_self) vs a b)
  | v :: vs, w :: ws, a, b, hvs, hws, h => by
    rw [listChars_cons, listChars_cons, List.append_assoc, List.append_assoc] at h
    obtain ⟨heq, hbehind⟩ := chars_append_inj (hvs v List.mem_cons_self)
      (hws w List.mem_cons_self) (stops_behindItem vs a) (stops_behindItem ws b) h
    cases vs with
    | nil =>
      cases ws with
      | nil => exact ⟨congrArg ([·]) heq, (List.cons.inj hbehind).2⟩
      | cons w' ws => exact absurd (List.cons.inj hbehind).1 (by decide)
    | cons v' vs =>
      cases ws with
      | nil => exact absurd (List.cons.inj hbehind).1 (by decide)
      | cons w' ws =>
        have hbehind : listChars (v' :: vs) ++ a = listChars (w' :: ws) ++ b :=
          (List.cons.inj hbehind).2
        obtain ⟨hrest, hend⟩ := listChars_append_inj (List.forall_mem_cons.1 hvs).2
          (List.forall_mem_cons.1 hws).2 hbehind
        exact ⟨congrArg₂ _ heq hrest, hend⟩

theorem entryChars_append_inj : ∀ {t u : List (String × Value)} {a b : List Char},
    (∀ p ∈ t, p.2.Proper) → (∀ p ∈ u, p.2.Proper) → entryChars t ++ a = entryChars u ++ b →
      t = u ∧ a = b
  | [], [], a, b, _, _, h => ⟨rfl, (List.cons.inj h).2⟩
  | [], (k, w) :: u, a, b, _, _, h => by
    rw [entryChars_cons] at h
    exact absurd (List.cons.inj h).1 (by decide)
  | (k, v) :: t, [], a, b, _, _, h => by
    rw [entryChars_cons] at h
    exact absurd (List.cons.inj h).1 (by decide)
  | (k, v) :: t, (l, w) :: u, a, b, ht, hu, h => by
    rw [entryChars_cons, entryChars_cons, List.append_assoc, List.append_assoc] at h
    obtain ⟨hkey, hvalue⟩ := quote_inj h
    have hvalue : chars v ++ behindEntry t ++ a = chars w ++ behindEntry u ++ b :=
      (List.cons.inj hvalue).2
    rw [List.append_assoc, List.append_assoc] at hvalue
    obtain ⟨heq, hbehind⟩ := chars_append_inj (ht (k, v) List.mem_cons_self)
      (hu (l, w) List.mem_cons_self) (stops_behindEntry t a) (stops_behindEntry u b) hvalue
    have hfirst : (k, v) = (l, w) := Prod.ext hkey heq
    cases t with
    | nil =>
      cases u with
      | nil => exact ⟨congrArg ([·]) hfirst, (List.cons.inj hbehind).2⟩
      | cons q u => exact absurd (List.cons.inj hbehind).1 (by decide)
    | cons p t =>
      cases u with
      | nil => exact absurd (List.cons.inj hbehind).1 (by decide)
      | cons q u =>
        have hbehind : entryChars (p :: t) ++ a = entryChars (q :: u) ++ b :=
          (List.cons.inj hbehind).2
        obtain ⟨hrest, hend⟩ := entryChars_append_inj (List.forall_mem_cons.1 ht).2
          (List.forall_mem_cons.1 hu).2 hbehind
        exact ⟨congrArg₂ _ hfirst hrest, hend⟩

end

end Json

/-- Proper values with one text are one value. -/
theorem Value.compact_inj {v w : Value} (hv : v.Proper) (hw : w.Proper)
    (h : v.compact = w.compact) : v = w := by
  have hnil : Json.Stops [] := by simp [Json.Stops]
  have hchars := String.ofList_injective h
  exact (Json.chars_append_inj hv hw hnil hnil (congrArg (· ++ []) hchars)).1

/-- The text tells proper values apart, and nothing but their data goes into it. -/
theorem Value.compact_eq_iff {v w : Value} (hv : v.Proper) (hw : w.Proper) :
    v.compact = w.compact ↔ v.SameData w := by
  rw [Value.sameData_iff hv hw]
  exact ⟨compact_inj hv hw, congrArg compact⟩

end ParamSweep
