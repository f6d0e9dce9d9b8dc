import ParamSweep.Value.Basic

/-!
Tables in the order of their keys.

`Entries.insert` and `Entries.erase` keep a table ascending, so a table has no key twice, and what
stands in it is what is found under its key.
-/

namespace ParamSweep.Entries

variable {α : Type} {t : Entries α} {key other : String} {value : α}

/-- The keys ascend, so none of them is there twice. -/
def Ascending (t : Entries α) : Prop := t.keys.Pairwise (· < ·)

instance (t : Entries α) : Decidable t.Ascending :=
  inferInstanceAs (Decidable (t.keys.Pairwise (· < ·)))

theorem ascending_nil : Ascending ([] : Entries α) := List.Pairwise.nil

theorem mem_keys_insert : other ∈ (t.insert key value).keys ↔ other = key ∨ other ∈ t.keys := by
  induction t with
  | nil => simp [insert, keys]
  | cons p rest ih =>
    obtain ⟨k, v⟩ := p
    rw [insert]
    split
    · simp [keys]
    · split
      next h =>
        subst h
        simp [keys]
      · simp only [keys, List.map_cons, List.mem_cons] at ih ⊢
        rw [ih]
        exact or_left_comm

theorem mem_of_mem_insert {p : String × α} (h : p ∈ t.insert key value) :
    p = (key, value) ∨ p ∈ t := by
  induction t with
  | nil => exact Or.inl (List.mem_singleton.1 h)
  | cons q rest ih =>
    obtain ⟨k, v⟩ := q
    rw [insert] at h
    split at h
    · exact List.mem_cons.1 h
    · split at h
      · exact (List.mem_cons.1 h).imp_right (List.mem_cons_of_mem _)
      · rcases List.mem_cons.1 h with rfl | hbelow
        · exact Or.inr List.mem_cons_self
        · exact (ih hbelow).imp_right (List.mem_cons_of_mem _)

theorem Ascending.insert (h : t.Ascending) : (t.insert key value).Ascending := by
  induction t with
  | nil => simp [Ascending, Entries.insert, keys]
  | cons p rest ih =>
    obtain ⟨k, v⟩ := p
    obtain ⟨hfirst, hrest⟩ := List.pairwise_cons.1 h
    rw [Entries.insert]
    split
    next hlt =>
      refine List.pairwise_cons.2 ⟨fun k' hk' => ?_, h⟩
      rcases List.mem_cons.1 hk' with rfl | hk'
      · exact hlt
      · exact String.lt_trans hlt (hfirst k' hk')
    · split
      next hsame =>
        subst hsame
        exact List.pairwise_cons.2 ⟨hfirst, hrest⟩
      next hlt hne =>
        refine List.pairwise_cons.2 ⟨fun k' hk' => ?_, ih hrest⟩
        rcases mem_keys_insert.1 hk' with rfl | hk'
        · exact Std.lt_of_le_of_ne hlt (Ne.symm hne)
        · exact hfirst k' hk'

theorem Ascending.union (h : t.Ascending) (entries : Entries α) : (t.union entries).Ascending := by
  induction entries generalizing t with
  | nil => exact h
  | cons p rest ih => exact ih h.insert

theorem ascending_ofList (pairs : List (String × α)) : Ascending (ofList pairs) :=
  ascending_nil.union pairs

theorem Ascending.nodup_keys (h : t.Ascending) : t.keys.Nodup := by
  refine List.Pairwise.imp ?_ h
  rintro k _ hlt rfl
  exact String.lt_irrefl k hlt

theorem Ascending.erase (h : t.Ascending) : (t.erase key).Ascending :=
  h.sublist (List.filter_sublist.map _)

theorem mem_keys_iff : key ∈ t.keys ↔ ∃ value, t.find? key = some value := by
  induction t with
  | nil => simp [keys, find?]
  | cons p rest ih =>
    obtain ⟨k, v⟩ := p
    rw [find?]
    split
    next h => simp [keys, h]
    next h =>
      rw [← ih]
      simp [keys, Ne.symm h]

theorem mem_of_find? : ∀ {t : Entries α}, t.find? key = some value → (key, value) ∈ t
  | (k, v) :: rest, h => by
    rw [find?] at h
    split at h
    next hsame =>
      cases h
      exact hsame ▸ List.mem_cons_self
    · exact List.mem_cons_of_mem _ (mem_of_find? h)

theorem find?_eq_none_iff : t.find? key = none ↔ key ∉ t.keys := by
  rw [mem_keys_iff, not_exists, Option.eq_none_iff_forall_ne_some]

/-- What stands in a table that holds no key twice is found there. -/
theorem find?_eq_some_iff_of_nodup (h : t.keys.Nodup) :
    t.find? key = some value ↔ (key, value) ∈ t := by
  induction t with
  | nil => simp [find?]
  | cons p rest ih =>
    obtain ⟨k, v⟩ := p
    obtain ⟨hfirst, hrest⟩ := List.nodup_cons.1 h
    rw [find?]
    split
    next hsame =>
      subst hsame
      have habsent : (k, value) ∉ rest := fun hmem => hfirst (List.mem_map.2 ⟨_, hmem, rfl⟩)
      simp [habsent, eq_comm]
    next hne => simp [ih hrest, Ne.symm hne]

/-- What stands in an ascending table is found there. -/
theorem Ascending.find?_eq_some_iff (h : t.Ascending) :
    t.find? key = some value ↔ (key, value) ∈ t :=
  find?_eq_some_iff_of_nodup h.nodup_keys

theorem find?_append (t t' : Entries α) (key : String) :
    find? key (t ++ t') = (t.find? key).or (t'.find? key) := by
  induction t with
  | nil => rfl
  | cons p rest ih =>
    obtain ⟨k, v⟩ := p
    rw [List.cons_append, find?, find?, ih]
    split <;> rfl

end ParamSweep.Entries
