import Mathlib
import ParamSweep.Proofs.CompactTexts
import ParamSweep.Value.JsonRecord

/-!
Values read from, and passed over in, the indented text that they are written as.

A reader takes exactly the text of a value, unless the value nests too deeply or has a number whose
text the reader refuses (`Value.rereads`); which value comes of it is left open, since doubles are
not always read back to themselves. To pass over a value, the reader needs nothing of it but that it
is proper.
-/

namespace ParamSweep

mutual

/-- Whether the text of a value can be read where `depth` levels of nesting are left. -/
def Value.rereads (depth : ℕ) : Value → Bool
  | .num n => (Json.number? (Json.number n)).isSome
  | .list items => decide (0 < depth) && Value.rereadItems (depth - 1) items
  | .mapping entries => decide (0 < depth) && Value.rereadEntries (depth - 1) entries
  | _ => true

/-- The same for each of the items. -/
def Value.rereadItems (depth : ℕ) : List Value → Bool
  | [] => true
  | v :: rest => v.rereads depth && Value.rereadItems depth rest

/-- The same for each of the entries. -/
def Value.rereadEntries (depth : ℕ) : List (String × Value) → Bool
  | [] => true
  | (_, v) :: rest => v.rereads depth && Value.rereadEntries depth rest

end

namespace Json

variable {α : Type} {c : Char} {cs rest : List Char} {level : ℕ}

/-! ### Blanks -/

theorem skip_cons (h : isBlank c = false) : skip (c :: cs) = c :: cs := by
  rw [skip, List.dropWhile_cons_of_neg (by simp [h])]

theorem skip_comma (cs : List Char) : skip (',' :: cs) = ',' :: cs := skip_cons (by decide)

theorem skip_colon (cs : List Char) : skip (':' :: cs) = ':' :: cs := skip_cons (by decide)

theorem skip_leftBracket (cs : List Char) : skip ('[' :: cs) = '[' :: cs := skip_cons (by decide)

theorem skip_leftBrace (cs : List Char) : skip ('\x7b' :: cs) = '\x7b' :: cs :=
  skip_cons (by decide)

theorem skip_newline (level : ℕ) (cs : List Char) : skip (newline level ++ cs) = skip cs := by
  have hblank : ∀ c ∈ newline level, isBlank c = true := by
    refine List.forall_mem_cons.2 ⟨by decide, fun c hc => ?_⟩
    rw [List.eq_of_mem_replicate hc]
    decide
  rw [skip, List.dropWhile_append_of_pos hblank, skip]

theorem skip_newline_bracket (level : ℕ) (cs : List Char) :
    skip (newline level ++ ']' :: cs) = ']' :: cs := by
  rw [skip_newline, skip_cons (by decide)]

theorem skip_newline_brace (level : ℕ) (cs : List Char) :
    skip (newline level ++ '\x7d' :: cs) = '\x7d' :: cs := by
  rw [skip_newline, skip_cons (by decide)]

theorem skip_blank (cs : List Char) : skip (' ' :: cs) = skip cs := by
  rw [skip, List.dropWhile_cons_of_pos (by decide), skip]

theorem skip_skip (cs : List Char) : skip (skip cs) = skip cs := by
  rw [skip, skip, List.dropWhile_idempotent]

theorem isBlank_of_kindOf (h : kindOf c ≠ "") : isBlank c = false := by
  by_contra hblank
  rw [Bool.not_eq_false, isBlank] at hblank
  simp only [Bool.or_eq_true, decide_eq_true_eq] at hblank
  rcases hblank with ((rfl | rfl) | rfl) | rfl <;> exact h rfl

theorem kind_ne_empty (v : Value) : v.kind ≠ "" := by
  cases v <;> simp [Value.kind]

/-- The first character of a value's text tells the kind of the value, here too. -/
theorem exists_cons_prettyChars {v : Value} (hv : v.Proper) (level : ℕ) :
    ∃ c cs, prettyChars level v = c :: cs ∧ kindOf c = v.kind := by
  cases v with
  | list items => cases items <;> exact ⟨'[', _, rfl, rfl⟩
  | mapping t => cases t <;> exact ⟨'\x7b', _, rfl, rfl⟩
  | bool b => cases b <;> exact exists_cons_chars hv
  -- the other values have the same text on one line
  | _ => exact exists_cons_chars hv

theorem skip_prettyChars {v : Value} (hv : v.Proper) (level : ℕ) (rest : List Char) :
    skip (prettyChars level v ++ rest) = prettyChars level v ++ rest := by
  obtain ⟨c, cs, hcs, hkind⟩ := exists_cons_prettyChars hv level
  rw [hcs]
  exact skip_cons (isBlank_of_kindOf (hkind ▸ kind_ne_empty v))

theorem prettyChars_list_cons (level : ℕ) (v : Value) (vs : List Value) (rest : List Char) :
    prettyChars level (.list (v :: vs)) ++ rest =
      '[' :: (prettyList (level + 1) (v :: vs) ++ (newline level ++ ']' :: rest)) := by
  simp [prettyChars]

theorem prettyChars_mapping_cons (level : ℕ) (p : String × Value) (t : List (String × Value))
    (rest : List Char) : prettyChars level (.mapping (p :: t)) ++ rest =
      '\x7b' :: (prettyEntries (level + 1) (p :: t) ++ (newline level ++ '\x7d' :: rest)) := by
  simp [prettyChars]

/-! ### Reading -/

/-- A reader takes something with `P` and leaves `rest`, where `reads` says so, and takes nothing
where not. -/
def Leaves (rest : List Char) (reads : Bool) (P : α → Prop) (read : Option (α × List Char)) :
    Prop :=
  (reads = true ∧ ∃ a, P a ∧ read = some (a, rest)) ∨ (reads = false ∧ read = none)

theorem Leaves.map {β : Type} {reads : Bool} {P : α → Prop} {Q : β → Prop}
    {read : Option (α × List Char)} (h : Leaves rest reads P read) (f : α → β)
    (hf : ∀ a, P a → Q (f a)) : Leaves rest reads Q (read.map fun (a, r) => (f a, r)) := by
  rcases h with ⟨hreads, a, ha, rfl⟩ | ⟨hreads, rfl⟩
  · exact .inl ⟨hreads, f a, hf a ha, rfl⟩
  · exact .inr ⟨hreads, rfl⟩

/-- What stands behind an item of a list, before the closing bracket. -/
def prettyBehindItem (level : ℕ) : List Value → List Char
  | [] => []
  | rest => ',' :: prettyList level rest

/-- What stands behind an entry of a mapping, before the closing brace. -/
def prettyBehindEntry (level : ℕ) : List (String × Value) → List Char
  | [] => []
  | rest => ',' :: prettyEntries level rest

theorem prettyList_cons (level : ℕ) (v : Value) (rest : List Value) :
    prettyList level (v :: rest) =
      newline level ++ (prettyChars level v ++ prettyBehindItem level rest) := by
  cases rest with
  | nil => simp [prettyList, prettyBehindItem]
  | cons w rest => simp [prettyList, prettyBehindItem]

theorem prettyEntries_cons (level : ℕ) (k : String) (v : Value) (rest : List (String × Value)) :
    prettyEntries level ((k, v) :: rest) =
      newline level ++ (quote k ++ ':' :: ' ' ::
        (prettyChars level v ++ prettyBehindEntry level rest)) := by
  cases rest with
  | nil => simp [prettyEntries, prettyBehindEntry]
  | cons p rest => simp [prettyEntries, prettyBehindEntry]

theorem stops_newline (level : ℕ) (cs : List Char) : Stops (newline level ++ cs) :=
  stops_cons _ (by decide)

theorem stops_prettyBehindItem (level outer : ℕ) (rest : List Value) (cs : List Char) :
    Stops (prettyBehindItem level rest ++ (newline outer ++ cs)) := by
  cases rest with
  | nil => exact stops_newline outer cs
  | cons => exact stops_cons _ (by decide)

theorem stops_prettyBehindEntry (level outer : ℕ) (rest : List (String × Value))
    (cs : List Char) : Stops (prettyBehindEntry level rest ++ (newline outer ++ cs)) := by
  cases rest with
  | nil => exact stops_newline outer cs
  | cons => exact stops_cons _ (by decide)

theorem value?_number {fuel depth : ℕ} (h : kindOf c = "a number") :
    value? (fuel + 1) depth (c :: cs) =
      (number? (c :: cs)).map fun (n, rest) => (.num n, rest) := by
  rw [value?.eq_def]
  simp only
  split
  all_goals first | rfl | (rename_i heq; cases heq; simp [kindOf] at h)

theorem items?_skip (fuel depth : ℕ) (cs : List Char) :
    items? fuel depth (skip cs) = items? fuel depth cs := by
  cases fuel with
  | zero => rfl
  | succ fuel => rw [items?, items?, skip_skip]

theorem entries?_skip (fuel depth : ℕ) (cs : List Char) :
    entries? fuel depth (skip cs) = entries? fuel depth cs := by
  cases fuel with
  | zero => rfl
  | succ fuel => rw [entries?, entries?, skip_skip]

theorem value?_list {fuel depth : ℕ} (h : skip rest = c :: cs) (hc : c ≠ ']') :
    value? (fuel + 1) (depth + 1) ('[' :: rest) =
      (items? fuel depth rest).map fun (vs, r) => (.list vs, r) := by
  rw [value?, ← items?_skip, h]
  split
  next heq => exact absurd (List.cons.inj heq).1 hc
  next => rfl

theorem value?_mapping {fuel depth : ℕ} {k : String} (h : skip rest = quote k ++ cs) :
    value? (fuel + 1) (depth + 1) ('\x7b' :: rest) =
      (entries? fuel depth rest).map fun (es, r) => (.mapping (Entries.ofList es), r) := by
  rw [value?, ← entries?_skip, h]
  rfl

/-- The first item of a list stands behind a new line, and is not the closing bracket. -/
theorem skip_prettyList {v : Value} (hv : v.Proper) (level : ℕ) (rest : List Value)
    (cs : List Char) : ∃ c cs', skip (prettyList level (v :: rest) ++ cs) = c :: cs' ∧
      c ≠ ']' ∧ c :: cs' = prettyChars level v ++ (prettyBehindItem level rest ++ cs) := by
  obtain ⟨c, cs', hcs, hkind⟩ := exists_cons_prettyChars hv level
  refine ⟨c, cs' ++ (prettyBehindItem level rest ++ cs), ?_, ?_, by rw [hcs, List.cons_append]⟩
  · rw [prettyList_cons, List.append_assoc, skip_newline, List.append_assoc,
      skip_prettyChars hv, hcs, List.cons_append]
  · rintro rfl
    exact kind_ne_empty v hkind.symm

/-- The first key of a mapping stands behind a new line. -/
theorem skip_prettyEntries (level : ℕ) (k : String) (v : Value) (rest : List (String × Value))
    (cs : List Char) : skip (prettyEntries level ((k, v) :: rest) ++ cs) =
      quote k ++ ':' :: ' ' :: (prettyChars level v ++ (prettyBehindEntry level rest ++ cs)) := by
  rw [prettyEntries_cons, List.append_assoc, skip_newline]
  simp only [List.append_assoc, List.cons_append]
  exact skip_cons (by decide)

theorem length_prettyChars_pos {v : Value} (hv : v.Proper) (level : ℕ) :
    0 < (prettyChars level v).length := by
  obtain ⟨c, cs, hcs, -⟩ := exists_cons_prettyChars hv level
  rw [hcs]
  simp

mutual

/-- The reader takes the text of a value as far as it nests, unless it refuses it. -/
theorem leaves_value? : ∀ {v : Value} (fuel depth level : ℕ) {rest : List Char}, v.Proper →
    Stops rest → 2 * (prettyChars level v).length ≤ fuel →
      Leaves rest (v.rereads depth) (fun _ => True)
        (value? fuel depth (prettyChars level v ++ rest))
  | .null, fuel + 1, depth, level, rest, _, _, _ => .inl ⟨rfl, .null, trivial, rfl⟩
  | .bool true, fuel + 1, depth, level, rest, _, _, _ => .inl ⟨rfl, .bool true, trivial, rfl⟩
  | .bool false, fuel + 1, depth, level, rest, _, _, _ => .inl ⟨rfl, .bool false, trivial, rfl⟩
  | .num n, fuel + 1, depth, level, rest, hv, hrest, _ => by
    have hwritten := written_number hv.finite
    obtain ⟨c, cs, hcs, hc⟩ := hwritten.head
    have hread : value? (fuel + 1) depth (number n ++ rest) =
        (number? (number n ++ rest)).map fun (n, rest) => (.num n, rest) := by
      rw [hcs]
      exact value?_number (kindOf_number hc)
    rw [prettyChars, hread, number?_append hwritten hrest, Value.rereads]
    cases h : number? (number n) with
    | none => exact .inr ⟨rfl, rfl⟩
    | some p => exact .inl ⟨rfl, _, trivial, rfl⟩
  | .str s, fuel + 1, depth, level, rest, _, _, _ => by
    have hread : value? (fuel + 1) depth (quote s ++ rest) =
      (string? (quote s ++ rest)).map fun (s, rest) => (.str s, rest) := rfl
    rw [prettyChars, hread, string?_quote]
    exact .inl ⟨rfl, .str s, trivial, rfl⟩
  | .list items, fuel + 1, 0, level, rest, _, _, _ => by
    refine .inr ⟨rfl, ?_⟩
    cases items <;> rfl
  | .list [], fuel + 1, depth + 1, level, rest, _, _, _ => .inl ⟨rfl, .list [], trivial, rfl⟩
  | .list (v :: vs), fuel + 1, depth + 1, level, rest, hv, _, hfuel => by
    obtain ⟨c, cs, hskip, hc, -⟩ := skip_prettyList (hv.items v List.mem_cons_self) (level + 1) vs
      (newline level ++ ']' :: rest)
    have hitems := leaves_items? fuel depth (level + 1) level rest (List.cons_ne_nil v vs) hv.items
      (by simp [prettyChars] at hfuel; omega)
    rw [prettyChars_list_cons, value?_list hskip hc]
    simpa [Value.rereads] using hitems.map (Q := fun _ => True) Value.list fun _ _ => trivial
  | .mapping t, fuel + 1, 0, level, rest, _, _, _ => by
    refine .inr ⟨rfl, ?_⟩
    cases t <;> rfl
  | .mapping [], fuel + 1, depth + 1, level, rest, _, _, _ => .inl ⟨rfl, .mapping [], trivial, rfl⟩
  | .mapping ((k, v) :: t), fuel + 1, depth + 1, level, rest, hv, _, hfuel => by
    have hskip := skip_prettyEntries (level + 1) k v t (newline level ++ '\x7d' :: rest)
    have hentries := leaves_entries? fuel depth (level + 1) level rest (List.cons_ne_nil (k, v) t)
      hv.entries (by simp [prettyChars] at hfuel; omega)
    rw [prettyChars_mapping_cons, value?_mapping hskip]
    simpa [Value.rereads] using hentries.map (Q := fun _ => True)
      (fun es => Value.mapping (Entries.ofList es)) fun _ _ => trivial
  | v, 0, _, level, _, hv, _, hfuel => by
    have hpos := length_prettyChars_pos hv level
    omega

theorem leaves_items? : ∀ {vs : List Value} (fuel depth level outer : ℕ) (rest : List Char),
    vs ≠ [] → (∀ v ∈ vs, v.Proper) → 2 * (prettyList level vs).length ≤ fuel →
      Leaves rest (Value.rereadItems depth vs) (fun _ => True)
        (items? fuel depth (prettyList level vs ++ (newline outer ++ ']' :: rest)))
  | [], _, _, _, _, _, hne, _, _ => absurd rfl hne
  | v :: vs, 0, depth, level, outer, rest, _, _, hfuel => by
    simp [prettyList_cons, newline] at hfuel
  | v :: vs, fuel + 1, depth, level, outer, rest, _, hvs, hfuel => by
    have hv := hvs v List.mem_cons_self
    obtain ⟨_, _, hskip, -, htext⟩ := skip_prettyList hv level vs (newline outer ++ ']' :: rest)
    rw [htext] at hskip
    rw [prettyList_cons, List.length_append, List.length_append] at hfuel
    have hline : 0 < (newline level).length := by simp [newline]
    have hvalue := leaves_value? fuel depth level hv
      (stops_prettyBehindItem level outer vs (']' :: rest)) (by omega)
    rw [items?, hskip, Value.rereadItems]
    rcases hvalue with ⟨hreads, w, -, hread⟩ | ⟨hreads, hread⟩
    · rw [hread, hreads]
      cases vs with
      | nil =>
        simp only [prettyBehindItem, List.nil_append, Option.bind_eq_bind, Option.bind_some,
          skip_newline_bracket]
        exact .inl ⟨rfl, [w], trivial, rfl⟩
      | cons v' vs =>
        have hitems := leaves_items? fuel depth level outer rest (List.cons_ne_nil v' vs)
          (List.forall_mem_cons.1 hvs).2
          (by simp only [prettyBehindItem, List.length_cons] at hfuel; omega)
        simp only [prettyBehindItem, List.cons_append, Option.bind_eq_bind, Option.bind_some,
          skip_comma, Bool.true_and]
        rcases hitems with ⟨hreads', ws, -, hread'⟩ | ⟨hreads', hread'⟩
        · rw [hread', hreads']
          exact .inl ⟨rfl, w :: ws, trivial, rfl⟩
        · rw [hread', hreads']
          exact .inr ⟨rfl, rfl⟩
    · rw [hread, hreads]
      exact .inr ⟨rfl, rfl⟩

theorem leaves_entries? : ∀ {t : List (String × Value)} (fuel depth level outer : ℕ)
    (rest : List Char), t ≠ [] → (∀ p ∈ t, p.2.Proper) →
      2 * (prettyEntries level t).length ≤ fuel →
        Leaves rest (Value.rereadEntries depth t) (fun _ => True)
          (entries? fuel depth (prettyEntries level t ++ (newline outer ++ '\x7d' :: rest)))
  | [], _, _, _, _, _, hne, _, _ => absurd rfl hne
  | (k, v) :: t, 0, depth, level, outer, rest, _, _, hfuel => by
    simp [prettyEntries_cons, newline] at hfuel
  | (k, v) :: t, fuel + 1, depth, level, outer, rest, _, ht, hfuel => by
    have hv : v.Proper := ht (k, v) List.mem_cons_self
    have hskip := skip_prettyEntries level k v t (newline outer ++ '\x7d' :: rest)
    simp only [prettyEntries_cons, List.length_append, List.length_cons] at hfuel
    have hvalue := leaves_value? fuel depth level hv
      (stops_prettyBehindEntry level outer t ('\x7d' :: rest)) (by omega)
    rw [entries?, hskip, string?_quote, Value.rereadEntries]
    simp only [Option.bind_eq_bind, Option.bind_some, skip_colon, skip_blank, skip_prettyChars hv]
    rcases hvalue with ⟨hreads, w, -, hread⟩ | ⟨hreads, hread⟩
    · rw [hread, hreads]
      cases t with
      | nil =>
        simp only [prettyBehindEntry, List.nil_append, Option.bind_some, skip_newline_brace]
        exact .inl ⟨rfl, [(k, w)], trivial, rfl⟩
      | cons p t =>
        have hentries := leaves_entries? fuel depth level outer rest (List.cons_ne_nil p t)
          (List.forall_mem_cons.1 ht).2
          (by simp only [prettyBehindEntry, List.length_cons] at hfuel; omega)
        simp only [prettyBehindEntry, List.cons_append, Option.bind_some, skip_comma,
          Bool.true_and]
        rcases hentries with ⟨hreads', ws, -, hread'⟩ | ⟨hreads', hread'⟩
        · rw [hread', hreads']
          exact .inl ⟨rfl, (k, w) :: ws, trivial, rfl⟩
        · rw [hread', hreads']
          exact .inr ⟨rfl, rfl⟩
    · rw [hread, hreads]
      exact .inr ⟨rfl, rfl⟩

end

/-! ### Passing over -/

variable {fuel : ℕ} {around : List Bool}

theorem skipValue?_skip (fuel : ℕ) (around : List Bool) (cs : List Char) :
    skipValue? fuel around (skip cs) = skipValue? fuel around cs := by
  cases fuel with
  | zero => rfl
  | succ fuel => rw [skipValue?, skipValue?, skip_skip]

theorem skipValue?_number (h : Written cs) (hrest : Stops rest) :
    skipValue? (fuel + 1) around (cs ++ rest) = skipBehind? fuel around rest := by
  cases h with
  | @plain ds tail h =>
    have hunsigned := skipUnsigned?_append h hrest
    obtain ⟨d, ds', rfl⟩ := List.exists_cons_of_ne_nil h.ne
    have hd : d.isDigit = true := h.digits d List.mem_cons_self
    have hkind := kindOf_number (.inl hd)
    have hskip : skip (d :: ds' ++ tail ++ rest) = d :: ds' ++ tail ++ rest :=
      skip_cons (isBlank_of_kindOf (by simp [hkind]))
    rw [skipValue?, hskip]
    split
    case h_7 heq =>
      rw [(List.cons.inj heq).1] at hd
      cases hd
    case h_8 => rw [hunsigned, Option.bind_some]
    all_goals
      next heq =>
        rw [(List.cons.inj heq).1] at hkind
        simp [kindOf] at hkind
  | @minus ds tail h =>
    have hskip : skip ('-' :: (ds ++ tail) ++ rest) = '-' :: (ds ++ tail) ++ rest :=
      skip_cons (by decide)
    rw [skipValue?, hskip, List.cons_append]
    simp only
    rw [skipUnsigned?_append h hrest, Option.bind_some]

theorem skipKey?_prettyEntries (level : ℕ) (k : String) (v : Value)
    (t : List (String × Value)) (cs : List Char) :
    skipKey? (prettyEntries level ((k, v) :: t) ++ cs) =
      some (' ' :: (prettyChars level v ++ (prettyBehindEntry level t ++ cs))) := by
  rw [skipKey?, skip_prettyEntries, quote]
  simp only [List.cons_append, List.append_assoc, List.nil_append, skipQuoted?_escaped,
    Option.bind_eq_bind, Option.bind_some, skip_colon]

theorem skipValue?_list (h : skip rest = c :: cs) (hc : c ≠ ']') :
    skipValue? (fuel + 1) around ('[' :: rest) = skipValue? fuel (false :: around) rest := by
  rw [skipValue?, skip_leftBracket, ← skipValue?_skip fuel (false :: around) rest]
  simp only [h]
  split
  next heq => exact absurd (List.cons.inj heq).1 hc
  next => rfl

theorem skipKey?_skip (cs : List Char) : skipKey? (skip cs) = skipKey? cs := by
  rw [skipKey?, skipKey?, skip_skip]

theorem skipValue?_mapping {k : String} (h : skip rest = quote k ++ cs) :
    skipValue? (fuel + 1) around ('\x7b' :: rest) =
      (skipKey? rest).bind (skipValue? fuel (true :: around)) := by
  rw [skipValue?, skip_leftBrace, ← skipKey?_skip rest]
  simp only [h]
  rfl

theorem skipBehind?_close (level : ℕ) :
    skipBehind? (fuel + 1) (false :: around) (newline level ++ ']' :: rest) =
      skipBehind? fuel around rest := by
  rw [skipBehind?, skip_newline_bracket]
  rfl

theorem skipBehind?_closeMapping (level : ℕ) :
    skipBehind? (fuel + 1) (true :: around) (newline level ++ '\x7d' :: rest) =
      skipBehind? fuel around rest := by
  rw [skipBehind?, skip_newline_brace]
  rfl

theorem skipBehind?_comma :
    skipBehind? (fuel + 1) (false :: around) (',' :: rest) =
      skipValue? fuel (false :: around) rest := by
  rw [skipBehind?, skip_comma]
  rfl

theorem skipBehind?_commaMapping :
    skipBehind? (fuel + 1) (true :: around) (',' :: rest) =
      (skipKey? rest).bind (skipValue? fuel (true :: around)) := by
  rw [skipBehind?, skip_comma]
  rfl

mutual

/-- The text of a value is passed over, in no more steps than it has characters. -/
theorem skipValue?_prettyChars : ∀ {v : Value} {fuel : ℕ} (level : ℕ) (around : List Bool)
    {rest : List Char}, v.Proper → Stops rest → (prettyChars level v).length ≤ fuel →
      ∃ fuel', fuel ≤ fuel' + (prettyChars level v).length ∧
        skipValue? fuel around (prettyChars level v ++ rest) = skipBehind? fuel' around rest
  | v, 0, level, _, _, hv, _, hfuel => by
    have hpos := length_prettyChars_pos hv level
    omega
  | .null, fuel + 1, _, around, rest, _, _, _ => ⟨fuel, by simp [prettyChars], rfl⟩
  | .bool true, fuel + 1, _, around, rest, _, _, _ => ⟨fuel, by simp [prettyChars], rfl⟩
  | .bool false, fuel + 1, _, around, rest, _, _, _ => ⟨fuel, by simp [prettyChars], rfl⟩
  | .num n, fuel + 1, level, around, rest, hv, hrest, _ => by
    have hpos := length_prettyChars_pos hv level
    exact ⟨fuel, by omega, skipValue?_number (written_number hv.finite) hrest⟩
  | .str s, fuel + 1, level, around, rest, hv, _, _ => by
    have hpos := length_prettyChars_pos hv level
    refine ⟨fuel, by omega, ?_⟩
    have hquote : skip (quote s ++ rest) = '"' :: (s.toList.flatMap escapeChar ++ '"' :: rest) := by
      rw [quote, List.cons_append, skip_cons (by decide), List.append_assoc]
      rfl
    rw [prettyChars, skipValue?, hquote]
    simp only
    rw [skipQuoted?_escaped, Option.bind_some]
  | .list [], fuel + 1, _, around, rest, _, _, _ => ⟨fuel, by simp [prettyChars], rfl⟩
  | .list (v :: vs), fuel + 1, level, around, rest, hv, _, hfuel => by
    have hlength : (prettyChars level (.list (v :: vs))).length =
        (prettyList (level + 1) (v :: vs)).length + (newline level).length + 2 := by
      simp [prettyChars]
      omega
    obtain ⟨c, cs, hskip, hc, -⟩ := skip_prettyList (hv.items v List.mem_cons_self) (level + 1) vs
      (newline level ++ ']' :: rest)
    obtain ⟨fuel', hleft, hitems⟩ := skipValue?_prettyList (level + 1) level around rest
      (List.cons_ne_nil v vs) hv.items
      (show (prettyList (level + 1) (v :: vs)).length < fuel by omega)
    exact ⟨fuel', by omega, by rw [prettyChars_list_cons, skipValue?_list hskip hc, hitems]⟩
  | .mapping [], fuel + 1, _, around, rest, _, _, _ => ⟨fuel, by simp [prettyChars], rfl⟩
  | .mapping ((k, v) :: t), fuel + 1, level, around, rest, hv, _, hfuel => by
    have hlength : (prettyChars level (.mapping ((k, v) :: t))).length =
        (prettyEntries (level + 1) ((k, v) :: t)).length + (newline level).length + 2 := by
      simp [prettyChars]
      omega
    have hskip := skip_prettyEntries (level + 1) k v t (newline level ++ '\x7d' :: rest)
    obtain ⟨fuel', hleft, hentries⟩ := skipValue?_prettyEntries (level + 1) level around rest
      (List.cons_ne_nil (k, v) t) hv.entries
      (show (prettyEntries (level + 1) ((k, v) :: t)).length < fuel by omega)
    exact ⟨fuel', by omega, by rw [prettyChars_mapping_cons, skipValue?_mapping hskip, hentries]⟩

theorem skipValue?_prettyList : ∀ {vs : List Value} {fuel : ℕ} (level outer : ℕ)
    (around : List Bool) (rest : List Char), vs ≠ [] → (∀ v ∈ vs, v.Proper) →
      (prettyList level vs).length < fuel →
      ∃ fuel', fuel ≤ fuel' + (prettyList level vs).length + 1 ∧
        skipValue? fuel (false :: around) (prettyList level vs ++ (newline outer ++ ']' :: rest)) =
          skipBehind? fuel' around rest
  | [], _, _, _, _, _, hne, _, _ => absurd rfl hne
  | v :: vs, fuel, level, outer, around, rest, _, hvs, hfuel => by
    have hv := hvs v List.mem_cons_self
    have hlength := congrArg List.length (prettyList_cons level v vs)
    rw [List.length_append, List.length_append] at hlength
    obtain ⟨fuel', hleft, hvalue⟩ := skipValue?_prettyChars level (false :: around) hv
      (stops_prettyBehindItem level outer vs (']' :: rest))
      (show (prettyChars level v).length ≤ fuel by omega)
    have hfirst : skipValue? fuel (false :: around)
        (prettyList level (v :: vs) ++ (newline outer ++ ']' :: rest)) =
          skipBehind? fuel' (false :: around)
            (prettyBehindItem level vs ++ (newline outer ++ ']' :: rest)) := by
      rw [← hvalue, ← skipValue?_skip, prettyList_cons, List.append_assoc, skip_newline,
        skipValue?_skip, List.append_assoc]
    rw [hfirst]
    obtain ⟨fuel', rfl⟩ : ∃ n, fuel' = n + 1 := Nat.exists_eq_succ_of_ne_zero (by omega)
    cases vs with
    | nil => exact ⟨fuel', by omega, skipBehind?_close outer⟩
    | cons v' vs =>
      simp only [prettyBehindItem, List.length_cons] at hlength
      obtain ⟨fuel'', hleft', hitems⟩ := skipValue?_prettyList level outer around rest
        (List.cons_ne_nil v' vs) (List.forall_mem_cons.1 hvs).2
        (show (prettyList level (v' :: vs)).length < fuel' by omega)
      exact ⟨fuel'', by omega, skipBehind?_comma.trans hitems⟩

theorem skipValue?_prettyEntries : ∀ {t : List (String × Value)} {fuel : ℕ} (level outer : ℕ)
    (around : List Bool) (rest : List Char), t ≠ [] → (∀ p ∈ t, p.2.Proper) →
      (prettyEntries level t).length < fuel →
        ∃ fuel', fuel ≤ fuel' + (prettyEntries level t).length + 1 ∧
          (skipKey? (prettyEntries level t ++ (newline outer ++ '\x7d' :: rest))).bind
              (skipValue? fuel (true :: around)) =
            skipBehind? fuel' around rest
  | [], _, _, _, _, _, hne, _, _ => absurd rfl hne
  | (k, v) :: t, fuel, level, outer, around, rest, _, ht, hfuel => by
    have hv : v.Proper := ht (k, v) List.mem_cons_self
    have hlength := congrArg List.length (prettyEntries_cons level k v t)
    simp only [List.length_append, List.length_cons] at hlength
    obtain ⟨fuel', hleft, hvalue⟩ := skipValue?_prettyChars level (true :: around) hv
      (stops_prettyBehindEntry level outer t ('\x7d' :: rest))
      (show (prettyChars level v).length ≤ fuel by omega)
    have hfirst : (skipKey? (prettyEntries level ((k, v) :: t) ++
        (newline outer ++ '\x7d' :: rest))).bind (skipValue? fuel (true :: around)) =
          skipBehind? fuel' (true :: around)
            (prettyBehindEntry level t ++ (newline outer ++ '\x7d' :: rest)) := by
      rw [← hvalue, skipKey?_prettyEntries, Option.bind_some, ← skipValue?_skip, skip_blank,
        skipValue?_skip]
    rw [hfirst]
    obtain ⟨fuel', rfl⟩ : ∃ n, fuel' = n + 1 := Nat.exists_eq_succ_of_ne_zero (by omega)
    cases t with
    | nil => exact ⟨fuel', by omega, skipBehind?_closeMapping outer⟩
    | cons p t =>
      simp only [prettyBehindEntry, List.length_cons] at hlength
      obtain ⟨fuel'', hleft', hentries⟩ := skipValue?_prettyEntries level outer around rest
        (List.cons_ne_nil p t)
        (List.forall_mem_cons.1 ht).2 (show (prettyEntries level (p :: t)).length < fuel' by omega)
      exact ⟨fuel'', by omega, skipBehind?_commaMapping.trans hentries⟩

end

/-- The text of a value, behind a blank, is passed over. -/
theorem skipFirst?_prettyChars {v : Value} (level : ℕ) (hv : v.Proper) (hrest : Stops rest) :
    skipFirst? (' ' :: (prettyChars level v ++ rest)) = some rest := by
  have hfuel : (prettyChars level v).length ≤
      2 * (' ' :: (prettyChars level v ++ rest)).length + 2 := by
    simp
    omega
  obtain ⟨fuel, -, hvalue⟩ := skipValue?_prettyChars level [] hv hrest hfuel
  rw [skipFirst?, ← skipValue?_skip, skip_blank, skipValue?_skip, hvalue]
  cases fuel <;> rfl

end Json

end ParamSweep
