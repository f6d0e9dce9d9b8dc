import ParamSweep.Proofs.Injection
import ParamSweep.Proofs.ManifestLines
import ParamSweep.Proofs.Tables

/-!
The parameters that a plan derives.

A formula reads of a table the names that it mentions and nothing else (`evaluate_congr`), and all
of them have to be there (`find?_isSome_of_evaluate`). Derivation sets one parameter after the other
(`Derives`): first what the table of the run suffices for, then what was put off. So a formula has
read the table with everything that was derived before its turn, and not what came at its turn or
after it. Where it mentions a name that is derived later and that the run had a value for already,
it has read the value that is replaced.
-/

namespace ParamSweep

namespace Entries

variable {α : Type} {base t : Entries α} {key : String}

theorem find?_union (base t : Entries α) :
    (base.union t).find? key = (t.last? key).or (base.find? key) := by
  induction t generalizing base with
  | nil => rfl
  | cons p rest ih =>
    obtain ⟨k, v⟩ := p
    rw [union, List.foldl_cons, ← union, ih, find?_insert, last?]
    cases last? key rest with
    | some w => rfl
    | none =>
      by_cases hk : k = key
      · simp [hk]
      · simp [hk]

theorem last?_eq_find? (h : t.keys.Nodup) : t.last? key = t.find? key := by
  induction t with
  | nil => rfl
  | cons p rest ih =>
    obtain ⟨k, v⟩ := p
    obtain ⟨hfirst, hrest⟩ := List.nodup_cons.1 h
    rw [last?, find?, ih hrest]
    by_cases hk : k = key
    · subst hk
      rw [find?_eq_none_iff.2 hfirst]
      simp
    · cases find? key rest <;> simp [hk]

theorem find?_union_of_nodup (h : t.keys.Nodup) :
    (base.union t).find? key = (t.find? key).or (base.find? key) := by
  rw [find?_union, last?_eq_find? h]

end Entries

namespace Expression

variable {t t' : Entries Value} {n : Number}

mutual

/-- The names that an expression reads: of a dotted name, what stands before the first point. -/
def Expr.names : Expr → List String
  | .num _ => []
  | .var name => (pathKeys name).take 1
  | .neg e => e.names
  | .binary _ l r => l.names ++ r.names
  | .call _ arguments => namesAll arguments

@[inherit_doc Expr.names]
def namesAll : List Expr → List String
  | [] => []
  | e :: rest => e.names ++ namesAll rest

end

/-- The names that a formula mentions. -/
def mentions (formula : String) : List String :=
  match read formula with
  | .ok e => e.names
  | .error _ => []

/-! ### What a formula reads -/

theorem pathKeys_ne_nil (path : String) : pathKeys path ≠ [] := by
  rw [pathKeys, Ne, List.map_eq_nil_iff]
  exact Text.splitOn_ne_nil _ _

theorem lookup_congr {path : String}
    (h : ∀ name ∈ (pathKeys path).take 1, t.find? name = t'.find? name) :
    t.lookup path = t'.lookup path := by
  rw [Entries.lookup, Entries.lookup]
  cases hkeys : pathKeys path with
  | nil => exact absurd hkeys (pathKeys_ne_nil path)
  | cons key rest =>
    have hfirst : t.find? key = t'.find? key := h key (by rw [hkeys]; exact List.mem_cons_self)
    rw [Value.descend, Value.descend, Value.get?, Value.get?, hfirst]

theorem find?_isSome_of_lookup {path : String} (h : (t.lookup path).isSome = true) :
    ∀ name ∈ (pathKeys path).take 1, (t.find? name).isSome = true := by
  rw [Entries.lookup] at h
  cases hkeys : pathKeys path with
  | nil => exact absurd hkeys (pathKeys_ne_nil path)
  | cons key rest =>
    intro name hname
    obtain rfl : name = key := by simpa using hname
    rw [hkeys, Value.descend, Value.get?] at h
    cases hfind : t.find? name with
    | none => rw [hfind] at h; exact h
    | some v => rfl

mutual

theorem Expr.eval_congr : ∀ e : Expr, (∀ name ∈ e.names, t.find? name = t'.find? name) →
    e.eval t = e.eval t'
  | .num n, _ => rfl
  | .var name, h => by rw [Expr.eval, Expr.eval, lookup_congr h]
  | .neg e, h => by rw [Expr.eval, Expr.eval, e.eval_congr h]
  | .binary op l r, h => by
    rw [Expr.eval, Expr.eval, l.eval_congr fun name hl => h name (List.mem_append_left _ hl),
      r.eval_congr fun name hr => h name (List.mem_append_right _ hr)]
  | .call f arguments, h => by rw [Expr.eval, Expr.eval, evalAll_congr arguments h]

theorem evalAll_congr : ∀ es : List Expr, (∀ name ∈ namesAll es, t.find? name = t'.find? name) →
    evalAll t es = evalAll t' es
  | [], _ => rfl
  | e :: rest, h => by
    rw [evalAll, evalAll, e.eval_congr fun name he => h name (List.mem_append_left _ he),
      evalAll_congr rest fun name hr => h name (List.mem_append_right _ hr)]

end

mutual

theorem Expr.find?_isSome_of_eval : ∀ (e : Expr) {n : Number}, e.eval t = .ok n →
    ∀ name ∈ e.names, (t.find? name).isSome = true
  | .num n, _, _ => nofun
  | .var path, n, h => by
    rw [Expr.eval] at h
    refine find?_isSome_of_lookup ?_
    split at h
    next v hv => rw [hv]; rfl
    next => cases h
  | .neg e, n, h => by
    obtain ⟨a, ha, -⟩ := except_bind_ok h
    exact e.find?_isSome_of_eval ha
  | .binary op l r, n, h => by
    obtain ⟨a, ha, h⟩ := except_bind_ok h
    obtain ⟨b, hb, -⟩ := except_bind_ok h
    intro name hname
    rcases List.mem_append.1 hname with hl | hr
    · exact l.find?_isSome_of_eval ha name hl
    · exact r.find?_isSome_of_eval hb name hr
  | .call f arguments, n, h => by
    obtain ⟨values, hvalues, -⟩ := except_bind_ok h
    exact find?_isSome_of_evalAll arguments hvalues

theorem find?_isSome_of_evalAll : ∀ (es : List Expr) {values : List Number},
    evalAll t es = .ok values → ∀ name ∈ namesAll es, (t.find? name).isSome = true
  | [], _, _ => nofun
  | e :: rest, values, h => by
    obtain ⟨a, ha, h⟩ := except_bind_ok h
    obtain ⟨as, has, -⟩ := except_bind_ok h
    intro name hname
    rcases List.mem_append.1 hname with he | hr
    · exact e.find?_isSome_of_eval ha name he
    · exact find?_isSome_of_evalAll rest has name hr

end

/-- A formula reads the names that it mentions and nothing else. -/
theorem evaluate_congr {formula : String}
    (h : ∀ name ∈ mentions formula, t.find? name = t'.find? name) :
    evaluate formula t = evaluate formula t' := by
  rw [mentions] at h
  rw [evaluate, evaluate]
  split at h <;> rename_i hread <;> rw [hread]
  exact Expr.eval_congr _ h

/-- Every name that a formula mentions is there if the formula has a value. -/
theorem find?_isSome_of_evaluate {formula : String} (h : evaluate formula t = .ok n) :
    ∀ name ∈ mentions formula, (t.find? name).isSome = true := by
  rw [evaluate] at h
  rw [mentions]
  split at h
  · cases h
  · rename_i e hread
    rw [hread]
    exact Expr.find?_isSome_of_eval e h

end Expression

namespace Compile

open Expression

variable {plan : Plan} {branch : Branch} {combo : Combination} {data : Value}
variable {outPrefix key : String} {t own parameters : Entries Value} {v : Value}
variable {d d' : Derivation}

/-- The value of a formula, as it is recorded for a parameter. -/
def IsValueOf (formula : String) (t : Entries Value) (v : Value) : Prop :=
  ∃ n, evaluate formula t = .ok n ∧ toValue n = .ok v

/-- What an entry of the derived parameters comes to: a text is a formula, and anything else stands
for itself. -/
def ComesTo (t : Entries Value) : Value → Value → Prop
  | .str formula, v => IsValueOf formula t v
  | entry, v => v = entry

/-- Parameters are set one after the other, each to what its entry comes to in the table that there
is at its turn. -/
inductive Derives : Entries Value → List (String × Value) → List (String × Value) → Prop
  | nil {t₀} : Derives t₀ [] []
  | cons {t₀ name entry value rest values} : ComesTo t₀ entry value →
      Derives (t₀.insert name value) rest values →
      Derives t₀ ((name, entry) :: rest) ((name, value) :: values)

namespace Derives

variable {entries more values others : List (String × Value)}

theorem append (h : Derives t entries values) (hmore : Derives (t.union values) more others) :
    Derives t (entries ++ more) (values ++ others) := by
  induction h with
  | nil => exact hmore
  | cons hfirst _ ih => exact .cons hfirst (ih hmore)

theorem keys_eq (h : Derives t entries values) : Entries.keys values = Entries.keys entries := by
  induction h with
  | nil => rfl
  | cons _ _ ih =>
    rw [Entries.keys, List.map_cons, ← Entries.keys, ih]
    rfl

/-- Every entry has its turn: the table that it is read in has the values of those before it. -/
theorem at_turn {entry : Value} (h : Derives t entries values) (hentry : (key, entry) ∈ entries) :
    ∃ earlier v later, values = earlier ++ (key, v) :: later ∧
      ComesTo (t.union earlier) entry v := by
  induction h with
  | nil => cases hentry
  | cons hfirst _ ih =>
    rcases List.mem_cons.1 hentry with heq | hentry
    · cases heq
      exact ⟨[], _, _, rfl, hfirst⟩
    · obtain ⟨earlier, v, later, rfl, hv⟩ := ih hentry
      exact ⟨_ :: earlier, v, later, rfl, hv⟩

end Derives

/-! ### The two passes -/

/-- A formula that was put off, as an entry of the derived parameters. -/
def asEntry (p : String × String) : String × Value := (p.1, .str p.2)

/-- What has been set, and the formulas that stand over. -/
structure Sets (d d' : Derivation) (values : List (String × Value)) : Prop where
  context : d'.context = d.context.union values
  parameters : d'.parameters = d.parameters.union values

theorem Sets.cons {values : List (String × Value)} (h : Sets (d.set key v) d' values) :
    Sets d d' ((key, v) :: values) :=
  ⟨h.context, h.parameters⟩

/-- The entries that are not put off. -/
def setAtOnce (later : List (String × String)) (entries : List (String × Value)) :
    List (String × Value) :=
  entries.filter fun p => !(later.map Prod.fst).contains p.1

theorem setAtOnce_cons {later : List (String × String)} {p : String × Value}
    {rest : List (String × Value)} (hnew : p.1 ∉ later.map Prod.fst) :
    setAtOnce later (p :: rest) = p :: setAtOnce later rest :=
  List.filter_cons_of_pos (by simpa using hnew)

theorem setAtOnce_putOff {later : List (String × String)} {key formula : String}
    {rest : List (String × Value)} (hnew : key ∉ Entries.keys rest) :
    setAtOnce ((key, formula) :: later) ((key, .str formula) :: rest) = setAtOnce later rest := by
  have hskip : ∀ p ∈ rest, p.1 ≠ key := fun p hp heq =>
    hnew (List.mem_map.2 ⟨p, hp, heq⟩)
  rw [setAtOnce, List.filter_cons_of_neg (by simp), setAtOnce]
  refine List.filter_congr fun p hp => ?_
  simp [hskip p hp]

/-- The first pass sets some of the entries, in their order, and puts the others off. -/
theorem deriveFirst_ok {entries : List (String × Value)} (hkeys : (Entries.keys entries).Nodup)
    (h : deriveFirst d entries = .ok d') :
    ∃ later values, d'.deferred = d.deferred ++ later ∧
      (setAtOnce later entries ++ later.map asEntry).Perm entries ∧
      Derives d.context (setAtOnce later entries) values ∧ Sets d d' values := by
  induction entries generalizing d with
  | nil =>
    cases h
    exact ⟨[], [], (List.append_nil _).symm, .refl _, .nil, rfl, rfl⟩
  | cons p rest ih =>
    obtain ⟨key, entry⟩ := p
    obtain ⟨hfirst, hrest⟩ := List.nodup_cons.1 hkeys
    -- what is set stands at the front, whether it is a formula or not
    have hset : ∀ v, ComesTo d.context entry v → deriveFirst (d.set key v) rest = .ok d' →
        ∃ later values, d'.deferred = d.deferred ++ later ∧
          (setAtOnce later ((key, entry) :: rest) ++ later.map asEntry).Perm
            ((key, entry) :: rest) ∧
          Derives d.context (setAtOnce later ((key, entry) :: rest)) values ∧
          Sets d d' values := by
      intro v hv h
      obtain ⟨later, values, hdeferred, hperm, hderives, hsets⟩ := ih hrest h
      have hnew : key ∉ later.map Prod.fst := by
        intro hmem
        obtain ⟨q, hq, heq⟩ := List.mem_map.1 hmem
        have hq' : asEntry q ∈ rest :=
          hperm.subset (List.mem_append_right _ (List.mem_map_of_mem hq))
        exact hfirst (List.mem_map.2 ⟨_, hq', heq⟩)
      refine ⟨later, (key, v) :: values, hdeferred, ?_, ?_, hsets.cons⟩
      · rw [setAtOnce_cons hnew]
        exact hperm.cons _
      · rw [setAtOnce_cons hnew]
        exact .cons hv hderives
    cases entry with
    | str formula =>
      rw [deriveFirst] at h
      split at h
      next n hn =>
        obtain ⟨v, hv, h⟩ := except_bind_ok h
        exact hset v ⟨n, hn, mapError_ok hv⟩ h
      next =>
        obtain ⟨later, values, hdeferred, hperm, hderives, hsets⟩ := ih hrest h
        refine ⟨(key, formula) :: later, values, ?_, ?_, ?_, hsets.context, hsets.parameters⟩
        · rw [hdeferred, List.append_assoc]
          rfl
        · rw [setAtOnce_putOff hfirst, List.map_cons]
          exact List.perm_middle.trans (hperm.cons _)
        · rw [setAtOnce_putOff hfirst]
          exact hderives
      next => cases h
    | _ => exact hset _ rfl h

/-- The second pass sets everything that was put off. -/
theorem deriveRest_ok {later : List (String × String)} (h : deriveRest d later = .ok d') :
    d'.deferred = d.deferred ∧
      ∃ values, Derives d.context (later.map asEntry) values ∧ Sets d d' values := by
  induction later generalizing d with
  | nil =>
    cases h
    exact ⟨rfl, [], .nil, rfl, rfl⟩
  | cons p rest ih =>
    obtain ⟨key, formula⟩ := p
    obtain ⟨n, hn, h⟩ := except_bind_ok h
    obtain ⟨v, hv, h⟩ := except_bind_ok h
    obtain ⟨hdeferred, values, hderives, hsets⟩ := ih h
    exact ⟨hdeferred, (key, v) :: values,
      .cons ⟨n, mapError_ok hn, mapError_ok hv⟩ hderives, hsets.cons⟩

/-- The entries of a plan in the order of their turns: what was put off comes last. -/
def Derivation.turns (d : Derivation) (plan : Plan) : List (String × Value) :=
  setAtOnce d.deferred plan.derivedParameters ++ d.deferred.map asEntry

/-- The derived parameters are set one after the other, each at its turn. -/
theorem derive_ok (hkeys : plan.derivedParameters.keys.Nodup)
    (h : derive plan own parameters = .ok d) :
    (d.turns plan).Perm plan.derivedParameters ∧
      ∃ values, Derives own (d.turns plan) values ∧ (Entries.keys values).Nodup ∧
        d.context = own.union values ∧ d.parameters = parameters.union values := by
  obtain ⟨d₁, hfirst, hrest⟩ := except_bind_ok h
  obtain ⟨later, values, hdeferred, hperm, hnow, hsets⟩ := deriveFirst_ok hkeys hfirst
  obtain ⟨hdeferred', others, hlater, hsets'⟩ := deriveRest_ok hrest
  have hd : d.deferred = later := hdeferred'.trans hdeferred
  have hunion : ∀ t : Entries Value, t.union (values ++ others) = (t.union values).union others :=
    fun t => List.foldl_append
  have hderives : Derives own (d.turns plan) (values ++ others) := by
    rw [Derivation.turns, hd]
    refine hnow.append ?_
    rw [hdeferred] at hlater
    rw [← hsets.context]
    exact hlater
  have hturns : (d.turns plan).Perm plan.derivedParameters := by
    rw [Derivation.turns, hd]
    exact hperm
  refine ⟨hturns, values ++ others, hderives, ?_, ?_, ?_⟩
  · rw [hderives.keys_eq]
    exact (hturns.map Prod.fst).nodup_iff.2 hkeys
  · rw [hsets'.context, hsets.context, hunion]
  · rw [hsets'.parameters, hsets.parameters, hunion]

/-! ### What a formula has read -/

/-- The names that are derived at the turn of a parameter or after it. -/
def Derivation.fromTurn (d : Derivation) (plan : Plan) (key : String) : List String :=
  (Entries.keys (d.turns plan)).dropWhile (· ≠ key)

/-- The table at the turn of a parameter: what is derived from its turn on is as the run had it
before, and everything else as it is in the end. -/
def Derivation.IsTurnOf (d : Derivation) (plan : Plan) (own : Entries Value) (key : String)
    (t : Entries Value) : Prop :=
  ∀ name, t.find? name =
    if name ∈ d.fromTurn plan key then own.find? name else d.context.find? name

theorem dropWhile_ne_of_nodup {before after : List String}
    (h : (before ++ key :: after).Nodup) :
    (before ++ key :: after).dropWhile (· ≠ key) = key :: after := by
  have hskip : ∀ k ∈ before, decide (k ≠ key) = true := by
    rintro k hk
    have hne : k ≠ key := fun heq =>
      (List.nodup_append.1 h).2.2 k hk key List.mem_cons_self heq
    simpa using hne
  rw [List.dropWhile_append_of_pos hskip, List.dropWhile_cons_of_neg (by simp)]

/-- Every entry comes to its value in the table at its turn. -/
theorem comesTo_at_turn {entry : Value} (hkeys : plan.derivedParameters.keys.Nodup)
    (h : derive plan own parameters = .ok d) (hentry : (key, entry) ∈ plan.derivedParameters) :
    ∃ t v, d.parameters.find? key = some v ∧ d.context.find? key = some v ∧
      d.IsTurnOf plan own key t ∧ ComesTo t entry v := by
  obtain ⟨hperm, values, hderives, hvalues, hcontext, hparameters⟩ := derive_ok hkeys h
  obtain ⟨earlier, v, later, rfl, hv⟩ := hderives.at_turn (hperm.mem_iff.2 hentry)
  have hsplit : Entries.keys (earlier ++ (key, v) :: later) =
      earlier.keys ++ key :: Entries.keys later := List.map_append
  have hnodup : (earlier.keys ++ key :: Entries.keys later).Nodup := hsplit ▸ hvalues
  obtain ⟨hearlier, -, hapart⟩ := List.nodup_append.1 hnodup
  have hnew : key ∉ earlier.keys := fun hmem => hapart key hmem key List.mem_cons_self rfl
  have hfound : Entries.find? key (earlier ++ (key, v) :: later) = some v := by
    rw [Entries.find?_append, Entries.find?_eq_none_iff.2 hnew]
    simp [Entries.find?]
  refine ⟨own.union earlier, v, ?_, ?_, ?_, hv⟩
  · rw [hparameters, Entries.find?_union_of_nodup hvalues, hfound]
    rfl
  · rw [hcontext, Entries.find?_union_of_nodup hvalues, hfound]
    rfl
  · intro name
    rw [Derivation.fromTurn, ← hderives.keys_eq, hsplit, dropWhile_ne_of_nodup hnodup,
      Entries.find?_union_of_nodup hearlier]
    split
    next hname =>
      rw [Entries.find?_eq_none_iff.2 fun hmem => hapart name hmem name hname rfl]
      rfl
    next hname =>
      have hlater : Entries.find? name ((key, v) :: later) = none :=
        Entries.find?_eq_none_iff.2 hname
      rw [hcontext, Entries.find?_union_of_nodup hvalues, Entries.find?_append, hlater,
        Option.or_none]

/-- Where a name is not derived, everything is as it was. -/
theorem find?_of_not_derived {name : String} (hkeys : plan.derivedParameters.keys.Nodup)
    (h : derive plan own parameters = .ok d) (hname : name ∉ plan.derivedParameters.keys) :
    d.context.find? name = own.find? name ∧ d.parameters.find? name = parameters.find? name := by
  obtain ⟨hperm, values, hderives, hvalues, hcontext, hparameters⟩ := derive_ok hkeys h
  have habsent : Entries.find? name values = none := by
    rw [Entries.find?_eq_none_iff, hderives.keys_eq]
    exact fun hmem => hname ((hperm.map Prod.fst).mem_iff.1 hmem)
  rw [hcontext, hparameters, Entries.find?_union_of_nodup hvalues,
    Entries.find?_union_of_nodup hvalues, habsent]
  exact ⟨rfl, rfl⟩

/-- The parameters of a run are those that are derived for its branch and combination. -/
theorem derive_of_compileRun {configs : Entries Document} {run : Run}
    (h : compileRun plan data configs branch combo = .ok run) :
    ∃ d, derive plan (runContext plan branch combo data (outputPrefix plan combo data))
        combo.toEntries = .ok d ∧ run.parameters = d.parameters := by
  obtain ⟨d, hd, h⟩ := except_bind_ok h
  refine ⟨d, mapError_ok hd, ?_⟩
  simp only at h
  -- the name comes from a template or not, and what follows is the same
  split at h
  all_goals
    obtain ⟨name, -, h⟩ := except_bind_ok h
    split at h
    · cases h
    · obtain ⟨_, -, h⟩ := except_bind_ok h
      obtain ⟨_, -, h⟩ := except_bind_ok h
      obtain ⟨_, -, h⟩ := except_bind_ok h
      cases h
      rfl

/-- The formula mentions nothing that the run had a value for and that is derived at the turn of the
parameter or after it. -/
def Derivation.ReadsLastValues (d : Derivation) (plan : Plan) (own : Entries Value)
    (key formula : String) : Prop :=
  ∀ name ∈ mentions formula, name ∈ d.fromTurn plan key → own.find? name = none

/-- In the end every derived name stands for the value that is recorded for it, and every other name
for what the run had before. The value recorded for a formula is the one that it has in the table at
its turn. It is the one that it has in the end, unless it mentions a name whose value is replaced at
its turn or after it. -/
theorem formula_value_of_derive (hkeys : plan.derivedParameters.keys.Nodup)
    (h : derive plan (runContext plan branch combo data outPrefix) combo.toEntries = .ok d) :
    (∀ name, d.context.find? name =
      if name ∈ plan.derivedParameters.keys then d.parameters.find? name
      else (runContext plan branch combo data outPrefix).find? name) ∧
    ∀ key formula, (key, .str formula) ∈ plan.derivedParameters →
      ∃ v t, d.parameters.find? key = some v ∧
        d.IsTurnOf plan (runContext plan branch combo data outPrefix) key t ∧
        IsValueOf formula t v ∧
        (d.ReadsLastValues plan (runContext plan branch combo data outPrefix) key formula →
          IsValueOf formula d.context v) := by
  constructor
  · intro name
    split
    next hname =>
      obtain ⟨p, hp, rfl⟩ := List.mem_map.1 hname
      obtain ⟨t, v, hrecorded, hcontext, -⟩ := comesTo_at_turn hkeys h hp
      rw [hrecorded, hcontext]
    next hname => exact (find?_of_not_derived hkeys h hname).1
  · intro key formula hentry
    obtain ⟨t, v, hrecorded, -, hturn, n, hn, hv⟩ := comesTo_at_turn hkeys h hentry
    refine ⟨v, t, hrecorded, hturn, ⟨n, hn, hv⟩, fun hreads => ⟨n, ?_, hv⟩⟩
    rw [← hn]
    refine evaluate_congr fun name hname => ?_
    have hthere := find?_isSome_of_evaluate hn name hname
    rw [hturn name] at hthere ⊢
    split
    next hlate =>
      rw [if_pos hlate, hreads name hname hlate] at hthere
      cases hthere
    next => rfl

/-- A plan of two formulas, the first of which needs the second. -/
def chainedPlan : Plan where
  derivedParameters := [("a", .str "b + 1"), ("b", .str "c * 2")]

theorem formula_values_of_chain :
    ∃ d, derive chainedPlan
        (runContext chainedPlan ⟨"default", []⟩ ⟨[("c", .int 5)]⟩ (.mapping []) "")
        (Combination.toEntries ⟨[("c", .int 5)]⟩) = .ok d ∧
      d.context.find? "b" = d.parameters.find? "b" ∧
      ∃ v, d.parameters.find? "a" = some v ∧ IsValueOf "b + 1" d.context v := by
  have hderive : derive chainedPlan
      (runContext chainedPlan ⟨"default", []⟩ ⟨[("c", .int 5)]⟩ (.mapping []) "")
      (Combination.toEntries ⟨[("c", .int 5)]⟩) = .ok _ := rfl
  obtain ⟨hcontext, hvalues⟩ := formula_value_of_derive (by decide) hderive
  refine ⟨_, hderive, ?_⟩
  obtain ⟨v, _, hrecorded, -, -, hlast⟩ := hvalues "a" "b + 1" (.head _)
  refine ⟨hcontext "b", v, hrecorded, hlast fun name hname _ => ?_⟩
  -- the only name of the formula is `b`, whose turn came before
  obtain rfl : name = "b" := List.mem_singleton.1 hname
  rfl

/-- A plan that derives anew what a formula before it has read as a constant. -/
def rederivedPlan : Plan where
  constants := [("b", .int 1)]
  derivedParameters := [("a", .str "b + 1"), ("b", .int 10)]

theorem stale_value_of_rederived_constant :
    ∃ d, derive rederivedPlan
        (runContext rederivedPlan ⟨"default", []⟩ {} (.mapping []) "") (Combination.toEntries {}) =
          .ok d ∧
      "a" ∉ mentions "b + 1" ∧ d.parameters.find? "a" = some (.int 2) ∧
      evaluate "b + 1" d.context = .ok (.int 11) ∧ ¬ IsValueOf "b + 1" d.context (.int 2) := by
  refine ⟨_, rfl, by decide +kernel, rfl, rfl, ?_⟩
  rintro ⟨n, hn, hv⟩
  cases (show Except.ok (Number.int 11) = .ok n from hn)
  cases hv

end Compile

end ParamSweep
