import Mathlib.Data.List.Chain
import Mathlib.Data.List.Nodup
import Mathlib.Data.List.Perm.Subperm
import Mathlib.Logic.Relation
import ParamSweep.Proofs.DiskSource
import ParamSweep.Proofs.Resolution

/-!
The walk from an experiment along the bases.

A `Route` starts at the experiment and goes from each link to its base; all of its links exist and
no two are the same. `Walk` is the state of the loop that follows the bases, with a record of what
the source has been asked, and `Walk.turn` is one turn of the loop. A turn that goes on keeps the
links a route (`Walk.Along.goes`). All links but the first are bases, so where the bases are
finitely many no route is longer than there are bases, and the loop ends (`exists_over`).

There is one way from an experiment, so the walk comes along every route (`reaches_of_route`). That
is why its answer can be read off a route with an end, and need not be looked for in a run of the
loop (`chainOf_eq_iff`).
-/

namespace ParamSweep

namespace Resolver

variable {source : ConfigSource} {declared : Entries String} {experiment : String}
  {links : List String} {asked : List String} {answer : Except Error (List String)}

/-! ### Routes -/

/-- An experiment names another one as its base, by a declaration or else in the source. -/
def PointsTo (source : ConfigSource) (declared : Entries String) (link base : String) : Prop :=
  nextBase source declared link = .ok (some base)

/-- Links from an experiment along the bases, all of them experiments and no two the same. -/
structure Route (source : ConfigSource) (declared : Entries String) (experiment : String)
    (links : List String) : Prop where
  starts : links.head? = some experiment
  follows : links.IsChain (PointsTo source declared)
  there : ∀ link ∈ links, source.contains link = true
  distinct : links.Nodup

/-- What the last of some links names as its base. -/
def NextAfter (source : ConfigSource) (declared : Entries String) (links : List String)
    (next : Except Error (Option String)) : Prop :=
  ∃ last, links.getLast? = some last ∧ nextBase source declared last = next

/-- A route, and behind it the base of its last link, which is one of its links. -/
def Circuit (source : ConfigSource) (declared : Entries String) (experiment : String)
    (cycle : List String) : Prop :=
  ∃ links base, cycle = links ++ [base] ∧ Route source declared experiment links ∧
    NextAfter source declared links (.ok (some base)) ∧ base ∈ links

/-- The answer with which a walk along some links can end at the last of them: it has no base, its
base cannot be read, or the base is among the links, or not there at all. -/
inductive Ends (source : ConfigSource) (declared : Entries String) (links : List String)
    (last : String) : Except Error (List String) → Prop
  | root (hroot : nextBase source declared last = .ok none) :
    Ends source declared links last (.ok links)
  | unread {e : Error} (hunread : nextBase source declared last = .error e) :
    Ends source declared links last (.error e)
  | again {base : String} (hbase : PointsTo source declared last base) (hmem : base ∈ links) :
    Ends source declared links last (.error (.circularInheritance (links ++ [base])))
  | missing {base : String} (hbase : PointsTo source declared last base) (hnew : base ∉ links)
      (hgone : source.contains base = false) :
    Ends source declared links last (.error (.configuration (.baseWithoutDirectory last base)))

theorem route_start (h : source.contains experiment = true) :
    Route source declared experiment [experiment] :=
  ⟨rfl, List.isChain_singleton _, by simpa using h, List.nodup_singleton _⟩

theorem Route.concat {base : String} (h : Route source declared experiment links)
    (hbase : NextAfter source declared links (.ok (some base))) (hnew : base ∉ links)
    (hthere : source.contains base = true) :
    Route source declared experiment (links ++ [base]) := by
  obtain ⟨last, hlast, hbase⟩ := hbase
  refine ⟨?starts, ?follows, ?there, ?distinct⟩
  case starts => rw [List.head?_append, h.starts, Option.some_or]
  case follows =>
    refine List.isChain_append.2 ⟨h.follows, List.isChain_singleton _, fun x hx y hy => ?_⟩
    obtain rfl : last = x := by simpa [hlast] using hx
    obtain rfl : base = y := by simpa using hy
    exact hbase
  case there =>
    intro link hmem
    rcases List.mem_append.1 hmem with hmem | hmem
    · exact h.there link hmem
    · exact List.mem_singleton.1 hmem ▸ hthere
  case distinct => exact List.concat_eq_append ▸ h.distinct.concat hnew

theorem Route.ne_nil (h : Route source declared experiment links) : links ≠ [] := by
  rintro rfl
  cases h.starts

theorem Route.contains_start (h : Route source declared experiment links) :
    source.contains experiment = true :=
  h.there experiment (List.mem_of_head? h.starts)

/-- The links before the last one are a route to one that builds on it. -/
theorem Route.of_concat {base : String} (h : Route source declared experiment (links ++ [base]))
    (hne : links ≠ []) :
    Route source declared experiment links ∧ NextAfter source declared links (.ok (some base)) ∧
      base ∉ links ∧ source.contains base = true := by
  obtain ⟨hfollows, -, hlast⟩ := List.isChain_append.1 h.follows
  have hdistinct := List.nodup_append.1 h.distinct
  refine ⟨⟨?starts, hfollows, ?there, hdistinct.1⟩, ?next, ?new, h.there base (by simp)⟩
  case starts => rw [← h.starts, List.head?_append_of_ne_nil _ hne]
  case there => exact fun link hmem => h.there link (List.mem_append_left _ hmem)
  case next =>
    have hsome := List.getLast?_eq_some_getLast hne
    exact ⟨_, hsome, hlast _ hsome base rfl⟩
  case new => exact fun hmem => hdistinct.2.2 base hmem base (List.mem_singleton_self _) rfl

/-- All links but the first are bases. -/
theorem exists_pointsTo : ∀ {links : List String} {first : String},
    (first :: links).IsChain (PointsTo source declared) →
      ∀ base ∈ links, ∃ link, PointsTo source declared link base
  | next :: rest, first, h, base, hmem => by
    obtain ⟨hnext, hrest⟩ := List.isChain_cons_cons.1 h
    rcases List.mem_cons.1 hmem with rfl | hmem
    · exact ⟨first, hnext⟩
    · exact exists_pointsTo hrest base hmem

/-- There are no more links than bases, and the experiment itself. -/
theorem Route.length_le (hbound : source.Bounded) (h : Route source declared experiment links) :
    links.length ≤ source.bound + declared.length + 1 := by
  obtain ⟨bases, hlength, hbases⟩ := hbound
  obtain ⟨first, rest, rfl⟩ := List.exists_cons_of_ne_nil h.ne_nil
  have hsubset : rest ⊆ bases ++ declared.map (·.2) := by
    intro base hmem
    obtain ⟨link, hlink⟩ := exists_pointsTo h.follows base hmem
    rw [PointsTo, nextBase] at hlink
    split at hlink
    next hdeclared =>
      cases hlink
      exact List.mem_append_right _ (List.mem_map_of_mem (Entries.mem_of_find? hdeclared))
    · exact List.mem_append_left _ (hbases link base hlink)
  have hle := ((List.nodup_cons.1 h.distinct).2.subperm hsubset).length_le
  rw [List.length_append, List.length_map] at hle
  rw [List.length_cons]
  omega

/-! ### Turns -/

/-- The base of an experiment, and the experiments whose base the source is asked for on the way. -/
def askBase (source : ConfigSource) (declared : Entries String) (experiment : String) :
    Except Error (Option String) × List String :=
  match declared.find? experiment with
  | some base => (.ok (some base), [])
  | none => (source.base? experiment, [experiment])

theorem askBase_eq : askBase source declared experiment =
    (nextBase source declared experiment,
      [experiment].filter fun link => (declared.find? link).isNone) := by
  rw [askBase, nextBase]
  rcases h : declared.find? experiment with _ | base <;> simp [h]

/-- The walk before a turn: the links, the last of them, and the experiments whose base the source
has been asked for. -/
structure Walk where
  links : List String
  current : String
  asked : List String

/-- What a turn comes to. -/
inductive Turn where
  | on (w : Walk)
  | over (asked : List String) (answer : Except Error (List String))

namespace Walk

/-- The walk before the first turn. -/
def start (experiment : String) : Walk := ⟨[experiment], experiment, []⟩

/-- One turn of the walk. -/
def turn (source : ConfigSource) (declared : Entries String) (w : Walk) : Turn :=
  let (next, now) := askBase source declared w.current
  match next with
  | .error e => .over (w.asked ++ now) (.error e)
  | .ok none => .over (w.asked ++ now) (.ok w.links)
  | .ok (some base) =>
    if base ∈ w.links then
      .over (w.asked ++ now) (.error (.circularInheritance (w.links ++ [base])))
    else if source.contains base then .on ⟨w.links ++ [base], base, w.asked ++ now⟩
    else .over (w.asked ++ now) (.error (.configuration (.baseWithoutDirectory w.current base)))

/-- A turn leads from a state of the walk to the next. -/
def Goes (source : ConfigSource) (declared : Entries String) (w w' : Walk) : Prop :=
  w.turn source declared = .on w'

/-- Some turns lead from a state of the walk to another. -/
abbrev Reaches (source : ConfigSource) (declared : Entries String) : Walk → Walk → Prop :=
  Relation.ReflTransGen (Goes source declared)

end Walk

/-- A turn goes on if the current experiment names one that is there and is not a link yet. -/
theorem turn_eq_on_iff {w w' : Walk} :
    w.turn source declared = .on w' ↔
      ∃ base, PointsTo source declared w.current base ∧ base ∉ w.links ∧
        source.contains base = true ∧
        w' = ⟨w.links ++ [base], base, w.asked ++ (askBase source declared w.current).2⟩ := by
  simp only [Walk.turn, PointsTo, askBase_eq, @eq_comm _ w']
  rcases nextBase source declared w.current with e | _ | base
  · simp
  · simp
  · by_cases hmem : base ∈ w.links <;> by_cases hthere : source.contains base = true <;>
      simp [hmem, hthere]

/-- A turn that is the last one ends the walk at the current experiment. -/
theorem turn_eq_over_iff {w : Walk} :
    w.turn source declared = .over asked answer ↔
      asked = w.asked ++ (askBase source declared w.current).2 ∧
        Ends source declared w.links w.current answer := by
  constructor
  · intro h
    rw [Walk.turn, askBase_eq] at h
    rcases hnext : nextBase source declared w.current with e | _ | base <;>
      simp only [hnext] at h
    · cases h
      exact ⟨by rw [askBase_eq], .unread hnext⟩
    · cases h
      exact ⟨by rw [askBase_eq], .root hnext⟩
    · split at h
      next hmem =>
        cases h
        exact ⟨by rw [askBase_eq], .again hnext hmem⟩
      next hnew =>
        split at h
        · cases h
        next hgone =>
          cases h
          exact ⟨by rw [askBase_eq], .missing hnext hnew (Bool.eq_false_iff.2 hgone)⟩
  · rintro ⟨rfl, hends⟩
    rw [Walk.turn, askBase_eq]
    cases hends with
    | root hroot => simp only [hroot]
    | unread hunread => simp only [hunread]
    | again hbase hmem => simp only [show nextBase _ _ _ = _ from hbase, if_pos hmem]
    | missing hbase hnew hgone =>
      simp only [show nextBase _ _ _ = _ from hbase, if_neg hnew, hgone, Bool.false_eq_true,
        if_false]

/-- The loop is made of turns. -/
theorem chainFrom_succ (fuel : Nat) (w : Walk) :
    chainFrom source declared (fuel + 1) w.links w.current =
      match w.turn source declared with
      | .on w' => chainFrom source declared fuel w'.links w'.current
      | .over _ answer => answer := by
  rw [chainFrom, Walk.turn, askBase_eq]
  rcases nextBase source declared w.current with e | _ | base
  · rfl
  · rfl
  · by_cases hmem : base ∈ w.links <;> by_cases hthere : source.contains base = true <;>
      simp [hmem, hthere]

/-! ### The whole walk -/

/-- What holds before each turn: the links are a route to the current experiment, and the source has
been asked for the bases of the links before it, except where one is declared. -/
structure Walk.Along (source : ConfigSource) (declared : Entries String) (experiment : String)
    (w : Walk) : Prop where
  route : Route source declared experiment w.links
  current : w.links.getLast? = some w.current
  asked : w.asked = w.links.dropLast.filter fun link => (declared.find? link).isNone

namespace Walk.Along

variable {w w' : Walk}

theorem nextAfter_iff (h : w.Along source declared experiment)
    {next : Except Error (Option String)} :
    NextAfter source declared w.links next ↔ nextBase source declared w.current = next := by
  rw [NextAfter, h.current]
  simp

theorem eq_concat (h : w.Along source declared experiment) :
    w.links = w.links.dropLast ++ [w.current] := by
  rw [List.dropLast_append_getLast? _ h.current]

/-- The links for whose base the source has been asked after a turn. -/
theorem asked_turn (h : w.Along source declared experiment) :
    w.asked ++ (askBase source declared w.current).2 =
      w.links.filter fun link => (declared.find? link).isNone := by
  conv_rhs => rw [h.eq_concat]
  rw [List.filter_append, h.asked, askBase_eq]

theorem start (h : source.contains experiment = true) :
    (Walk.start experiment).Along source declared experiment :=
  ⟨route_start h, rfl, rfl⟩

/-- A turn that goes on leads from a route to one with one link more. -/
theorem goes (h : w.Along source declared experiment) (hgoes : w.Goes source declared w') :
    w'.Along source declared experiment := by
  obtain ⟨base, hbase, hnew, hthere, rfl⟩ := turn_eq_on_iff.1 hgoes
  refine ⟨h.route.concat (h.nextAfter_iff.2 hbase) hnew hthere, by simp, ?_⟩
  rw [h.asked_turn, List.dropLast_concat]

/-- The state of the walk is along the experiment's bases at every turn. -/
theorem of_reaches (h : source.contains experiment = true)
    (hreach : Walk.Reaches source declared (Walk.start experiment) w) :
    w.Along source declared experiment := by
  induction hreach with
  | refl => exact start h
  | tail _ hgoes ih => exact ih.goes hgoes

end Walk.Along

/-- The walk from an experiment ends with an answer, after the source has been asked for the bases
of these experiments. -/
def Walked (source : ConfigSource) (declared : Entries String) (experiment : String)
    (asked : List String) (answer : Except Error (List String)) : Prop :=
  ∃ w, Walk.Reaches source declared (Walk.start experiment) w ∧
    w.turn source declared = .over asked answer

/-- A turn has one outcome, so the walk has one end. -/
theorem Walked.unique {asked' : List String} {answer' : Except Error (List String)}
    (h : Walked source declared experiment asked answer)
    (h' : Walked source declared experiment asked' answer') :
    asked' = asked ∧ answer' = answer := by
  have hunique : Relator.RightUnique (Walk.Goes source declared) := fun _ _ _ h h' =>
    Turn.on.inj (h.symm.trans h')
  have hstuck : ∀ {w w' : Walk} {asked answer}, w.turn source declared = .over asked answer →
      Walk.Reaches source declared w w' → w' = w := by
    intro w w' asked answer hover hreach
    rcases hreach.cases_head with rfl | ⟨next, hgoes, -⟩
    · rfl
    · cases hover.symm.trans hgoes
  obtain ⟨w, hreach, hover⟩ := h
  obtain ⟨w', hreach', hover'⟩ := h'
  have hsame : w' = w := by
    rcases Relation.ReflTransGen.total_of_right_unique hunique hreach hreach' with h | h
    · exact hstuck hover h
    · exact (hstuck hover' h).symm
  subst hsame
  exact Turn.over.inj (hover'.symm.trans hover)

/-- From every state of the walk some turns lead to the end, with the answer of the loop that goes
on there. -/
theorem exists_over (hbound : source.Bounded) : ∀ {fuel : Nat} {w : Walk},
    w.Along source declared experiment →
      source.bound + declared.length + 2 ≤ fuel + w.links.length →
      ∃ w' asked, Walk.Reaches source declared w w' ∧
        w'.turn source declared = .over asked (chainFrom source declared fuel w.links w.current)
  | 0, w, h, hfuel => by
    have hlength := h.route.length_le hbound
    omega
  | fuel + 1, w, h, hfuel => by
    rw [chainFrom_succ]
    rcases hturn : w.turn source declared with next | ⟨asked, answer⟩
    · have hlength : next.links.length = w.links.length + 1 := by
        obtain ⟨base, -, -, -, rfl⟩ := turn_eq_on_iff.1 hturn
        exact List.length_append
      have hfuel' : source.bound + declared.length + 2 ≤ fuel + next.links.length := by omega
      obtain ⟨w', asked, hreach, hover⟩ := exists_over hbound (h.goes hturn) hfuel'
      exact ⟨w', asked, hreach.head hturn, hover⟩
    · exact ⟨w, asked, .refl, hturn⟩

/-- The walk from an experiment ends, with its chain or the failure to find one. -/
theorem walked_chainOf (declared : Entries String) (hbound : source.Bounded)
    (hthere : source.contains experiment = true) :
    ∃ asked, Walked source declared experiment asked (chainOf source declared experiment) := by
  have hstart : (Walk.start experiment).Along source declared experiment := .start hthere
  obtain ⟨w, asked, hreach, hover⟩ := exists_over hbound hstart (Nat.le_succ _)
  refine ⟨asked, w, hreach, ?_⟩
  rw [chainOf, if_pos hthere]
  exact hover

/-- The source is asked for the bases of the links of a route for which no base is declared. -/
theorem Walked.asked_eq (h : Walked source declared experiment asked answer)
    (hthere : source.contains experiment = true) :
    ∃ visited, Route source declared experiment visited ∧
      asked = visited.filter fun link => (declared.find? link).isNone := by
  obtain ⟨w, hreach, hover⟩ := h
  have halong := Walk.Along.of_reaches hthere hreach
  exact ⟨w.links, halong.route, (turn_eq_over_iff.1 hover).1.trans halong.asked_turn⟩

/-! ### Reading the answer off a route -/

/-- The walk comes along every route. -/
theorem reaches_of_route {links : List String} (h : Route source declared experiment links) :
    ∃ w, Walk.Reaches source declared (Walk.start experiment) w ∧ w.links = links := by
  induction links using List.reverseRecOn with
  | nil => exact absurd rfl h.ne_nil
  | append_singleton front base ih =>
    by_cases hne : front = []
    · subst hne
      obtain rfl : base = experiment := by simpa using h.starts
      exact ⟨Walk.start base, .refl, rfl⟩
    · obtain ⟨hfront, hnext, hnew, hthere⟩ := h.of_concat hne
      obtain ⟨w, hreach, rfl⟩ := ih hfront
      have halong := Walk.Along.of_reaches (hfront.contains_start) hreach
      exact ⟨_, hreach.tail (turn_eq_on_iff.2
        ⟨base, halong.nextAfter_iff.1 hnext, hnew, hthere, rfl⟩), rfl⟩

/-- The answer is one with which a walk along a route can end. -/
theorem chainOf_eq_iff (hbound : source.Bounded) (hthere : source.contains experiment = true) :
    chainOf source declared experiment = answer ↔
      ∃ links last, Route source declared experiment links ∧ links.getLast? = some last ∧
        Ends source declared links last answer := by
  obtain ⟨asked, hwalked⟩ := walked_chainOf declared hbound hthere
  constructor
  · rintro rfl
    obtain ⟨w, hreach, hover⟩ := hwalked
    have halong := Walk.Along.of_reaches hthere hreach
    exact ⟨w.links, w.current, halong.route, halong.current, (turn_eq_over_iff.1 hover).2⟩
  · rintro ⟨links, last, hroute, hlast, hends⟩
    obtain ⟨w, hreach, rfl⟩ := reaches_of_route hroute
    have hcurrent := (Walk.Along.of_reaches hthere hreach).current
    obtain rfl : w.current = last := Option.some.inj (hcurrent.symm.trans hlast)
    exact (hwalked.unique ⟨w, hreach, turn_eq_over_iff.2 ⟨rfl, hends⟩⟩).2.symm

/-- The walk succeeds with the route that has a root. -/
theorem chainOf_eq_ok_iff (hbound : source.Bounded) (hthere : source.contains experiment = true) :
    chainOf source declared experiment = .ok links ↔
      Route source declared experiment links ∧ NextAfter source declared links (.ok none) := by
  rw [chainOf_eq_iff hbound hthere]
  constructor
  · rintro ⟨links, last, hroute, hlast, hends⟩
    cases hends with
    | root hroot => exact ⟨hroute, last, hlast, hroot⟩
  · rintro ⟨hroute, last, hlast, hroot⟩
    exact ⟨links, last, hroute, hlast, .root hroot⟩

/-- The walk fails with a circuit, or with a failure of the source that looks like one. -/
theorem chainOf_eq_circular_iff (hbound : source.Bounded)
    (hthere : source.contains experiment = true) {cycle : List String} :
    chainOf source declared experiment = .error (.circularInheritance cycle) ↔
      Circuit source declared experiment cycle ∨
        ∃ links, Route source declared experiment links ∧
          NextAfter source declared links (.error (.circularInheritance cycle)) := by
  rw [chainOf_eq_iff hbound hthere]
  constructor
  · rintro ⟨links, last, hroute, hlast, hends⟩
    cases hends with
    | unread hunread => exact .inr ⟨links, hroute, last, hlast, hunread⟩
    | again hbase hmem => exact .inl ⟨links, _, rfl, hroute, ⟨last, hlast, hbase⟩, hmem⟩
  · rintro (⟨links, base, rfl, hroute, ⟨last, hlast, hbase⟩, hmem⟩ |
      ⟨links, hroute, last, hlast, hunread⟩)
    · exact ⟨links, last, hroute, hlast, .again hbase hmem⟩
    · exact ⟨links, last, hroute, hlast, .unread hunread⟩

/-- A chain that is not remembered is looked for. -/
theorem answer_chain {r : Resolver} (hnew : r.chains.lookup experiment = none) :
    (outcome (chain source experiment) r).1 = chainOf source r.declared experiment := by
  rw [outcome_chain, hnew]
  rcases chainOf source r.declared experiment with e | links <;> rfl

/-- On disk a walk fails like this exactly with a circuit. -/
theorem answer_ofTree_eq_circular_iff {t : FileTree} {root : String} {r : Resolver}
    (hnew : r.chains.lookup experiment = none)
    (hthere : (ConfigSource.ofTree t root).contains experiment = true) {cycle : List String} :
    (outcome (chain (ConfigSource.ofTree t root) experiment) r).1 =
        .error (.circularInheritance cycle) ↔
      Circuit (ConfigSource.ofTree t root) r.declared experiment cycle := by
  have hread : ¬ ∃ links, Route (ConfigSource.ofTree t root) r.declared experiment links ∧
      NextAfter (ConfigSource.ofTree t root) r.declared links
        (.error (.circularInheritance cycle)) := by
    rintro ⟨links, -, last, -, hnext⟩
    rw [nextBase] at hnext
    split at hnext
    · cases hnext
    · cases ConfigSource.errsOnly_baseIn t root last _ hnext
  rw [answer_chain hnew, chainOf_eq_circular_iff (ConfigSource.bounded_ofTree t root) hthere,
    or_iff_left hread]

/-- The walk from an experiment along the bases, by a resolver that does not remember its chain.

Without the experiment it fails. With it the walk ends, in one way, and the source is asked for the
base of each experiment at most once, and only where none is declared. The chain is the route whose
last link has no base, if there is one. The failure with a circular chain shows a route with the
base of its last link, one of its links, behind it, and it occurs wherever there is such a route.
Only a source that itself answers with a failure of this kind makes the walk fail like that in
another place. -/
theorem chain_walk (hbound : source.Bounded) {r : Resolver}
    (hnew : r.chains.lookup experiment = none) :
    (source.contains experiment = false →
      (outcome (chain source experiment) r).1 =
        .error (.configuration (.noConfigDirectory experiment))) ∧
    (source.contains experiment = true → ∃ asked answer,
      (outcome (chain source experiment) r).1 = answer ∧
      (∀ asked' answer', Walked source r.declared experiment asked' answer' ↔
        asked' = asked ∧ answer' = answer) ∧
      (∃ visited, Route source r.declared experiment visited ∧
        asked = visited.filter fun link => (r.declared.find? link).isNone) ∧
      asked.Nodup ∧
      (∀ links, answer = .ok links ↔
        Route source r.declared experiment links ∧
          NextAfter source r.declared links (.ok none)) ∧
      ∀ cycle, answer = .error (.circularInheritance cycle) ↔
        Circuit source r.declared experiment cycle ∨
          ∃ links, Route source r.declared experiment links ∧
            NextAfter source r.declared links (.error (.circularInheritance cycle))) := by
  rw [answer_chain hnew]
  refine ⟨fun hgone => by rw [chainOf, hgone, if_neg (by simp)], fun hthere => ?_⟩
  obtain ⟨asked, hwalked⟩ := walked_chainOf r.declared hbound hthere
  obtain ⟨visited, hroute, hasked⟩ := hwalked.asked_eq hthere
  refine ⟨asked, _, rfl, fun asked' answer' => ⟨hwalked.unique, ?_⟩, ⟨visited, hroute, hasked⟩,
    ?_, fun links => ?_, fun cycle => ?_⟩
  · rintro ⟨rfl, rfl⟩
    exact hwalked
  · rw [hasked]
    exact hroute.distinct.filter _
  · exact chainOf_eq_ok_iff hbound hthere
  · exact chainOf_eq_circular_iff hbound hthere

/-- Four experiments: `a` builds on `b`, `b` on `c` and `c` on `d`. -/
def fourExperiments : ConfigSource :=
  let experiment (base : String) : Node :=
    .dir [("experiment.yaml", .file ("base_config: " ++ base ++ "\n").toUTF8 false)]
  ConfigSource.ofTree
    { entries := [("config", .dir
        [("a", experiment "b"), ("b", experiment "c"), ("c", experiment "d"), ("d", .dir [])])] }
    "config"

/-- With `b` declared as the base of `c`, the walk from `a` comes back to `b`. -/
theorem circular_of_declared_base :
    fourExperiments.Bounded ∧
      (outcome (chain fourExperiments "a") { declared := [("c", "b")] }).1 =
        .error (.circularInheritance ["a", "b", "c", "b"]) ∧
      ∃ asked, asked.Nodup ∧ Walked fourExperiments [("c", "b")] "a" asked
        (.error (.circularInheritance ["a", "b", "c", "b"])) := by
  have hrun : fourExperiments.contains "a" ∧ fourExperiments.contains "b" ∧
      fourExperiments.contains "c" ∧
      (nextBase fourExperiments [("c", "b")] "a").toOption = some (some "b") ∧
      (nextBase fourExperiments [("c", "b")] "b").toOption = some (some "c") ∧
      (nextBase fourExperiments [("c", "b")] "c").toOption = some (some "b") := by
    decide +kernel
  obtain ⟨ha, hb, hc, hab, hbc, hcb⟩ := hrun
  have hroute : Route fourExperiments [("c", "b")] "a" ["a", "b", "c"] :=
    ⟨rfl, by simp [PointsTo, eq_ok_of_toOption hab, eq_ok_of_toOption hbc],
      by simp [ha, hb, hc], by decide⟩
  have hcircuit : Circuit fourExperiments [("c", "b")] "a" ["a", "b", "c", "b"] :=
    ⟨["a", "b", "c"], "b", rfl, hroute, ⟨"c", rfl, eq_ok_of_toOption hcb⟩, by decide⟩
  have hbounded : fourExperiments.Bounded := ConfigSource.bounded_ofTree _ _
  have hnew : ({ declared := [("c", "b")] } : Resolver).chains.lookup "a" = none := rfl
  obtain ⟨asked, answer, hanswer, hwalked, -, hnodup, -, hcircular⟩ :=
    (chain_walk hbounded hnew).2 ha
  obtain rfl := (hcircular _).2 (.inl hcircuit)
  exact ⟨hbounded, hanswer, asked, hnodup, (hwalked _ _).2 ⟨rfl, rfl⟩⟩

end Resolver

end ParamSweep
