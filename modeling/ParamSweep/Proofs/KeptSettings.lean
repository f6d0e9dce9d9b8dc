import ParamSweep.Proofs.ReadDocuments
import ParamSweep.Proofs.ResolverHistory

/-!
Which settings of a file its document has.

A file with neither `format` nor `data` at its top level is all settings, and each of them is kept:
as it is written, or merged with what the documents of the bases have under its key. Of any other
file only the two entries are read, and what stands beside them goes without an error
(`not_kept_beside_data`). So no setting is lost exactly as long as nothing stands beside the two
(`settings_of_tryResolve`).
-/

namespace ParamSweep

/-- A tree that is shallow further down is shallow further up. -/
theorem Value.shallow_of_deeper {v : Value} {depth : Nat} (h : v.shallow (depth + 1) = true) :
    v.shallow depth = true := by
  rw [shallow_iff] at h ⊢
  intro level w hw
  have hdeeper := h level w hw
  omega

namespace Document

variable {file key : String} {entries : Entries Value}

/-- A file is bare if it has neither `format` nor `data` at its top level. -/
def isBare (entries : Entries Value) : Bool :=
  !Entries.contains "format" entries && !Entries.contains "data" entries

/-- The settings that are read from a file. -/
def settings (entries : Entries Value) : Entries Value :=
  if isBare entries then entries
  else ((entries.find? "data").bind Value.asMapping?).getD []

/-- Only a text, or nothing, names a format. -/
theorem format_of_formatOf {entry : Option Value} {format : Option String}
    (h : formatOf file entry = .ok format) :
    entry = none ∨ entry = some .null ∨ ∃ s, entry = some (.str s) := by
  rw [formatOf.eq_def] at h
  split at h
  · exact Or.inl rfl
  · exact Or.inr (Or.inl rfl)
  next s => exact Or.inr (Or.inr ⟨s, rfl⟩)
  · cases h

/-- Only a mapping, or nothing, is data. -/
theorem data_of_dataOf {entry : Option Value} {data : Value} (h : dataOf file entry = .ok data) :
    (entry = none ∨ entry = some .null ∨ ∃ t, entry = some (.mapping t)) ∧
      data = .mapping ((entry.bind Value.asMapping?).getD []) := by
  rw [dataOf.eq_def] at h
  split at h
  · cases h
    exact ⟨Or.inl rfl, rfl⟩
  · cases h
    exact ⟨Or.inr (Or.inl rfl), rfl⟩
  next t =>
    cases h
    exact ⟨Or.inr (Or.inr ⟨t, rfl⟩), rfl⟩
  · cases h

/-- A file that can be read as a document: a mapping, whose format is a text and whose data is a
mapping if they are there. -/
structure IsForm (entries : Entries Value) : Prop where
  format : entries.find? "format" = none ∨ entries.find? "format" = some .null ∨
    ∃ s, entries.find? "format" = some (.str s)
  data : entries.find? "data" = none ∨ entries.find? "data" = some .null ∨
    ∃ t, entries.find? "data" = some (.mapping t)

theorem ofValue_ok {v : Value} {layer : Document} (h : ofValue file v = .ok layer) :
    ∃ entries, v = .mapping entries ∧ IsForm entries ∧
      layer.data = .mapping (settings entries) := by
  cases v with
  | mapping entries =>
    refine ⟨entries, rfl, ?_⟩
    rw [ofValue] at h
    split at h
    next hbare =>
      cases h
      obtain ⟨hformat, hdata⟩ := Bool.and_eq_true_iff.1 hbare
      simp only [Entries.contains, Bool.not_eq_true', Option.isSome_eq_false_iff,
        Option.isNone_iff_eq_none] at hformat hdata
      exact ⟨⟨Or.inl hformat, Or.inl hdata⟩, congrArg Value.mapping (if_pos hbare).symm⟩
    next hform =>
      obtain ⟨format, hformat, h⟩ := except_bind_ok h
      obtain ⟨data, hdata, h⟩ := except_bind_ok h
      cases h
      obtain ⟨hkind, rfl⟩ := data_of_dataOf hdata
      exact ⟨⟨format_of_formatOf hformat, hkind⟩, congrArg Value.mapping (if_neg hform).symm⟩
  | _ => cases h

theorem nodup_settings (h : (Value.mapping entries).Sorted) : (settings entries).keys.Nodup := by
  obtain ⟨hascending, hbelow⟩ := Value.sorted_mapping_iff.1 h
  rw [settings]
  split
  · exact hascending.nodup_keys
  · rcases hdata : entries.find? "data" with _ | (_ | _ | _ | _ | _ | t)
    case some.mapping =>
      exact (Value.sorted_mapping_iff.1 (hbelow "data" _ hdata)).1.nodup_keys
    all_goals exact List.nodup_nil

end Document

namespace Resolver

variable {source : ConfigSource} {declared : Entries String} {calls : List Call}
  {experiment file key : String} {below : Option Document} {doc : Document}

/-- What a setting becomes: it stays as it is written, or it is merged with what is below it. -/
def keptSetting : Option Value → Value → Except Error Value
  | none, value => .ok value
  | some below, value => merged below value

/-- What a document has under a key, with a layer of settings laid over the documents of the
bases. -/
structure LaidSettings (below : Option Document) (settings : Entries Value) (doc : Document) :
    Prop where
  /-- A setting of the layer is kept. -/
  kept : ∀ {key value}, settings.find? key = some value →
    ∃ v, keptSetting (below.bind (·.data.get? key)) value = .ok v ∧ doc.data.get? key = some v
  /-- Where the layer has none, the document has what the bases have. -/
  left : ∀ {key}, settings.find? key = none →
    doc.data.get? key = below.bind (·.data.get? key)

theorem laidSettings_of_laidOver {layer : Document} {found : Option Document}
    {settings : Entries Value} (hdata : layer.data = .mapping settings)
    (hnodup : settings.keys.Nodup) (h : laidOver below (some layer) = .ok found) :
    ∃ doc, found = some doc ∧ LaidSettings below settings doc := by
  cases below with
  | none =>
    cases h
    refine ⟨layer, rfl, fun {key value} hvalue => ⟨value, rfl, ?_⟩, fun {key} hnone => ?_⟩
    · rw [hdata]
      exact hvalue
    · rw [hdata]
      exact hnone
  | some below =>
    obtain ⟨doc, hdoc, rfl⟩ := except_map_ok h
    obtain ⟨tree, htree, hdoc⟩ := except_bind_ok hdoc
    cases hdoc
    rw [hdata] at htree
    obtain ⟨hshallow, rfl⟩ := merged_eq_ok_iff.1 htree
    refine ⟨_, rfl, fun {key value} hvalue => ?_, fun {key} hnone => ?_⟩
    · rw [Value.shallow, Bool.and_eq_true, Value.shallowEntries_iff] at hshallow
      have hvalueShallow : value.shallow 0 = true :=
        Value.shallow_of_deeper (hshallow.2 _ (Entries.mem_of_find? hvalue))
      simp only [Value.get?_laid hnodup, hvalue, Option.bind_some]
      cases below.data.get? key with
      | none => exact ⟨value, rfl, rfl⟩
      | some under => exact ⟨under.laid value, merged_eq_ok_iff.2 ⟨hvalueShallow, rfl⟩, rfl⟩
    · simp only [Value.get?_laid hnodup, hnone, Option.bind_some]
      cases below.data.get? key <;> rfl

theorem cons_of_chainOf {links : List String} (h : chainOf source declared experiment = .ok links) :
    ∃ rest, links = experiment :: rest := by
  rw [chainOf] at h
  split at h
  · obtain ⟨rest, rfl, -⟩ := chainFrom_ok h
    exact ⟨rest, rfl⟩
  · cases h

/-- What becomes of the entries of an experiment's own file, when its document resolves after any
calls on the resolver.

The file is a mapping whose format and data can be read, or there would be an error. Its settings
are laid over the document that the bases in the chain have. In a bare file all entries are
settings, so each is in the document, as it is written or merged with what the bases have under its
key. Beside `format` or `data` nothing is a setting; there the document has under a key that `data`
does not have only what the bases have. -/
theorem settings_of_tryResolve {raw : Value} {found : Option Document}
    (hraw : source.load experiment file = .ok (some raw)) (hsorted : raw.Sorted)
    (hfound : answerAfter source declared calls experiment (.tryResolve file) =
      .ok (.found found)) :
    ∃ (entries : Entries Value) (doc : Document) (links : List String) (below : Option Document),
      raw = .mapping entries ∧ Document.IsForm entries ∧ found = some doc ∧
      afresh (basesFor source declared calls experiment) (chain source experiment) =
        .ok (experiment :: links) ∧
      layered source file links = .ok below ∧
      LaidSettings below (Document.settings entries) doc ∧
      ((Document.isBare entries = true ∨ ∀ key ∈ entries.keys, key = "format" ∨ key = "data") →
        ∀ key value, entries.find? key = some value → key ≠ "format" → key ≠ "data" →
          ∃ v, keptSetting (below.bind (·.data.get? key)) value = .ok v ∧
            doc.data.get? key = some v) := by
  have hdocument : documentOf source (basesFor source declared calls experiment) experiment file =
      .ok found := by
    rw [answerAfter, (answers_ask experiment (.tryResolve file)).answer
      ((remembers_fresh source declared).after calls).sound] at hfound
    obtain ⟨answer, hanswer, heq⟩ := except_bind_ok hfound
    cases heq
    exact hanswer
  obtain ⟨chain, hchain, hlayered⟩ := except_bind_ok hdocument
  obtain ⟨links, rfl⟩ := cons_of_chainOf hchain
  rw [layered_cons] at hlayered
  obtain ⟨below, hbelow, hlayered⟩ := except_bind_ok hlayered
  obtain ⟨layer, hlayer, hlaid⟩ := except_bind_ok hlayered
  rw [layerOf, hraw] at hlayer
  obtain ⟨own, hown, rfl⟩ := except_map_ok hlayer
  obtain ⟨entries, rfl, hform, hdata⟩ := Document.ofValue_ok (mapError_ok hown)
  obtain ⟨doc, rfl, hsettings⟩ :=
    laidSettings_of_laidOver hdata (Document.nodup_settings hsorted) hlaid
  refine ⟨entries, doc, links, below, rfl, hform, rfl, ?_, hbelow, hsettings, ?_⟩
  · rw [(answers_chain _).afresh]
    exact hchain
  · rintro (hbare | hnoStray) key value hvalue hformat hdata
    · refine hsettings.kept ?_
      rw [Document.settings, if_pos hbare]
      exact hvalue
    · have hkey := hnoStray key (Entries.mem_keys_iff.2 ⟨value, hvalue⟩)
      exact absurd hkey (not_or.2 ⟨hformat, hdata⟩)

/-- The document in an answer to the question for the document of a file. -/
def Reply.found? : Reply → Option Document
  | .found doc => doc
  | _ => none

theorem ok_of_found? {answer : Except Error Reply} {p : Document → Bool}
    (h : (answer.toOption.bind Reply.found?).any p = true) :
    ∃ doc, answer = .ok (.found (some doc)) ∧ p doc = true := by
  obtain ⟨doc, hdoc, hp⟩ := (Option.any_eq_true _ _).1 h
  obtain ⟨reply, hreply, hfound⟩ := Option.bind_eq_some_iff.1 hdoc
  cases reply with
  | found found =>
    cases hfound
    exact ⟨doc, eq_ok_of_toOption hreply, hp⟩
  | _ => cases hfound

/-- A bare file of `e`, and a file of `b` with a format and data; both have the section `s`. -/
def sectionSource : ConfigSource :=
  ConfigSource.ofTree
    { entries :=
        [("config", .dir
          [("b", .dir [("in", .dir
            [("run.yaml", .file "format: f\ndata:\n  s:\n    x: 1\n".toUTF8 false)])]),
           ("e", .dir [("in", .dir
            [("run.yaml", .file "s:\n  y: 2\nt: 5\n".toUTF8 false)])])])] }
    "config"

/-- Once `b` is declared as the base of `e`, both sections of the bare file are in its document. -/
theorem settings_of_bare_file :
    ∃ raw doc, sectionSource.load "e" "run.yaml" = .ok (some raw) ∧ raw.Sorted ∧
      answerAfter sectionSource [] [.declareBase "e" "b"] "e" (.tryResolve "run.yaml") =
        .ok (.found (some doc)) ∧
      ∀ key ∈ ["s", "t"], (raw.get? key).isSome ∧ ∃ below value v, raw.get? key = some value ∧
        keptSetting below value = .ok v ∧ doc.data.get? key = some v := by
  have hrun : ((sectionSource.load "e" "run.yaml").toOption.join.any fun raw =>
        (raw.asMapping?.any Document.isBare) && ["s", "t"].all fun key => (raw.get? key).isSome) =
          true ∧
      ((answerAfter sectionSource [] [.declareBase "e" "b"] "e"
        (.tryResolve "run.yaml")).toOption.bind Reply.found?).any (fun _ => true) = true := by
    decide +kernel
  obtain ⟨hload, hanswer⟩ := hrun
  obtain ⟨raw, hraw, hkeys⟩ := (Option.any_eq_true _ _).1 hload
  have hraw := eq_ok_of_toOption (Option.join_eq_some_iff.1 hraw)
  obtain ⟨doc, hdoc, -⟩ := ok_of_found? hanswer
  have hsorted := ConfigSource.sorted_load hraw
  obtain ⟨entries, doc', links, below, rfl, -, heq, -, -, -, hkept⟩ :=
    settings_of_tryResolve hraw hsorted hdoc
  cases heq
  obtain ⟨hbare, hkeys⟩ := Bool.and_eq_true_iff.1 hkeys
  have hplain : ∀ key ∈ ["s", "t"], key ≠ "format" ∧ key ≠ "data" := by decide
  refine ⟨_, doc, hraw, hsorted, hdoc, fun key hkey => ?_⟩
  have hsome := List.all_eq_true.1 hkeys key hkey
  obtain ⟨value, hvalue⟩ := Option.isSome_iff_exists.1 hsome
  obtain ⟨hformat, hdata⟩ := hplain key hkey
  obtain ⟨v, hv, hfound⟩ := hkept (Or.inl hbare) key value hvalue hformat hdata
  exact ⟨hsome, _, value, v, hvalue, hv, hfound⟩

/-- A file with a format, data, and a setting beside them. -/
def straySource : ConfigSource :=
  ConfigSource.ofTree
    { entries :=
        [("config", .dir
          [("e", .dir [("in", .dir
            [("run.yaml", .file "format: yaml\ndata:\n  a: 1\nb: 2\n".toUTF8 false)])])])] }
    "config"

/-- The setting that stands beside `data` is not in the document, and nothing is reported. -/
theorem not_kept_beside_data :
    ¬ ∀ (source : ConfigSource) (declared : Entries String) (calls : List Call)
        (experiment file : String) (raw : Value) (doc : Document),
      source.load experiment file = .ok (some raw) → raw.Sorted →
      answerAfter source declared calls experiment (.tryResolve file) = .ok (.found (some doc)) →
        ∀ key value, raw.get? key = some value → key ≠ "format" → key ≠ "data" →
          ∃ v, doc.data.get? key = some v := by
  intro hclaim
  have hrun : ((straySource.load "e" "run.yaml").toOption.join.any
        fun raw => (raw.get? "b").isSome) = true ∧
      ((answerAfter straySource [] [] "e" (.tryResolve "run.yaml")).toOption.bind
        Reply.found?).any (fun doc => (doc.data.get? "b").isNone) = true := by
    decide +kernel
  obtain ⟨hload, hanswer⟩ := hrun
  obtain ⟨raw, hraw, hsome⟩ := (Option.any_eq_true _ _).1 hload
  obtain ⟨value, hvalue⟩ := Option.isSome_iff_exists.1 hsome
  have hraw := eq_ok_of_toOption (Option.join_eq_some_iff.1 hraw)
  obtain ⟨doc, hdoc, hnone⟩ := ok_of_found? hanswer
  obtain ⟨v, hv⟩ := hclaim straySource [] [] "e" "run.yaml" raw doc hraw
    (ConfigSource.sorted_load hraw) hdoc "b" value hvalue (by decide) (by decide)
  rw [hv] at hnone
  cases hnone

end Resolver

end ParamSweep
