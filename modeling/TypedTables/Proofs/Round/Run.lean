import TypedTables.Proofs.Keyed
import TypedTables.Proofs.Round.Markers
import TypedTables.Proofs.Round.Ownership

/-!
Whole rounds. A round that completes is made of the entities of the table marker, and its problems
are those before it, those of its tables, and the warnings of all other markers.
-/

namespace TypedTables.Round

def tableEntities (config : Config) (markers : List (String × List Entity)) : List Entity :=
  (markers.lookup config.tableMarker).getD []

theorem tableEntities_of_others {config : Config} {markers : List (String × List Entity)}
    (h : ∀ x ∈ markers, x.1 ≠ config.tableMarker) : tableEntities config markers = [] := by
  have hlook : markers.lookup config.tableMarker = none := by
    rw [List.lookup_eq_none_iff]
    intro entry hentry
    simpa using Ne.symm (h entry hentry)
  rw [tableEntities, hlook]
  rfl

theorem tableEntities_of_lookup {config : Config} {markers : List (String × List Entity)}
    {entities : List Entity} (h : markers.lookup config.tableMarker = some entities) :
    tableEntities config markers = entities := by
  rw [tableEntities, h]
  rfl

def resultOf (tables? : Option Tables) (problems : Diagnostics) : RoundResult where
  schema := tables?.map Tables.schema
  models := (tables?.map Tables.models).getD []
  files := (tables?.map Tables.files).getD []
  diagnostics := problems

theorem errors_unexpectedWarnings (markers : List (String × List Entity)) :
    (unexpectedWarnings markers).errors = [] := by
  rw [Diagnostics.errors, List.filter_eq_nil_iff]
  intro d hd
  obtain ⟨x, -, rfl⟩ := List.mem_map.mp hd
  simp [unexpectedWarning]

section

variable [OverrideLanguage] {fs : FileSystem} {config : Config} {target : Target}
  {before : Diagnostics} {markers : List (String × List Entity)} {r : RoundResult}

theorem run_result (fs : FileSystem) (config : Config) (target : Target)
    (before : Diagnostics) (markers : List (String × List Entity)) :
    (Round.run fs config target before markers).result =
      (runMarkers fs config target markers).result.map (fun tables? => resultOf tables?
        (before ++ Diagnostics.ofNotices (runMarkers fs config target markers).notices)) := by
  rw [Round.run]
  cases (runMarkers fs config target markers).result <;> rfl

theorem fs_run (fs : FileSystem) (config : Config) (target : Target)
    (before : Diagnostics) (markers : List (String × List Entity)) :
    (Round.run fs config target before markers).fs = (runMarkers fs config target markers).fs := by
  rw [Round.run]
  split <;> rfl

theorem run_ok (h : (Round.run fs config target before markers).result = .ok r) :
    ∃ tables? : Option Tables, (runMarkers fs config target markers).result = .ok tables? ∧
      r = resultOf tables?
        (before ++ Diagnostics.ofNotices (runMarkers fs config target markers).notices) := by
  rw [run_result] at h
  cases hresult : (runMarkers fs config target markers).result with
  | error e => simp [hresult, Except.map] at h
  | ok tables? =>
      rw [hresult] at h
      exact ⟨tables?, rfl, (Except.ok.inj h).symm⟩

/-- A completed round is that of the entities of its table marker, of none if it has no such marker.
The warnings of its other markers stand around the problems of these entities. -/
theorem exists_tables_of_run (hkeys : (markers.map Prod.fst).Nodup)
    (h : (Round.run fs config target before markers).result = .ok r) :
    ∃ tables earlier later,
      (generateTables fs config target (tableEntities config markers)).result = .ok tables ∧
      r.models = tables.models ∧ r.files = tables.files ∧
      r.diagnostics = before ++ (unexpectedWarnings earlier ++
        Diagnostics.ofNotices
          (generateTables fs config target (tableEntities config markers)).notices ++
        unexpectedWarnings later) ∧
      ∀ x, x ∈ earlier ++ later ↔ x ∈ markers ∧ x.1 ≠ config.tableMarker := by
  obtain ⟨tables?, hmarkers, rfl⟩ := run_ok h
  rcases Keyed.exists_split_of_nodup hkeys config.tableMarker with
    hnone | ⟨pre, entities, post, rfl, hpre, hpost, hlook⟩
  · obtain ⟨hresult, hnotices⟩ := runMarkers_other fs target hnone
    obtain rfl : none = tables? := Except.ok.inj (hresult.symm.trans hmarkers)
    have hentities := tableEntities_of_others hnone
    refine ⟨⟨Schema.build [], [], []⟩, markers, [], ?_, rfl, rfl, ?_, ?_⟩
    · rw [hentities]
      rfl
    · have hproblems :
          Diagnostics.ofNotices (generateTables fs config target []).notices = [] := rfl
      rw [hentities, hproblems, hnotices, resultOf]
      simp [unexpectedWarnings]
    · intro x
      rw [List.append_nil]
      exact ⟨fun hx => ⟨hx, hnone x hx⟩, And.left⟩
  · obtain ⟨hresult, hnotices⟩ := runMarkers_table fs target entities hpre hpost
    have hentities := tableEntities_of_lookup hlook
    rw [hmarkers] at hresult
    cases htables : (generateTables fs config target entities).result with
    | error e => simp [htables, Except.map] at hresult
    | ok tables =>
        obtain rfl : tables? = some tables := by simpa [htables, Except.map] using hresult
        rw [hentities, hnotices tables htables]
        exact ⟨tables, pre, post, htables, rfl, rfl, rfl, by grind⟩

theorem run_madeOf (hkeys : (markers.map Prod.fst).Nodup)
    (h : (Round.run fs config target before markers).result = .ok r) :
    ∃ tables problems built cs earlier later,
      MadeOf fs config target (tableEntities config markers) tables problems built cs ∧
      r.models = tables.models ∧ r.files = tables.files ∧
      r.diagnostics = before ++ (unexpectedWarnings earlier ++ problems ++
        unexpectedWarnings later) := by
  obtain ⟨tables, earlier, later, htables, hmodels, hfiles, hdiagnostics, -⟩ :=
    exists_tables_of_run hkeys h
  obtain ⟨built, cs, hmade⟩ := madeOf_ok htables
  exact ⟨tables, _, built, cs, earlier, later, hmade, hmodels, hfiles, hdiagnostics⟩

/-- The entities of a round with their models and files. An entity has no files exactly if one of
them has the place of a file of an earlier entity. -/
structure Accounts (fs : FileSystem) (config : Config) (markers : List (String × List Entity))
    (r : RoundResult) (cs : List Contribution) : Prop where
  entities : cs.map (fun c => c.entity) = tableEntities config markers
  built : ∀ c ∈ cs, BuiltFrom fs config (Schema.build (tableEntities config markers)) c.entity
    c.model
  models : cs.map (fun c => c.model) = r.models
  files : cs.flatMap (fun c => c.files) = r.files
  skipped : ∀ before c after, cs = before ++ c :: after →
    (c.files = [] ↔ ∃ o ∈ before, o.Holds config c)

theorem MadeOf.accounts {tables : Tables} {problems : Diagnostics}
    {built : List (Entity × EntityModel)} {cs : List Contribution}
    (h : MadeOf fs config target (tableEntities config markers) tables problems built cs)
    (hmodels : r.models = tables.models) (hfiles : r.files = tables.files) :
    Accounts fs config markers r cs := by
  have hpairs := h.pairs
  constructor
  case entities =>
    rw [← h.order, ← hpairs, List.map_map]
    rfl
  case built =>
    intro c hc
    exact h.models (c.entity, c.model) (hpairs ▸ List.mem_map_of_mem hc)
  case models =>
    rw [hmodels, h.tables, ← hpairs, List.map_map]
    rfl
  case files =>
    rw [hfiles, h.tables]
  case skipped =>
    intro before c after hc
    exact files_eq_nil_iff_held h.shares h.complete hc

end

end TypedTables.Round
