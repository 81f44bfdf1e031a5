import TypedTables.Proofs.Round.Parts
import TypedTables.Proofs.Round.Run

namespace TypedTables.Round

def tableProblems (fs : FileSystem) (config : Config) (built : List (Entity × EntityModel)) :
    Diagnostics :=
  built.flatMap (fun p => partProblems fs config p.1 p.2) ++
    (shares config [] built).flatMap (fun s =>
      Diagnostics.ofNotices (s.notices (packagesOf built)))

variable [OverrideLanguage] {fs : FileSystem} {config : Config} {target : Target}
  {entities : List Entity}

theorem ofNotices_models {schema : Schema} {cache : SourceCache} (hcache : cache.Faithful fs)
    {notices : List Notice} {built : List (Entity × EntityModel)}
    (h : models fs config ⟨fs, config.templateDir, []⟩ schema cache entities =
      (notices, .ok built)) :
    Diagnostics.ofNotices notices = built.flatMap (fun p => partProblems fs config p.1 p.2) := by
  obtain ⟨model, hmodel⟩ := exists_model hcache (congrArg Prod.snd h)
  obtain ⟨hbuilt, htold⟩ := models_of_parts hcache hmodel
  rw [h] at hbuilt htold
  obtain rfl := Except.ok.inj hbuilt
  rw [htold, List.flatMap_map]

theorem ofNotices_generateTables {tables : Tables}
    (h : (generateTables fs config target entities).result = .ok tables) :
    ∃ built, built.map Prod.fst = entities ∧ tables.models = built.map Prod.snd ∧
      (∀ p ∈ built, BuiltFrom fs config (Schema.build entities) p.1 p.2) ∧
      Diagnostics.ofNotices (generateTables fs config target entities).notices =
        tableProblems fs config built := by
  obtain ⟨notices, built, files, hmodels, hexecute, rfl, hnotices⟩ := generateTables_ok h
  obtain ⟨horder, hbuilt, -⟩ := models_ok hmodels
  have htold := (execute_ok hexecute).2
  refine ⟨built, horder, rfl, hbuilt, ?_⟩
  rw [hnotices, Diagnostics.ofNotices_append, Diagnostics.ofNotices_append,
    ofNotices_openingNotices, List.nil_append, executed, htold, steps_eq_flatMap, told_flatMap,
    ofNotices_models (.nil fs) hmodels, tableProblems, Diagnostics.ofNotices_flatMap]
  simp only [Share.told_steps]

structure ToldFrom (fs : FileSystem) (config : Config) (markers : List (String × List Entity))
    (r : RoundResult) (built : List (Entity × EntityModel)) (added : Diagnostics) : Prop where
  entities : built.map Prod.fst = tableEntities config markers
  models : r.models = built.map Prod.snd
  made : ∀ p ∈ built, BuiltFrom fs config (Schema.build (tableEntities config markers)) p.1 p.2
  told : ∃ earlier later, (∀ x, x ∈ earlier ++ later ↔ x ∈ markers ∧ x.1 ≠ config.tableMarker) ∧
    added = unexpectedWarnings earlier ++ tableProblems fs config built ++ unexpectedWarnings later

theorem run_told {before : Diagnostics} {markers : List (String × List Entity)} {r : RoundResult}
    (hkeys : (markers.map Prod.fst).Nodup)
    (h : (Round.run fs config target before markers).result = .ok r) :
    ∃ built added, r.diagnostics = before ++ added ∧
      ToldFrom fs config markers r built added := by
  obtain ⟨tables, earlier, later, htables, hmodels, -, hdiagnostics, hmarkers⟩ :=
    exists_tables_of_run hkeys h
  obtain ⟨built, horder, hbuilt, hmade, hproblems⟩ := ofNotices_generateTables htables
  rw [hproblems] at hdiagnostics
  exact ⟨built, _, hdiagnostics, horder, hmodels.trans hbuilt, hmade, earlier, later, hmarkers,
    rfl⟩

end TypedTables.Round
