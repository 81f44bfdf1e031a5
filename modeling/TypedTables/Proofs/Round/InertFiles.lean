import TypedTables.Proofs.InertModules
import TypedTables.Proofs.Round.RegularModels

namespace TypedTables.Round

open Text Source

variable {fs : FileSystem} {config : Config} {target : Target} {before : Diagnostics}
  {markers : List (String × List Entity)} {r : RoundResult}

theorem BuiltFrom.named [OverrideLanguage] {entities : List Entity}
    (hnamed : ∀ e ∈ entities, e.ProperNames) {e : Entity} (he : e ∈ entities) {m : EntityModel}
    (h : BuiltFrom fs config (Schema.build entities) e m)
    (hcolumns : ∀ c ∈ m.columns, ¬ (c.type = .unsupported ∨ c.name ∈ reservedFieldNames)) :
    m.Named where
  entity := by
    rw [h.entity]
    exact (hnamed e he).className.capitalize
  entity_ne := by
    rw [h.entity]
    exact capitalize_ne_class e.simpleName
  columns := by
    intro c hc
    refine ⟨h.regular_columns hnamed he hcolumns c hc, fun target htarget => ?_⟩
    obtain ⟨cache, heq⟩ := h.columns
    rw [Column.ofEntity_eq] at heq
    rw [heq, Column.ofFields] at hc
    obtain ⟨i, hi, rfl⟩ := List.mem_mapIdx.mp hc
    obtain ⟨e', -, hname⟩ := exists_target hnamed htarget
    rw [hname]
    exact capitalize_ne_class e'.simpleName

theorem unmarked_empty : Unmarked [] :=
  @unmarked_of_passes "" ⟨.noSign, rfl, by simp⟩

/-- No file that a round generates has a marked class. -/
theorem run_unmarked [OverrideLanguage] (hkeys : (markers.map Prod.fst).Nodup)
    (hnamed : ∀ e ∈ tableEntities config markers, e.ProperNames)
    (h : (Round.run fs config target before markers).result = .ok r) (hok : r.failed = false)
    (hnone : Unoverridden (Round.run fs config target before markers).fs config) :
    ∀ f ∈ r.files, Unmarked (Utf8.encode f.content) := by
  obtain ⟨hstart, hfiles⟩ := run_standard hkeys h hnone
  intro f hf
  obtain ⟨m, hm, a, ha, hstandard⟩ := hfiles f hf
  obtain ⟨e, he, hbuilt, hcolumns⟩ := run_faultless hkeys h hok m hm
  have hmethods := hbuilt.standardMethods hstart
  exact unmarked_of_passes (hstandard.passes (hbuilt.named hnamed he hcolumns) hmethods ha)

end TypedTables.Round
