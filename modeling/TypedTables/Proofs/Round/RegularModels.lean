import TypedTables.Proofs.ModuleScope
import TypedTables.Proofs.Round.StandardTemplates

namespace TypedTables.Round

variable [OverrideLanguage] {fs : FileSystem} {config : Config} {target : Target}
  {before : Diagnostics} {markers : List (String × List Entity)} {r : RoundResult}

theorem BuiltFrom.regular_columns {entities : List Entity}
    (hnamed : ∀ e ∈ entities, e.ProperNames) {e : Entity} (he : e ∈ entities) {m : EntityModel}
    (h : BuiltFrom fs config (Schema.build entities) e m)
    (hcolumns : ∀ c ∈ m.columns, ¬ (c.type = .unsupported ∨ c.name ∈ reservedFieldNames)) :
    ∀ c ∈ m.columns, c.Regular := by
  obtain ⟨cache, heq⟩ := h.columns
  rw [Column.ofEntity_eq] at heq
  intro c hc
  obtain ⟨hsupported, hfree⟩ := not_or.mp (hcolumns c hc)
  rw [heq, Column.ofFields] at hc
  obtain ⟨i, hi, rfl⟩ := List.mem_mapIdx.mp hc
  have hfield := (FieldOrder.perm_sort fs cache e).mem_iff.mp (List.getElem_mem hi)
  exact Column.regular_ofField hnamed ((hnamed e he).fieldNames _ hfield) hsupported hfree

theorem BuiltFrom.regular {entities : List Entity} (hnamed : ∀ e ∈ entities, e.WellNamed)
    {e : Entity} (he : e ∈ entities) {m : EntityModel}
    (h : BuiltFrom fs config (Schema.build entities) e m)
    (hcolumns : ∀ c ∈ m.columns, ¬ (c.type = .unsupported ∨ c.name ∈ reservedFieldNames)) :
    m.Regular where
  entity := by
    rw [h.entity]
    exact (hnamed e he).className.capitalize
  columns := h.regular_columns (fun e he => (hnamed e he).properNames) he hcolumns
  distinct := by
    obtain ⟨cache, heq⟩ := h.columns
    have hperm := FieldOrder.perm_sort fs cache e
    rw [Column.ofEntity_eq] at heq
    rw [heq, Column.map_name_ofFields, (hperm.map Field.name).nodup_iff]
    exact (hnamed e he).distinct

/-- In a round without errors code can be generated for each column. -/
theorem run_faultless (hkeys : (markers.map Prod.fst).Nodup)
    (h : (Round.run fs config target before markers).result = .ok r) (hok : r.failed = false) :
    ∀ m ∈ r.models, ∃ e ∈ tableEntities config markers,
      BuiltFrom fs config (Schema.build (tableEntities config markers)) e m ∧
        ∀ c ∈ m.columns, ¬ (c.type = .unsupported ∨ c.name ∈ reservedFieldNames) := by
  obtain ⟨tables, problems, built, cs, earlier, later, hmade, hmodels, hfiles, hdiagnostics⟩ :=
    run_madeOf hkeys h
  have haccounts := hmade.accounts hmodels hfiles
  have herrors : r.diagnostics.errors = [] := by
    rw [RoundResult.failed, ← Bool.not_eq_true, Diagnostics.hasErrors_iff, not_not] at hok
    exact hok
  have hfaults : faults config cs = [] := by
    rw [hdiagnostics, Diagnostics.errors_append, Diagnostics.errors_append,
      Diagnostics.errors_append, hmade.errors_eq_faults, List.append_eq_nil_iff,
      List.append_eq_nil_iff, List.append_eq_nil_iff] at herrors
    exact List.map_eq_nil_iff.mp herrors.2.1.2
  intro m hm
  rw [← haccounts.models] at hm
  obtain ⟨c, hc, rfl⟩ := List.mem_map.mp hm
  have he : c.entity ∈ tableEntities config markers := by
    rw [← haccounts.entities]
    exact List.mem_map_of_mem hc
  have hfaultless := faults_eq_nil.mp hfaults c hc
  exact ⟨c.entity, he, haccounts.built c hc,
    fun column hcolumn hfault => hfaultless (.inl ⟨column, hcolumn, hfault⟩)⟩

theorem run_regular (hkeys : (markers.map Prod.fst).Nodup)
    (hnamed : ∀ e ∈ tableEntities config markers, e.WellNamed)
    (h : (Round.run fs config target before markers).result = .ok r) (hok : r.failed = false)
    (hnone : Unoverridden fs config) : ∀ m ∈ r.models, m.Regular ∧ StandardMethods m := by
  intro m hm
  obtain ⟨e, he, hbuilt, hcolumns⟩ := run_faultless hkeys h hok m hm
  exact ⟨hbuilt.regular hnamed he hcolumns, hbuilt.standardMethods hnone⟩

end TypedTables.Round
