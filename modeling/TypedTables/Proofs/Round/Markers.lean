import TypedTables.Proofs.Diagnostics
import TypedTables.Round

namespace TypedTables.Round

def unexpectedWarning (marker : String) : Diagnostic :=
  ⟨.warning, s!"Unexpected marker: {marker}", none, none⟩

def unexpectedWarnings (markers : List (String × List Entity)) : Diagnostics :=
  markers.map (fun x => unexpectedWarning x.1)

theorem ofNotices_unexpectedMarker (marker : String) (rest : List Notice) :
    Diagnostics.ofNotices (unexpectedMarker marker :: rest) =
      unexpectedWarning marker :: Diagnostics.ofNotices rest := rfl

def unexpectedNotices (markers : List (String × List Entity)) : List Notice :=
  markers.map (fun x => unexpectedMarker x.1)

theorem ofNotices_unexpectedNotices (markers : List (String × List Entity)) :
    Diagnostics.ofNotices (unexpectedNotices markers) = unexpectedWarnings markers := by
  induction markers with
  | nil => rfl
  | cons x markers ih => exact congrArg (unexpectedWarning x.1 :: ·) ih

section

variable [OverrideLanguage] {fs : FileSystem} {config : Config} {target : Target}
  {markers before after : List (String × List Entity)}

theorem runMarkers_cons_other {marker : String} (entities : List Entity)
    (h : marker ≠ config.tableMarker) :
    runMarkers fs config target ((marker, entities) :: markers) =
      { runMarkers fs config target markers with
        notices := unexpectedMarker marker :: (runMarkers fs config target markers).notices } := by
  rw [runMarkers, if_neg h]

theorem runMarkers_cons_table {fs' : FileSystem} {entities : List Entity} {notices : List Notice}
    {tables : Tables} (h : generateTables fs config target entities = ⟨fs', notices, .ok tables⟩) :
    runMarkers fs config target ((config.tableMarker, entities) :: markers) =
      { runMarkers fs' config target markers with
        notices := notices ++ (runMarkers fs' config target markers).notices
        result := (runMarkers fs' config target markers).result.map
          (fun last => some (last.getD tables)) } := by
  rw [runMarkers, if_pos rfl, h]

theorem exists_tables_of_ok {entities : List Entity} {tables? : Option Tables}
    (h : (runMarkers fs config target ((config.tableMarker, entities) :: markers)).result =
      .ok tables?) :
    ∃ fs' notices tables,
      generateTables fs config target entities = ⟨fs', notices, .ok tables⟩ := by
  rcases hdone : generateTables fs config target entities with ⟨fs', notices, result⟩
  cases result with
  | error e => simp [runMarkers, hdone] at h
  | ok tables => exact ⟨fs', notices, tables, rfl⟩

theorem exists_generateTables {tables : Tables}
    (h : (runMarkers fs config target markers).result = .ok (some tables)) :
    ∃ fs' entities, (generateTables fs' config target entities).result = .ok tables := by
  induction markers generalizing fs tables with
  | nil => cases h
  | cons x markers ih =>
      obtain ⟨marker, entities⟩ := x
      by_cases hmarker : marker = config.tableMarker
      · subst hmarker
        obtain ⟨fs', notices, first, hdone⟩ := exists_tables_of_ok h
        rw [runMarkers_cons_table hdone] at h
        cases hrest : (runMarkers fs' config target markers).result with
        | error e => simp [hrest, Except.map] at h
        | ok last =>
            cases last with
            | none =>
                obtain rfl : first = tables := by simpa [hrest, Except.map] using h
                exact ⟨fs, entities, by rw [hdone]⟩
            | some last =>
                obtain rfl : last = tables := by simpa [hrest, Except.map] using h
                exact ih hrest
      · rw [runMarkers_cons_other entities hmarker] at h
        exact ih h

/-- What every entry of a round brings about, and what composes from one entry to the next, is
brought about by the whole of them. -/
theorem runMarkers_composed {P : FileSystem → FileSystem → List Notice → Prop}
    (nil : ∀ fs, P fs fs [])
    (trans : ∀ {fs fs' fs'' xs ys}, P fs fs' xs → P fs' fs'' ys → P fs fs'' (xs ++ ys))
    (other : ∀ fs marker, P fs fs [unexpectedMarker marker])
    (table : ∀ fs, ∀ x ∈ markers, x.1 = config.tableMarker →
      P fs (generateTables fs config target x.2).fs (generateTables fs config target x.2).notices)
    (fs : FileSystem) :
    P fs (runMarkers fs config target markers).fs
      (runMarkers fs config target markers).notices := by
  induction markers generalizing fs with
  | nil => exact nil fs
  | cons x markers ih =>
      obtain ⟨marker, entities⟩ := x
      have hrest := ih fun fs x hx => table fs x (List.mem_cons_of_mem _ hx)
      by_cases hmarker : marker = config.tableMarker
      · have hfirst := table fs (marker, entities) List.mem_cons_self hmarker
        subst hmarker
        rcases hdone : generateTables fs config target entities with ⟨fs', notices, result⟩
        simp only [hdone] at hfirst
        cases result with
        | error e =>
            rw [runMarkers, if_pos rfl, hdone]
            exact hfirst
        | ok tables =>
            rw [runMarkers_cons_table hdone]
            exact trans hfirst (hrest fs')
      · rw [runMarkers_cons_other entities hmarker]
        exact trans (other fs marker) (hrest fs)

theorem runMarkers_others (fs : FileSystem) (target : Target)
    (h : ∀ x ∈ markers, x.1 ≠ config.tableMarker) :
    runMarkers fs config target markers = ⟨fs, unexpectedNotices markers, .ok none⟩ := by
  induction markers with
  | nil => rfl
  | cons x markers ih =>
      obtain ⟨marker, entities⟩ := x
      obtain ⟨hmarker, hrest⟩ := List.forall_mem_cons.mp h
      rw [runMarkers_cons_other entities hmarker, ih hrest]
      rfl

theorem runMarkers_other (fs : FileSystem) (target : Target)
    (h : ∀ x ∈ markers, x.1 ≠ config.tableMarker) :
    (runMarkers fs config target markers).result = .ok none ∧
      Diagnostics.ofNotices (runMarkers fs config target markers).notices =
        unexpectedWarnings markers := by
  rw [runMarkers_others fs target h]
  exact ⟨rfl, ofNotices_unexpectedNotices markers⟩

/-- A round is that of the entities of the table marker, with the warnings of all other markers
around it. It ends where these entities fail. -/
theorem runMarkers_around (fs : FileSystem) (target : Target) (entities : List Entity)
    (hbefore : ∀ x ∈ before, x.1 ≠ config.tableMarker)
    (hafter : ∀ x ∈ after, x.1 ≠ config.tableMarker) :
    runMarkers fs config target (before ++ (config.tableMarker, entities) :: after) =
      let done := generateTables fs config target entities
      let behind := if done.result.isOk then unexpectedNotices after else []
      ⟨done.fs, unexpectedNotices before ++ done.notices ++ behind, done.result.map some⟩ := by
  induction before with
  | nil =>
      rcases hdone : generateTables fs config target entities with ⟨fs', notices, result⟩
      cases result with
      | error e =>
          simp [runMarkers, hdone, unexpectedNotices, Except.isOk, Except.toBool, Except.map]
      | ok tables =>
          rw [List.nil_append, runMarkers_cons_table hdone, runMarkers_others fs' target hafter]
          rfl
  | cons x before ih =>
      obtain ⟨marker, others⟩ := x
      obtain ⟨hmarker, hrest⟩ := List.forall_mem_cons.mp hbefore
      rw [List.cons_append, runMarkers_cons_other others hmarker, ih hrest]
      rfl

theorem runMarkers_table (fs : FileSystem) (target : Target) (entities : List Entity)
    (hbefore : ∀ x ∈ before, x.1 ≠ config.tableMarker)
    (hafter : ∀ x ∈ after, x.1 ≠ config.tableMarker) :
    (runMarkers fs config target (before ++ (config.tableMarker, entities) :: after)).result =
        (generateTables fs config target entities).result.map some ∧
      ∀ tables, (generateTables fs config target entities).result = .ok tables →
        Diagnostics.ofNotices (runMarkers fs config target
          (before ++ (config.tableMarker, entities) :: after)).notices =
            unexpectedWarnings before ++
              Diagnostics.ofNotices (generateTables fs config target entities).notices ++
                unexpectedWarnings after := by
  rw [runMarkers_around fs target entities hbefore hafter]
  refine ⟨rfl, ?_⟩
  intro tables htables
  simp [htables, Except.isOk, Except.toBool, ofNotices_unexpectedNotices]

/-- A marker that is not the table marker adds a warning to a round and changes nothing else. -/
theorem runMarkers_insert {marker : String} {entities : List Entity} {tables? : Option Tables}
    (hmarker : marker ≠ config.tableMarker)
    (h : (runMarkers fs config target (before ++ (marker, entities) :: after)).result =
      .ok tables?) :
    (runMarkers fs config target (before ++ after)).result = .ok tables? ∧
      (runMarkers fs config target (before ++ after)).fs =
        (runMarkers fs config target (before ++ (marker, entities) :: after)).fs ∧
      ∃ xs ys, (runMarkers fs config target (before ++ after)).notices = xs ++ ys ∧
        (runMarkers fs config target (before ++ (marker, entities) :: after)).notices =
          xs ++ unexpectedMarker marker :: ys := by
  induction before generalizing fs tables? with
  | nil =>
      simp only [List.nil_append] at h ⊢
      rw [runMarkers_cons_other entities hmarker] at h ⊢
      exact ⟨h, rfl, [], _, rfl, rfl⟩
  | cons x before ih =>
      obtain ⟨name, others⟩ := x
      simp only [List.cons_append] at h ⊢
      by_cases hname : name = config.tableMarker
      · subst hname
        obtain ⟨fs', notices, tables, hdone⟩ := exists_tables_of_ok h
        rw [runMarkers_cons_table hdone] at h ⊢
        rw [runMarkers_cons_table hdone]
        cases hrest : (runMarkers fs' config target (before ++ (marker, entities) :: after)).result
          with
        | error e => simp [hrest, Except.map] at h
        | ok last =>
            obtain ⟨hresult, hfs, xs, ys, hshort, hlong⟩ := ih hrest
            simp only [hrest] at h
            simp only [hresult, hfs, hshort, hlong]
            exact ⟨h, trivial, notices ++ xs, ys, by simp, by simp⟩
      · rw [runMarkers_cons_other others hname] at h ⊢
        rw [runMarkers_cons_other others hname]
        obtain ⟨hresult, hfs, xs, ys, hshort, hlong⟩ := ih h
        exact ⟨hresult, hfs, unexpectedMarker name :: xs, ys, by simp [hshort], by simp [hlong]⟩

end

end TypedTables.Round
