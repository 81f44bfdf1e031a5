import TypedTables.Proofs.Round.Parts
import TypedTables.Proofs.Round.Run

/-!
Models before files. A round builds the models of all its entities from the file system that it
finds, and only then executes its plan; so an entity without a model leaves every file as it is,
wherever it stands among the others.
-/

namespace TypedTables

namespace Round

def TellsNoFile (notices : List Notice) : Prop :=
  ∀ notice ∈ notices, notice.record.source ≠ .output

namespace TellsNoFile

theorem nil : TellsNoFile [] := nofun

theorem cons {notice : Notice} {notices : List Notice} (h : notice.record.source ≠ .output)
    (hrest : TellsNoFile notices) : TellsNoFile (notice :: notices) :=
  List.forall_mem_cons.mpr ⟨h, hrest⟩

theorem append {xs ys : List Notice} (hxs : TellsNoFile xs) (hys : TellsNoFile ys) :
    TellsNoFile (xs ++ ys) :=
  List.forall_mem_append.mpr ⟨hxs, hys⟩

theorem flatMap {α : Type} {f : α → List Notice} (h : ∀ x, TellsNoFile (f x)) (xs : List α) :
    TellsNoFile (xs.flatMap f) := by
  intro notice hnotice
  obtain ⟨x, -, hmem⟩ := List.mem_flatMap.mp hnotice
  exact h x notice hmem

theorem map {α : Type} {f : α → Notice} (h : ∀ x, (f x).record.source ≠ .output) (xs : List α) :
    TellsNoFile (xs.map f) :=
  List.forall_mem_map.mpr fun x _ => h x

theorem ite {notices : List Notice} (b : Bool) (h : TellsNoFile notices) :
    TellsNoFile (if b then notices else []) := by
  cases b
  · exact nil
  · exact h

theorem problem (d : Diagnostic) : TellsNoFile [.problem d] :=
  cons (by simp [Notice.record, Diagnostic.record]) nil

theorem sourceOf (fs : FileSystem) (cache : SourceCache) (path : Path) :
    TellsNoFile (FieldOrder.sourceOf fs cache path).2.1 := by
  rw [FieldOrder.sourceOf]
  split
  · exact nil
  · split
    · exact nil
    · rename_i record hread
      rw [Source.statementsAt?] at hread
      split at hread
      · cases hread
      · obtain rfl := Except.error.inj hread
        exact cons (by simp [Notice.record, Source.unreadableRecord]) nil

theorem recovered (e : Entity) (positions : Option (List (String × Nat))) :
    TellsNoFile (FieldOrder.recovered e positions).2 := by
  rw [FieldOrder.recovered.eq_def]
  split
  · exact problem _
  · dsimp only
    split
    · exact nil
    · exact problem _

theorem sort (fs : FileSystem) (cache : SourceCache) (e : Entity) :
    TellsNoFile (FieldOrder.sort fs cache e).2.1 := by
  rw [FieldOrder.sort]
  split
  · exact nil
  · split
    · exact nil
    · refine append ?_ (recovered e _)
      rw [FieldOrder.recoveredPositions]
      split
      · exact nil
      · split
        · exact nil
        · exact sourceOf fs cache _

theorem columnNotices (e : Entity) (c : Column) : TellsNoFile (columnNotices e c) := by
  rw [Round.columnNotices]
  refine append ?_ ?_ <;> split
  · exact nil
  · exact problem _
  · exact problem _
  · exact nil

theorem targetPackage (e : Entity) (rule : PackageRule) :
    TellsNoFile (e.targetPackage rule).2 := by
  rw [Entity.targetPackage]
  split
  · exact nil
  · rw [PackageRule.fallbackNotice]
    dsimp only
    split <;> exact problem _

theorem models [OverrideLanguage] (fs : FileSystem) (config : Config) (r : Renderer)
    (schema : Schema) (cache : SourceCache) (entities : List Entity) :
    TellsNoFile (models fs config r schema cache entities).1 := by
  induction entities generalizing cache with
  | nil => exact nil
  | cons e entities ih =>
      have hown : TellsNoFile ((Column.ofEntity fs schema cache e).2.1 ++
          modelNotice e (Column.ofEntity fs schema cache e).1 ::
            (Column.ofEntity fs schema cache e).1.flatMap (Round.columnNotices e) ++
          (e.targetPackage config.packageRule).2) :=
        ((sort fs cache e).append (cons (by simp [modelNotice, Notice.info, Notice.record])
          (flatMap (columnNotices e) _))).append
          (targetPackage e _)
      rw [Round.models]
      dsimp only
      split
      · exact hown
      · exact hown.append (ih _)

theorem schemaNotices (entities : List Entity) : TellsNoFile (Schema.notices entities) :=
  map (fun _ => by simp [Notice.info, Notice.record]) entities

theorem unexpectedNotices (markers : List (String × List Entity)) :
    TellsNoFile (unexpectedNotices markers) :=
  map (fun _ => by simp [unexpectedMarker, Notice.warning, Notice.record, Diagnostic.record])
    markers

theorem failureNotices (ds : Diagnostics) : TellsNoFile (failureNotices ds) := by
  rw [Round.failureNotices]
  split
  · exact cons nofun nil
  · exact nil

end TellsNoFile

theorem TellsNoFile.openingNotices (entities : List Entity) :
    TellsNoFile (openingNotices entities) :=
  cons (by simp [Notice.info, Notice.record]) (schemaNotices entities)

section

variable [OverrideLanguage] {fs : FileSystem} {config : Config} {entities : List Entity}

/-- How a round ends at the first of its entities that has no model. -/
structure EndsUnbuilt (fs : FileSystem) (model : Entity → Except RenderError EntityModel)
    (entities : List Entity) (done : Outcome RoundResult) : Prop where
  result : ∃ earlier e later error, entities = earlier ++ e :: later ∧
    (∀ x ∈ earlier, ∃ m, model x = .ok m) ∧ model e = .error error ∧
    done.result = .error (.render error)
  unchanged : done.fs = fs
  notices : TellsNoFile done.notices

/-- How a round goes on when its entities have models. Execution begins with the files that the
round began with, and all that is told of models comes before all that is told of files. -/
structure Proceeds (fs : FileSystem) (config : Config) (target : Target)
    (model : Entity → Except RenderError EntityModel) (entities : List Entity)
    (built : List (Entity × EntityModel)) (done : Outcome RoundResult) : Prop where
  entities : built.map Prod.fst = entities
  models : ∀ p ∈ built, model p.1 = .ok p.2
  result : done.result.map RoundResult.files = (executed fs config target built).result
  left : done.fs = (executed fs config target built).fs
  notices : ∃ told behind,
    done.notices = told ++ (executed fs config target built).notices ++ behind ∧
    TellsNoFile told ∧ TellsNoFile behind ∧ ∀ p ∈ built, modelNotice p.1 p.2.columns ∈ told

theorem exists_notices_run (fs : FileSystem) (config : Config) (target : Target)
    (before : Diagnostics) (markers : List (String × List Entity)) :
    ∃ behind, (Round.run fs config target before markers).notices =
      (runMarkers fs config target markers).notices ++ behind ∧ TellsNoFile behind := by
  rw [Round.run]
  split
  · exact ⟨[], by simp, .nil⟩
  · exact ⟨_, rfl, .failureNotices _⟩

theorem run_cases (fs : FileSystem) (config : Config) (target : Target) (before : Diagnostics)
    {markers : List (String × List Entity)} (hkeys : (markers.map Prod.fst).Nodup)
    (htables : tableEntities config markers = entities) :
    EndsUnbuilt fs (modelOf fs config (Schema.build entities)) entities
        (Round.run fs config target before markers) ∨
      ∃ built, Proceeds fs config target (modelOf fs config (Schema.build entities)) entities built
        (Round.run fs config target before markers) := by
  have hresult := run_result fs config target before markers
  have hfs := fs_run fs config target before markers
  obtain ⟨last, hnotices, hlast⟩ := exists_notices_run fs config target before markers
  rcases Keyed.exists_split_of_nodup hkeys config.tableMarker with
    hnone | ⟨pre, tables, post, rfl, hpre, hpost, hlook⟩
  · obtain rfl : [] = entities := (tableEntities_of_others hnone).symm.trans htables
    rw [runMarkers_others fs target hnone] at hresult hfs hnotices
    refine .inr ⟨[], rfl, nofun, ?_, hfs, unexpectedNotices markers, last, ?_,
      .unexpectedNotices markers, hlast, nofun⟩
    · rw [hresult]
      rfl
    · rw [hnotices]
      exact (congrArg (· ++ last) (List.append_nil _)).symm
  · obtain rfl : tables = entities := (tableEntities_of_lookup hlook).symm.trans htables
    rw [runMarkers_around fs target tables hpre hpost] at hresult hfs hnotices
    have hothers : TellsNoFile
        (if (generateTables fs config target tables).result.isOk then unexpectedNotices post
          else []) := .ite _ (.unexpectedNotices post)
    have htold := TellsNoFile.models fs config ⟨fs, config.templateDir, []⟩ (Schema.build tables) []
      tables
    rcases models_cases config (Schema.build tables) tables (.nil fs) with
      ⟨told, built, hmodels, hentities, hbuilt⟩ |
      ⟨told, earlier, e, later, error, hmodels, hentities, hearlier, herror⟩
    · rw [generateTables_of_built target hmodels] at hresult hfs hnotices hothers
      rw [hmodels] at htold
      refine .inr ⟨built, hentities, fun p hp => (hbuilt p hp).1, ?_, hfs,
        unexpectedNotices pre ++ (openingNotices tables ++ told), _, ?_,
        .append (.unexpectedNotices pre) (.append (.openingNotices tables) htold),
        .append hothers hlast, ?_⟩
      · rw [hresult]
        cases (executed fs config target built).result <;> rfl
      · rw [hnotices]
        simp only [List.append_assoc]
      · intro p hp
        simp [(hbuilt p hp).2]
    · rw [generateTables_of_error target hmodels] at hresult hfs hnotices
      rw [hmodels] at htold
      refine .inl ⟨⟨earlier, e, later, error, hentities, hearlier, herror, hresult⟩, hfs, ?_⟩
      rw [hnotices]
      exact .append (.append (.append (.unexpectedNotices pre)
        (.append (.openingNotices tables) htold)) .nil) hlast

/-- An entity without a model ends its round before anything is written, whatever entities precede
it. A round that writes has the models of all its entities by then. -/
theorem models_before_files (fs : FileSystem) (config : Config) (target : Target)
    (before : Diagnostics) {markers : List (String × List Entity)}
    (hkeys : (markers.map Prod.fst).Nodup) :
    let entities := tableEntities config markers
    let model := modelOf fs config (Schema.build entities)
    let done := Round.run fs config target before markers
    ((∃ e ∈ entities, ∃ error, model e = .error error) → EndsUnbuilt fs model entities done) ∧
      ((∀ e ∈ entities, ∃ m, model e = .ok m) →
        ∃ built, Proceeds fs config target model entities built done) := by
  intro entities model done
  constructor
  · rintro ⟨e, he, error, herror⟩
    rcases run_cases fs config target before hkeys rfl with hends | ⟨built, hproceeds⟩
    · exact hends
    · have hbuilt : e ∈ built.map Prod.fst := by
        rw [hproceeds.entities]
        exact he
      obtain ⟨p, hp, rfl⟩ := List.mem_map.mp hbuilt
      exact absurd (herror.symm.trans (hproceeds.models p hp)) nofun
  · intro hall
    rcases run_cases fs config target before hkeys rfl with hends | hproceeds
    · obtain ⟨earlier, e, later, error, hentities, -, herror, -⟩ := hends.result
      have he : e ∈ tableEntities config markers := by simp [hentities]
      obtain ⟨m, hm⟩ := hall e he
      exact absurd (herror.symm.trans hm) nofun
    · exact hproceeds

end

def shelter : FileSystem :=
  ⟨.dir [("templates", .dir [("table_add.py.j2", .file (Text.Utf8.encode
    ("\x7b% if entity == \"Cat\" %\x7d\x7b\x7b owner \x7d\x7d\x7b% endif %\x7d" ++
      "# \x7b\x7b entity \x7d\x7d")))])], [], []⟩

abbrev shelterLanguage : OverrideLanguage where
  fill _ _ context :=
    match context.lookup "entity" with
    | some (.text name) =>
        if name = "Cat" then .error (.undefinedName "owner") else .ok ("# " ++ name)
    | _ => .error (.undefinedName "entity")

def shelterConfig : Config := { templateDir := some "templates" }

def shelterMarkers : List (String × List Entity) :=
  let entity (name : String) : Entity :=
    ⟨"zoo." ++ name, name, [⟨.packageScope, "zoo"⟩], [], none⟩
  [("tablegen.markers.table", [entity "Dog", entity "Cat", entity "Owl"])]

theorem models_before_files_shelter :
    (shelterMarkers.map Prod.fst).Nodup ∧
      EndsUnbuilt shelter
        (@modelOf shelterLanguage shelter shelterConfig
          (Schema.build (tableEntities shelterConfig shelterMarkers)))
        (tableEntities shelterConfig shelterMarkers)
        (@Round.run shelterLanguage shelter shelterConfig
          (some ⟨Path.ofText "generated", true, []⟩) [] shelterMarkers) := by
  have hkeys : (shelterMarkers.map Prod.fst).Nodup := by decide
  have hcat : ∃ e ∈ tableEntities shelterConfig shelterMarkers,
      @modelOf shelterLanguage shelter shelterConfig
        (Schema.build (tableEntities shelterConfig shelterMarkers)) e =
          .error (.undefinedName "owner") := by
    decide +kernel
  obtain ⟨e, he, herror⟩ := hcat
  exact ⟨hkeys, (@models_before_files shelterLanguage shelter shelterConfig
    (some ⟨Path.ofText "generated", true, []⟩) [] shelterMarkers hkeys).1 ⟨e, he, _, herror⟩⟩

end Round

end TypedTables
