import TypedTables.Proofs.Round.Faults
import TypedTables.Proofs.SourceCache

/-!
The parts of a dry round. The model of an entity depends on the others only through the schema, and
a generated file on nothing but its model; so if no entity needs a file of another one, a round is
put together from one part for each entity.
-/

namespace TypedTables

namespace Schema

def Agrees (s s' : Schema) : Prop :=
  ∀ name, s.classify name = s'.classify name

theorem Agrees.isNested {s s' : Schema} (h : s.Agrees s') (name : String) :
    s.isNested name = s'.isNested name := by
  rw [Schema.isNested, Schema.isNested, h name]

end Schema

theorem Column.ofEntity_congr {s s' : Schema} (h : s.Agrees s') (fs : FileSystem)
    (cache : SourceCache) (e : Entity) :
    Column.ofEntity fs s cache e = Column.ofEntity fs s' cache e := by
  have htype : ∀ t : TypeRef, columnType t s = columnType t s' := by
    intro t
    rw [columnType, columnType, h.isNested]
  have hfield : Column.ofField s = Column.ofField s' := by
    funext i f
    simp only [Column.ofField, TypeRef.normalize, htype]
  rw [Column.ofEntity, Column.ofEntity]
  simp only [Column.ofFields, hfield]

namespace Round

/-- The model of an entity, as far as the others are known by the schema alone. -/
def modelOf [OverrideLanguage] (fs : FileSystem) (config : Config) (schema : Schema) (e : Entity) :
    Except RenderError EntityModel :=
  EntityModel.build ⟨fs, config.templateDir, []⟩ schema (e.targetPackage config.packageRule).1
    (Column.ofEntity fs schema [] e).1 e

theorem modelOf_congr [OverrideLanguage] {s s' : Schema} (h : s.Agrees s') (fs : FileSystem)
    (config : Config) (e : Entity) : modelOf fs config s e = modelOf fs config s' e := by
  simp only [modelOf, EntityModel.build, Column.ofEntity_congr h, h.isNested]

def partProblems (fs : FileSystem) (config : Config) (e : Entity) (m : EntityModel) :
    Diagnostics :=
  Diagnostics.ofNotices (FieldOrder.sort fs [] e).2.1 ++ ownProblems config e m

section Models

variable [OverrideLanguage] {fs : FileSystem} {config : Config} {schema : Schema}
  {cache : SourceCache} {entities : List Entity}

theorem models_of_parts (hcache : cache.Faithful fs) {model : Entity → EntityModel}
    (h : ∀ e ∈ entities, modelOf fs config schema e = .ok (model e)) :
    (models fs config ⟨fs, config.templateDir, []⟩ schema cache entities).2 =
        .ok (entities.map (fun e => (e, model e))) ∧
      Diagnostics.ofNotices
          (models fs config ⟨fs, config.templateDir, []⟩ schema cache entities).1 =
        entities.flatMap (fun e => partProblems fs config e (model e)) := by
  induction entities generalizing cache with
  | nil => exact ⟨rfl, rfl⟩
  | cons e entities ih =>
      obtain ⟨hfirst, hrest⟩ := List.forall_mem_cons.mp h
      obtain ⟨hcolumns, hnotices, hnext⟩ := Column.ofEntity_spec hcache schema e
      obtain ⟨hresult, hmore⟩ := ih hnext hrest
      have hbuild : EntityModel.build ⟨fs, config.templateDir, []⟩ schema
          (e.targetPackage config.packageRule).1 (Column.ofEntity fs schema cache e).1 e =
            .ok (model e) := by
        rw [hcolumns]
        exact hfirst
      have hmodel := (EntityModel.build_ok hbuild).2.1
      simp only [models, hbuild, hresult]
      refine ⟨rfl, ?_⟩
      rw [Diagnostics.ofNotices_append, hmore, List.flatMap_cons]
      congr 1
      simp [partProblems, ownProblems, modelNotice, hnotices, hmodel]

/-- Building models ends at the first entity that has none, with the failure of that entity alone;
else each entity gets its model, after a notice that says so. -/
theorem models_cases (config : Config) (schema : Schema)
    (entities : List Entity) (hcache : cache.Faithful fs) :
    (∃ told built, models fs config ⟨fs, config.templateDir, []⟩ schema cache entities =
        (told, .ok built) ∧ built.map Prod.fst = entities ∧
      ∀ p ∈ built, modelOf fs config schema p.1 = .ok p.2 ∧ modelNotice p.1 p.2.columns ∈ told) ∨
    ∃ told earlier e later error,
      models fs config ⟨fs, config.templateDir, []⟩ schema cache entities =
        (told, .error error) ∧ entities = earlier ++ e :: later ∧
      (∀ x ∈ earlier, ∃ m, modelOf fs config schema x = .ok m) ∧
      modelOf fs config schema e = .error error := by
  induction entities generalizing cache with
  | nil => exact .inl ⟨[], [], rfl, rfl, List.forall_mem_nil _⟩
  | cons e entities ih =>
      obtain ⟨hcolumns, -, hnext⟩ := Column.ofEntity_spec hcache schema e
      have hmodel : EntityModel.build ⟨fs, config.templateDir, []⟩ schema
          (e.targetPackage config.packageRule).1 (Column.ofEntity fs schema cache e).1 e =
            modelOf fs config schema e := by
        rw [hcolumns]
        rfl
      simp only [models, hmodel]
      cases hown : modelOf fs config schema e with
      | error error => exact .inr ⟨_, [], e, entities, error, rfl, rfl, List.forall_mem_nil _, hown⟩
      | ok m =>
          have hm : m.columns = (Column.ofEntity fs schema cache e).1 :=
            (EntityModel.build_ok (hmodel.trans hown)).2.1
          rcases ih hnext with ⟨told, built, hrest, hentities, hbuilt⟩ |
            ⟨told, earlier, failing, later, error, hrest, rfl, hearlier, herror⟩
          · rw [hrest]
            refine .inl ⟨_, (e, m) :: built, rfl, by simp [hentities], ?_⟩
            refine List.forall_mem_cons.mpr ⟨⟨hown, by simp [hm]⟩, fun p hp => ?_⟩
            obtain ⟨hp, htold⟩ := hbuilt p hp
            exact ⟨hp, List.mem_append_right _ htold⟩
          · rw [hrest]
            exact .inr ⟨_, e :: earlier, failing, later, error, rfl, rfl,
              List.forall_mem_cons.mpr ⟨⟨m, hown⟩, hearlier⟩, herror⟩

theorem exists_modelOf {built : List (Entity × EntityModel)} (hcache : cache.Faithful fs)
    (h : (models fs config ⟨fs, config.templateDir, []⟩ schema cache entities).2 = .ok built) :
    ∀ e ∈ entities, ∃ m, modelOf fs config schema e = .ok m := by
  rcases models_cases config schema entities hcache with
    ⟨told, all, hmodels, rfl, hall⟩ | ⟨told, earlier, e, later, error, hmodels, -⟩
  · intro e he
    obtain ⟨p, hp, rfl⟩ := List.mem_map.mp he
    exact ⟨p.2, (hall p hp).1⟩
  · rw [hmodels] at h
    cases h

theorem exists_model {built : List (Entity × EntityModel)} (hcache : cache.Faithful fs)
    (h : (models fs config ⟨fs, config.templateDir, []⟩ schema cache entities).2 = .ok built) :
    ∃ model : Entity → EntityModel, ∀ e ∈ entities, modelOf fs config schema e = .ok (model e) := by
  have hbuilt := exists_modelOf hcache h
  -- Functions are chosen, so there has to be a model for every entity, in the round or not.
  have hchoice : ∀ e, ∃ m, e ∈ entities → modelOf fs config schema e = .ok m := by
    intro e
    by_cases he : e ∈ entities
    · obtain ⟨m, hm⟩ := hbuilt e he
      exact ⟨m, fun _ => hm⟩
    · exact ⟨⟨"", [], false, "", "", "", ""⟩, fun hmem => absurd hmem he⟩
  choose model hmodel using hchoice
  exact ⟨model, hmodel⟩

end Models

def fileOf [OverrideLanguage] (fs : FileSystem) (config : Config) (m : EntityModel) (a : Artifact) :
    Except RenderError GeneratedFile :=
  (Renderer.render ⟨fs, config.templateDir, []⟩ a.template
    (m.context (m.entity ++ a.suffix))).map
      (fun content => ⟨m.package, fileName config m a, content, m.entity, none⟩)

/-- A renderer that keeps only standard templates that nothing overrides. -/
structure Steady (fs : FileSystem) (config : Config) (r : Renderer) : Prop where
  files : r.files = fs
  overrides : r.overrides = config.templateDir
  kept : ∀ name ∈ r.kept, Renderer.override? ⟨fs, config.templateDir, []⟩ name = none

namespace Steady

variable {fs : FileSystem} {config : Config} {r : Renderer}

theorem start (fs : FileSystem) (config : Config) :
    Steady fs config ⟨fs, config.templateDir, []⟩ := ⟨rfl, rfl, by simp⟩

theorem override?_eq (h : Steady fs config r) (name : String) :
    r.override? name = Renderer.override? ⟨fs, config.templateDir, []⟩ name := by
  by_cases hkept : name ∈ r.kept
  · rw [h.kept name hkept, Renderer.override?, if_pos hkept]
  · rw [Renderer.override?, if_neg hkept, h.files, h.overrides, Renderer.override?,
      if_neg List.not_mem_nil]

theorem render_eq [OverrideLanguage] (h : Steady fs config r) (name : String)
    (context : List (String × Data)) :
    r.render name context = Renderer.render ⟨fs, config.templateDir, []⟩ name context := by
  rw [Renderer.render, Renderer.render, Renderer.find, Renderer.find, h.override?_eq, h.files]

theorem keep (h : Steady fs config r) (name : String) : Steady fs config (r.keep name) := by
  refine ⟨?_, ?_, ?_⟩
  · rw [r.files_keep, h.files]
  · rw [r.overrides_keep, h.overrides]
  · rw [Renderer.keep]
    split
    · exact h.kept
    · rename_i hnone
      rw [Option.not_isSome_iff_eq_none, h.override?_eq] at hnone
      exact List.forall_mem_cons.mpr ⟨hnone, h.kept⟩

theorem emit_eq [OverrideLanguage] (h : Steady fs config r) (origin : String) (m : EntityModel)
    (a : Artifact) :
    emit config none r origin m a =
      match fileOf fs config m a with
      | .error e => (r, .error (.render e))
      | .ok file => (r.keep a.template, .ok (file, [])) := by
  rw [emit, fileOf, h.render_eq]
  cases Renderer.render ⟨fs, config.templateDir, []⟩ a.template
    (m.context (m.entity ++ a.suffix)) <;> rfl

theorem execute_of_parts [OverrideLanguage] (h : Steady fs config r) {plan : List Step}
    {file : EntityModel → Artifact → GeneratedFile}
    (hfile : ∀ x ∈ emitted plan, fileOf fs config x.1 x.2 = .ok (file x.1 x.2)) :
    (execute config none r plan).result =
      .ok ((emitted plan).map (fun x => file x.1 x.2)) := by
  induction plan generalizing r with
  | nil => rfl
  | cons s plan ih =>
      cases s with
      | tell notice => exact ih h hfile
      | emit origin m a =>
          obtain ⟨hfirst, hrest⟩ := List.forall_mem_cons.mp hfile
          rw [execute, h.emit_eq]
          simp only [hfirst, ih (h.keep a.template) hrest]
          rfl

theorem exists_fileOf [OverrideLanguage] (h : Steady fs config r) {plan : List Step}
    {files : List GeneratedFile} (hdone : (execute config none r plan).result = .ok files) :
    ∀ x ∈ emitted plan, ∃ f, fileOf fs config x.1 x.2 = .ok f := by
  induction plan generalizing r files with
  | nil => simp [emitted]
  | cons s plan ih =>
      cases s with
      | tell notice => exact ih h hdone
      | emit origin m a =>
          obtain ⟨r', file, notices, rest, hemit, hrest, -, -, -⟩ := execute_emit_ok hdone
          rw [h.emit_eq] at hemit
          cases hfirst : fileOf fs config m a with
          | error e => simp [hfirst] at hemit
          | ok file =>
              rw [hfirst] at hemit
              obtain ⟨rfl, -⟩ := Prod.mk.inj hemit
              exact List.forall_mem_cons.mpr ⟨⟨file, hfirst⟩, ih (h.keep _) hrest⟩

end Steady

end Round

end TypedTables
