import TypedTables.Proofs.FieldOrder
import TypedTables.Round

/-!
The first half of a round: one model for each entity, in the order of the entities, or none at all.
The errors told on the way are those of columns and packages.
-/

namespace TypedTables

namespace EntityModel

theorem build_ok [OverrideLanguage] {r : Renderer} {schema : Schema} {package : String}
    {columns : List Column} {e : Entity} {m : EntityModel}
    (h : build r schema package columns e = .ok m) :
    m.entity = Text.capitalize e.simpleName ∧ m.columns = columns ∧
      m.isNested = schema.isNested e.qualifiedName ∧ m.package = package ∧
      m.qualifiedName = e.qualifiedName := by
  simp only [build] at h
  cases hadd : r.render "table_add.py.j2"
      (methodContext (Text.capitalize e.simpleName) columns) with
  | error error => simp [hadd, bind, Except.bind] at h
  | ok addMethod =>
      cases hinsert : r.render "table_insert.py.j2"
          (methodContext (Text.capitalize e.simpleName) columns) with
      | error error => simp [hadd, hinsert, bind, Except.bind] at h
      | ok insertMethod =>
          simp only [hadd, hinsert, bind, Except.bind, Except.ok.injEq] at h
          subst h
          exact ⟨rfl, rfl, rfl, rfl, rfl⟩

end EntityModel

namespace Round

def BuiltFrom [OverrideLanguage] (fs : FileSystem) (config : Config) (schema : Schema) (e : Entity)
    (m : EntityModel) : Prop :=
  ∃ cache, EntityModel.build ⟨fs, config.templateDir, []⟩ schema
    (e.targetPackage config.packageRule).1 (Column.ofEntity fs schema cache e).1 e = .ok m

namespace BuiltFrom

variable [OverrideLanguage] {fs : FileSystem} {config : Config} {schema : Schema} {e : Entity}
  {m : EntityModel}

theorem package (h : BuiltFrom fs config schema e m) :
    m.package = (e.targetPackage config.packageRule).1 := by
  obtain ⟨cache, hbuild⟩ := h
  exact (EntityModel.build_ok hbuild).2.2.2.1

theorem qualifiedName (h : BuiltFrom fs config schema e m) :
    m.qualifiedName = e.qualifiedName := by
  obtain ⟨cache, hbuild⟩ := h
  exact (EntityModel.build_ok hbuild).2.2.2.2

theorem entity (h : BuiltFrom fs config schema e m) :
    m.entity = Text.capitalize e.simpleName := by
  obtain ⟨cache, hbuild⟩ := h
  exact (EntityModel.build_ok hbuild).1

theorem columns (h : BuiltFrom fs config schema e m) :
    ∃ cache, m.columns = (Column.ofEntity fs schema cache e).1 := by
  obtain ⟨cache, hbuild⟩ := h
  exact ⟨cache, (EntityModel.build_ok hbuild).2.1⟩

theorem isNested (h : BuiltFrom fs config schema e m) :
    m.isNested = schema.isNested e.qualifiedName := by
  obtain ⟨cache, hbuild⟩ := h
  exact (EntityModel.build_ok hbuild).2.2.1

end BuiltFrom

def ownProblems (config : Config) (e : Entity) (m : EntityModel) : Diagnostics :=
  Diagnostics.ofNotices
    (m.columns.flatMap (columnNotices e) ++ (e.targetPackage config.packageRule).2)

theorem models_ok [OverrideLanguage] {fs : FileSystem} {config : Config} {schema : Schema}
    {cache : SourceCache} {entities : List Entity} {notices : List Notice}
    {built : List (Entity × EntityModel)}
    (h : models fs config ⟨fs, config.templateDir, []⟩ schema cache entities = (notices, .ok built))
    :
    built.map Prod.fst = entities ∧ (∀ p ∈ built, BuiltFrom fs config schema p.1 p.2) ∧
      (Diagnostics.ofNotices notices).errors =
        built.flatMap (fun p => (ownProblems config p.1 p.2).errors) := by
  induction entities generalizing cache notices built with
  | nil =>
      simp only [models, Prod.mk.injEq, Except.ok.injEq] at h
      obtain ⟨rfl, rfl⟩ := h
      simp
  | cons e entities ih =>
      rcases hcol : Column.ofEntity fs schema cache e with ⟨columns, orderNotices, cache'⟩
      rcases hpkg : e.targetPackage config.packageRule with ⟨package, packageNotices⟩
      simp only [models, hcol, hpkg] at h
      cases hbuild : EntityModel.build ⟨fs, config.templateDir, []⟩ schema package columns e with
      | error error => simp [hbuild] at h
      | ok m =>
          rcases hrest : models fs config ⟨fs, config.templateDir, []⟩ schema cache' entities
            with ⟨more, result⟩
          simp only [hbuild, hrest, Prod.mk.injEq] at h
          obtain ⟨rfl, hresult⟩ := h
          cases result with
          | error error => simp [Except.map] at hresult
          | ok rest =>
              obtain rfl : (e, m) :: rest = built := by simpa [Except.map] using hresult
              obtain ⟨hnames, hbuilt, herrors⟩ := ih hrest
              have horder : (Diagnostics.ofNotices orderNotices).errors = [] := by
                have hsort := FieldOrder.errors_sort fs cache e
                rw [Column.ofEntity] at hcol
                simp only [Prod.mk.injEq] at hcol
                rwa [hcol.2.1] at hsort
              refine ⟨by simp [hnames], ?_, ?_⟩
              · intro p hp
                rcases List.mem_cons.mp hp with rfl | hp
                · exact ⟨cache, by simp [hcol, hpkg, hbuild]⟩
                · exact hbuilt p hp
              · have hcolumns := (EntityModel.build_ok hbuild).2.1
                simp [ownProblems, modelNotice, hpkg, hcolumns, horder, herrors]

end Round

end TypedTables
