import TypedTables.Proofs.Round.Deposit
import TypedTables.Proofs.Round.Faults
import TypedTables.Proofs.Template.Lines

namespace TypedTables

open FileSystem

def Unoverridden (fs : FileSystem) (config : Config) : Prop :=
  ∀ entry ∈ Template.standard, Template.override? fs config.templateDir [entry.1] = none

instance (fs : FileSystem) (config : Config) : Decidable (Unoverridden fs config) :=
  inferInstanceAs (Decidable (∀ entry ∈ Template.standard, _ = none))

theorem FileSystem.Grows.isSome_read {written fresh : List String → Prop} {fs fs' : FileSystem}
    (h : fs.Grows written fresh fs') {p : Path} (hp : (fs.read p).toOption.isSome = true) :
    (fs'.read p).toOption.isSome = true := by
  cases hread : fs.read p with
  | error e => simp [hread, Except.toOption] at hp
  | ok bytes =>
      obtain ⟨hlocate, hfile⟩ := read_eq_ok.mp hread
      have hkept := h.kept (fs.resolved p) (by simp [hfile])
      obtain ⟨bytes', hfile'⟩ := Option.isSome_iff_exists.mp hkept
      have hread' : fs'.read p = .ok bytes' := by
        rw [read_eq_ok, h.resolved]
        exact ⟨h.changes.locate hlocate, hfile'⟩
      rw [hread']
      rfl

theorem Unoverridden.of_grows {written fresh : List String → Prop} {fs fs' : FileSystem}
    {config : Config} (h : Unoverridden fs' config) (hgrows : fs.Grows written fresh fs') :
    Unoverridden fs config := by
  intro entry hentry
  have hnone := h entry hentry
  cases hdirectory : config.templateDir with
  | none => rfl
  | some directory =>
      simp only [hdirectory, Template.override?] at hnone ⊢
      split at hnone
      · rename_i hempty
        rw [if_pos hempty]
      · rename_i hempty
        rw [if_neg hempty]
        by_contra hsome
        have hread := hgrows.isSome_read (Option.isSome_iff_ne_none.mpr hsome)
        rw [hnone] at hread
        cases hread

theorem nameComponents?_of_standard : ∀ entry ∈ Template.standard,
    Template.nameComponents? entry.1 = some [entry.1] := by
  decide

theorem standard_keys : (Template.standard.map Prod.fst).Nodup := by
  decide

theorem standardAt?_of_standard {entry : String × Template} (hentry : entry ∈ Template.standard) :
    Template.standardAt? [entry.1] = some entry.2 :=
  (Keyed.lookup_eq_some_iff_mem standard_keys entry.1 entry.2).mpr hentry

theorem Unoverridden.render [OverrideLanguage] {r : Renderer} {config : Config}
    (h : Unoverridden r.files config) (hr : r.overrides = config.templateDir)
    {entry : String × Template} (hentry : entry ∈ Template.standard)
    (context : List (String × Data)) :
    r.render entry.1 context = entry.2.render context := by
  have hnone : r.override? entry.1 = none := by
    rw [Renderer.override?]
    split
    · rfl
    · rw [nameComponents?_of_standard entry hentry, hr]
      exact h entry hentry
  have hfind : r.find entry.1 = .ok entry.2.render := by
    rw [Renderer.find, hnone]
    simp [nameComponents?_of_standard entry hentry, standardAt?_of_standard hentry]
  rw [Renderer.render, hfind]
  rfl

namespace Round

section

variable {config : Config} {target : Target} {r r' : Renderer} {origin : String} {m : EntityModel}
  {a : Artifact} {f : GeneratedFile} {notices : List Notice}

structure Standard (config : Config) (m : EntityModel) (a : Artifact) (f : GeneratedFile) :
    Prop where
  package : f.package = m.package
  fileName : f.fileName = fileName config m a
  content : ∃ template, Template.standardAt? [a.template] = some template ∧
    template.render (m.context (m.entity ++ a.suffix)) = .ok f.content

theorem emit_rendered [OverrideLanguage]
    (h : emit config target r origin m a = (r', .ok (f, notices))) :
    r.render a.template (m.context (m.entity ++ a.suffix)) = .ok f.content := by
  rw [emit] at h
  cases hcontent : r.render a.template (m.context (m.entity ++ a.suffix)) with
  | error e => simp [hcontent] at h
  | ok content =>
      simp only [hcontent] at h
      split at h
      · simp only [Prod.mk.injEq, Except.ok.injEq] at h
        obtain ⟨-, rfl, -⟩ := h
        rfl
      · split at h
        · simp at h
        · simp only [Prod.mk.injEq, Except.ok.injEq] at h
          obtain ⟨-, rfl, -⟩ := h
          rfl

theorem emit_unoverridden [OverrideLanguage]
    (h : emit config target r origin m a = (r', .ok (f, notices)))
    (hnone : Unoverridden r'.files config) : Unoverridden r.files config := by
  cases target with
  | some o => exact hnone.of_grows (emit_wrote h).grows
  | none =>
      have hrendered := emit_rendered h
      rw [emit, hrendered] at h
      obtain ⟨rfl, -⟩ := Prod.mk.inj h
      rwa [r.files_keep] at hnone

theorem artifact_standard : ∀ a ∈ artifacts, ∃ entry ∈ Template.standard, entry.1 = a.template := by
  decide

theorem execute_standard [OverrideLanguage] {plan : List Step} {files : List GeneratedFile}
    (h : (execute config target r plan).result = .ok files)
    (hr : r.overrides = config.templateDir)
    (hnone : Unoverridden (execute config target r plan).fs config)
    (hplan : ∀ x ∈ emitted plan, x.2 ∈ artifacts) :
    List.Forall₂ (fun x f => Standard config x.1 x.2 f) (emitted plan) files ∧
      Unoverridden r.files config := by
  induction plan generalizing r files with
  | nil =>
      obtain rfl : [] = files := by simpa [execute] using h
      exact ⟨.nil, hnone⟩
  | cons s plan ih =>
      cases s with
      | tell notice => exact ih h hr hnone hplan
      | emit origin m a =>
          obtain ⟨ha, hplan⟩ := List.forall_mem_cons.mp hplan
          obtain ⟨r', file, notices, rest, hemit, hrest, rfl, hfs, -⟩ := execute_emit_ok h
          obtain ⟨hfile, hoverrides, -⟩ := emit_ok hemit
          rw [hfs] at hnone
          obtain ⟨hfiles, hlater⟩ := ih hrest (hoverrides.trans hr) hnone hplan
          -- an override may be written on the way, so its absence is carried back from the end
          have hearlier := emit_unoverridden hemit hlater
          obtain ⟨entry, hentry, hname⟩ := artifact_standard a ha
          have hrendered := emit_rendered hemit
          have htemplate := standardAt?_of_standard hentry
          rw [← hname, hearlier.render hr hentry] at hrendered
          rw [hname] at htemplate
          exact ⟨.cons ⟨hfile.package, hfile.fileName, entry.2, htemplate, hrendered⟩ hfiles,
            hearlier⟩

end

section

variable {fs : FileSystem} {config : Config} {target : Target} {before : Diagnostics}
  {markers : List (String × List Entity)} {r : RoundResult}

structure StandardMethods (m : EntityModel) : Prop where
  add : Template.addTemplate.render (EntityModel.methodContext m.entity m.columns) =
    .ok m.addMethod
  insert : Template.insertTemplate.render (EntityModel.methodContext m.entity m.columns) =
    .ok m.insertMethod

theorem addTemplate_standard :
    ("table_add.py.j2", Template.addTemplate) ∈ Template.standard := by
  simp [Template.standard]

theorem insertTemplate_standard :
    ("table_insert.py.j2", Template.insertTemplate) ∈ Template.standard := by
  simp [Template.standard]

theorem BuiltFrom.standardMethods [OverrideLanguage] {schema : Schema} {e : Entity}
    {m : EntityModel} (h : BuiltFrom fs config schema e m) (hnone : Unoverridden fs config)
    : StandardMethods m := by
  obtain ⟨cache, hbuild⟩ := h
  have hstart : Unoverridden (⟨fs, config.templateDir, []⟩ : Renderer).files config := hnone
  rw [EntityModel.build] at hbuild
  obtain ⟨add, hadd, hbuild⟩ := Except.exists_of_bind_eq_ok hbuild
  obtain ⟨insert, hinsert, hbuild⟩ := Except.exists_of_bind_eq_ok hbuild
  obtain rfl := Except.ok.inj hbuild
  rw [hstart.render rfl addTemplate_standard] at hadd
  rw [hstart.render rfl insertTemplate_standard] at hinsert
  exact ⟨hadd, hinsert⟩

/-- In a round without overrides each file is a module of one of the models, and all of it is
generated by standard templates. -/
theorem run_standard [OverrideLanguage] (hkeys : (markers.map Prod.fst).Nodup)
    (h : (Round.run fs config target before markers).result = .ok r)
    (hnone : Unoverridden (Round.run fs config target before markers).fs config) :
    Unoverridden fs config ∧
      ∀ f ∈ r.files, ∃ m ∈ r.models, ∃ a ∈ artifacts, Standard config m a f := by
  obtain ⟨plan, hexecute, hfs, hplan⟩ := run_executes hkeys h
  rw [hfs] at hnone
  obtain ⟨hall, hstart⟩ := execute_standard hexecute rfl hnone (fun x hx => (hplan x hx).2)
  refine ⟨hstart, ?_⟩
  intro f hf
  obtain ⟨i, hi, rfl⟩ := List.getElem_of_mem hf
  have hlength := hall.length_eq
  obtain ⟨hm, ha⟩ := hplan _ (List.getElem_mem (hlength ▸ hi))
  exact ⟨_, hm, _, ha, hall.get (hlength ▸ hi) hi⟩

end

end Round

end TypedTables
