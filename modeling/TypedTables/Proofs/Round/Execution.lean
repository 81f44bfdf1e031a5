import Mathlib.Data.List.Forall2
import TypedTables.Proofs.Diagnostics
import TypedTables.Proofs.Output
import TypedTables.Proofs.Round.Plan

namespace TypedTables

theorem Renderer.overrides_keep (r : Renderer) (name : String) :
    (r.keep name).overrides = r.overrides := by
  rw [keep]
  split <;> rfl

theorem Renderer.files_keep (r : Renderer) (name : String) : (r.keep name).files = r.files := by
  rw [keep]
  split <;> rfl

namespace Round

structure Generated [OverrideLanguage] (config : Config) (r : Renderer) (target : Target)
    (m : EntityModel) (a : Artifact) (f : GeneratedFile) : Prop where
  package : f.package = m.package
  fileName : f.fileName = fileName config m a
  entity : f.entity = m.entity
  content : ∃ r' : Renderer, r'.overrides = r.overrides ∧
    r'.render a.template (m.context (m.entity ++ a.suffix)) = .ok f.content
  path : f.path = target.map (fun o => o.filePath f.package f.fileName)

theorem Generated.of_overrides [OverrideLanguage] {config : Config} {r r' : Renderer}
    {target : Target} {m : EntityModel} {a : Artifact} {f : GeneratedFile}
    (hr : r'.overrides = r.overrides) (h : Generated config r' target m a f)
    : Generated config r target m a f := by
  obtain ⟨r'', hr', hcontent⟩ := h.content
  exact ⟨h.package, h.fileName, h.entity, ⟨r'', hr'.trans hr, hcontent⟩, h.path⟩

section

variable [OverrideLanguage] {config : Config} {target : Target} {r r' : Renderer}

theorem emit_ok {origin : String} {m : EntityModel} {a : Artifact} {file : GeneratedFile}
    {notices : List Notice} (h : emit config target r origin m a = (r', .ok (file, notices))) :
    Generated config r target m a file ∧ r'.overrides = r.overrides ∧
      Diagnostics.ofNotices notices = [] := by
  rw [emit] at h
  cases hcontent : r.render a.template (m.context (m.entity ++ a.suffix)) with
  | error e => simp [hcontent] at h
  | ok content =>
      simp only [hcontent] at h
      cases target with
      | none =>
          simp only [Prod.mk.injEq, Except.ok.injEq] at h
          obtain ⟨rfl, rfl, rfl⟩ := h
          exact ⟨⟨rfl, rfl, rfl, ⟨r, rfl, hcontent⟩, rfl⟩, r.overrides_keep _, rfl⟩
      | some o =>
          dsimp only at h
          split at h
          · simp at h
          · rename_i hwrite
            simp only [Prod.mk.injEq, Except.ok.injEq] at h
            obtain ⟨rfl, rfl, rfl⟩ := h
            exact ⟨⟨rfl, rfl, rfl, ⟨r, rfl, hcontent⟩, congrArg some (Output.write_ok hwrite)⟩,
              r.overrides_keep _, rfl⟩

theorem execute_emit_ok {origin : String} {m : EntityModel} {a : Artifact} {plan : List Step}
    {files : List GeneratedFile}
    (h : (execute config target r (.emit origin m a :: plan)).result = .ok files) :
    ∃ r' file notices rest, emit config target r origin m a = (r', .ok (file, notices)) ∧
      (execute config target r' plan).result = .ok rest ∧ files = file :: rest ∧
      (execute config target r (.emit origin m a :: plan)).fs =
        (execute config target r' plan).fs ∧
      (execute config target r (.emit origin m a :: plan)).notices =
        notices ++ (execute config target r' plan).notices := by
  rw [execute] at h ⊢
  rcases hemit : emit config target r origin m a with ⟨r', done⟩
  cases done with
  | error f => simp [hemit] at h
  | ok result =>
      obtain ⟨file, notices⟩ := result
      simp only [hemit] at h ⊢
      cases hrest : (execute config target r' plan).result with
      | error f => simp [hrest, Except.map] at h
      | ok rest =>
          rw [hrest] at h
          obtain rfl := Except.ok.inj h
          exact ⟨r', file, notices, rest, rfl, hrest, rfl, rfl, rfl⟩

theorem execute_ok {plan : List Step} {files : List GeneratedFile}
    (h : (execute config target r plan).result = .ok files) :
    List.Forall₂ (fun x f => Generated config r target x.1 x.2 f) (emitted plan) files ∧
      Diagnostics.ofNotices (execute config target r plan).notices =
        Diagnostics.ofNotices (told plan) := by
  induction plan generalizing r files with
  | nil =>
      obtain rfl : [] = files := by simpa [execute] using h
      exact ⟨.nil, rfl⟩
  | cons s plan ih =>
      cases s with
      | tell notice =>
          obtain ⟨hfiles, hnotices⟩ := ih h
          refine ⟨hfiles, ?_⟩
          change Diagnostics.ofNotices ([notice] ++ (execute config target r plan).notices) =
            Diagnostics.ofNotices ([notice] ++ told plan)
          rw [Diagnostics.ofNotices_append, Diagnostics.ofNotices_append, hnotices]
      | emit origin m a =>
          obtain ⟨r', file, notices, rest, hemit, hrest, rfl, -, hall⟩ := execute_emit_ok h
          obtain ⟨hfile, hr, hnone⟩ := emit_ok hemit
          obtain ⟨hfiles, hnotices⟩ := ih hrest
          refine ⟨.cons hfile (hfiles.imp fun x f hf => hf.of_overrides hr), ?_⟩
          rw [hall, Diagnostics.ofNotices_append, hnone, hnotices]
          rfl

end

end Round

end TypedTables
