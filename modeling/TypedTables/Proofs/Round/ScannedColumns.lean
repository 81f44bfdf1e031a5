import TypedTables.Proofs.Declarations
import TypedTables.Proofs.Round.OrderWarnings
import TypedTables.Proofs.Round.Run

namespace TypedTables.Round

open Source FieldOrder

structure KeepsOrder [OverrideLanguage] (fs : FileSystem) (config : Config) (found : MarkedEntities)
    : Prop where
  read : ∀ x ∈ found, AllRead fs x.2
  quiet : ∀ fs' target before,
    NoOrderWarning (Round.run fs' config target before found).notices
  recorded : ∀ fs' target before r, (Round.run fs' config target before found).result = .ok r →
    ∀ d ∈ r.diagnostics, Warns d → d ∈ before
  columns : ∀ fs' target before r, (Round.run fs' config target before found).result = .ok r →
    List.Forall₂ (fun e m => ∃ ctx body, ReadFrom fs e ctx body ∧
        Column.LaidOut (Schema.build (tableEntities config found)) ctx body m.columns)
      (tableEntities config found) r.models

theorem mem_of_mem_tableEntities {config : Config} {markers : List (String × List Entity)}
    {e : Entity} (h : e ∈ tableEntities config markers) : ∃ x ∈ markers, e ∈ x.2 := by
  rw [tableEntities] at h
  cases hlook : markers.lookup config.tableMarker with
  | none => simp [hlook] at h
  | some entities =>
      obtain ⟨before, after, rfl, -⟩ := List.lookup_eq_some_iff.mp hlook
      rw [hlook] at h
      exact ⟨(config.tableMarker, entities), by simp, h⟩

theorem keepsOrder_of_allRead [OverrideLanguage] {fs : FileSystem} {config : Config}
    {found : MarkedEntities} (hkeys : (found.map Prod.fst).Nodup)
    (hread : ∀ x ∈ found, AllRead fs x.2) :
    KeepsOrder fs config found := by
  have hpositions : ∀ x ∈ found, ∀ e ∈ x.2, ∀ f ∈ e.fields, f.position.isSome := by
    intro x hx e he
    obtain ⟨ctx, body, hfrom⟩ := hread x hx e he
    exact hfrom.bornInOrder.isSome_position
  constructor
  case read => exact hread
  case quiet => exact fun fs' target before => .run hpositions
  case recorded =>
    intro fs' target before r h d hd hwarns
    obtain ⟨tables?, -, rfl⟩ := run_ok h
    rcases List.mem_append.mp hd with hd | hd
    · exact hd
    · exact absurd hwarns (NoOrderWarning.runMarkers hpositions d hd)
  case columns =>
    intro fs' target before r h
    obtain ⟨tables, problems, built, cs, earlier, later, hmade, hmodels, hfiles, -⟩ :=
      run_madeOf hkeys h
    have haccounts := hmade.accounts hmodels hfiles
    rw [← haccounts.models]
    nth_rewrite 2 [← haccounts.entities]
    rw [List.forall₂_map_left_iff, List.forall₂_map_right_iff, List.forall₂_same]
    intro c hc
    obtain ⟨x, hx, he⟩ :=
      mem_of_mem_tableEntities (haccounts.entities ▸ List.mem_map_of_mem hc)
    obtain ⟨ctx, body, hfrom⟩ := hread x hx _ he
    obtain ⟨cache, hcolumns⟩ := (haccounts.built c hc).columns
    rw [hcolumns]
    exact ⟨ctx, body, hfrom, Column.laidOut_ofEntity hfrom.bornInOrder fs' _ cache⟩

/-- Entities that are extracted from sources are born in the order of their class bodies. So the
rounds over scanned files lay out their columns in this order, without a warning about it. -/
theorem keepsOrder_of_collect [OverrideLanguage] {fs : FileSystem} {config : Config}
    {roots : List Path} {notices : List Notice} {found : MarkedEntities}
    (h : collect fs config.markersNamespace config.ignoreFile [] roots = (notices, .ok found)) :
    (∀ bytes module package namespaceName file,
      ∀ m ∈ marked (parse bytes) module package namespaceName file,
        ∃ path ds body, ClassIn (parse bytes) path ds body ∧
          m.entity = entityAt (.ofStatements module package (parse bytes)) file path body ∧
          BornInOrder (.ofStatements module package (parse bytes)) body m.entity.fields) ∧
      NoOrderWarning notices ∧ KeepsOrder fs config found := by
  refine ⟨?_, ?_, ?_⟩
  · intro bytes module package namespaceName file m hm
    obtain ⟨path, ds, body, hclass, -, hentity⟩ := mem_marked.mp hm
    rw [List.nil_append] at hentity
    refine ⟨path, ds, body, hclass, hentity, ?_⟩
    rw [hentity]
    exact bornInOrder_of_classIn hclass _
  · have hnotices : NoOrderWarning
        (collect fs config.markersNamespace config.ignoreFile [] roots).1 := .collect
    rwa [h] at hnotices
  · have hfound := congrArg Prod.snd h
    have hempty : (([] : MarkedEntities).map Prod.fst).Nodup := List.nodup_nil
    have hkeys := nodup_collect hempty hfound
    exact keepsOrder_of_allRead hkeys (allRead_collect (by simp) hfound)

def fold : FileSystem :=
  let text := "from typing import ClassVar\nfrom tablegen.markers import table\n\n@table\n" ++
    "class Sheep:\n  kind: ClassVar[str]\n  tag: int; name: str = 'Dolly'\n" ++
    "  def shear(self):\n    wool: int = 1\n  class Lamb:\n    age: int\n" ++
    "  if True:\n    hidden: int\n  first, second = 1, 2\n  weight: int\n"
  ⟨.dir [("sheep.py", .file (Text.Utf8.encode text))], [], []⟩

theorem keepsOrder_of_fold :
    ∃ notices found,
      collect fold "tablegen.markers" ".gitignore" [] [Path.ofText "/"] = (notices, .ok found) ∧
      (Round.run fold {} none [] found).result.toOption.map (fun r =>
          r.models.map (fun m => m.columns.map (fun c => (c.index, c.name)))) =
        some [[(0, "tag"), (1, "name"), (2, "weight")]] ∧
      NoOrderWarning notices ∧ KeepsOrder fold {} found := by
  have hcolumns : (collect fold "tablegen.markers" ".gitignore" [] [Path.ofText "/"]).2.toOption.map
      (fun found => (Round.run fold {} none [] found).result.toOption.map (fun r =>
        r.models.map (fun m => m.columns.map (fun c => (c.index, c.name))))) =
      some (some [[(0, "tag"), (1, "name"), (2, "weight")]]) := by
    decide +kernel
  obtain ⟨found, hfound, hmodels⟩ := exists_ok_of_map_eq_some hcolumns
  have hcollect : collect fold "tablegen.markers" ".gitignore" [] [Path.ofText "/"] =
      ((collect fold "tablegen.markers" ".gitignore" [] [Path.ofText "/"]).1, .ok found) :=
    Prod.ext rfl hfound
  have hdefault : collect fold ({} : Config).markersNamespace ({} : Config).ignoreFile []
      [Path.ofText "/"] = (_, .ok found) := hcollect
  obtain ⟨-, hnotices, hkeeps⟩ := keepsOrder_of_collect hdefault
  exact ⟨_, found, hcollect, hmodels, hnotices, hkeeps⟩

end TypedTables.Round
