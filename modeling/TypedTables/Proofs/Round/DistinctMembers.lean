import TypedTables.Proofs.MemberClashes
import TypedTables.Proofs.Round.RegularModels

/-!
Generated classes that define a member twice. In a round without errors these are the cursors and
queries whose columns have names that the check of names lets pass: `__init__` and `__repr__`, and
two names of which one adds `_not` to the other.
-/

namespace TypedTables.Round

theorem Standard.members_nodup_iff {config : Config} {m : EntityModel} {a : Artifact}
    {f : GeneratedFile} (h : Standard config m a f) (ha : a ∈ artifacts)
    (hm : m.Regular ∧ StandardMethods m) : (membersOf f.content).Nodup ↔ ¬ a.Repeats m.columns := by
  obtain ⟨hregular, hadd, hinsert⟩ := hm
  obtain ⟨template, htemplate, hrender⟩ := h.content
  exact hregular.nodup_members_iff hadd hinsert ha htemplate hrender

/-- A generated class defines each member once, unless a column is named as a method of all cursors
or the tests of two columns have one name. -/
theorem nodup_members_of_run [OverrideLanguage] {fs : FileSystem} {config : Config}
    {target : Target} {before : Diagnostics} {markers : List (String × List Entity)}
    {r : RoundResult} (hkeys : (markers.map Prod.fst).Nodup)
    (hnamed : ∀ e ∈ tableEntities config markers, e.WellNamed)
    (h : (Round.run fs config target before markers).result = .ok r) (hok : r.failed = false)
    (hnone : Unoverridden (Round.run fs config target before markers).fs config) :
    ∀ f ∈ r.files, ∃ m ∈ r.models, ∃ a ∈ artifacts,
      f.package = m.package ∧ f.fileName = fileName config m a ∧
      ((membersOf f.content).Nodup ↔ ¬ a.Repeats m.columns) := by
  obtain ⟨hstart, hfiles⟩ := run_standard hkeys h hnone
  intro f hf
  obtain ⟨m, hm, a, ha, hstandard⟩ := hfiles f hf
  have hregular := run_regular hkeys hnamed h hok hstart m hm
  exact ⟨m, hm, a, ha, hstandard.package, hstandard.fileName,
    hstandard.members_nodup_iff ha hregular⟩

def dogs (fields : List (String × String)) : List (String × List Entity) :=
  let field (i : Nat) (f : String × String) : Field := ⟨f.1, ⟨f.2, f.2, "", .name⟩, some i⟩
  [("tablegen.markers.table",
    [⟨"zoo.dog.Dog", "Dog", [⟨.packageScope, "zoo"⟩], fields.mapIdx field, none⟩])]

def friendlyDogs : List (String × List Entity) :=
  dogs [("age", "int"), ("age_not", "bytes"), ("not_age", "int"), ("__str__", "str"),
    ("find_all", "bool")]

theorem members_of_friendlyDogs :
    ∃ r, (Round.run ⟨.empty, [], []⟩ {} none [] friendlyDogs).result = .ok r ∧ r.failed = false ∧
      r.files.map GeneratedFile.fileName = ["DogTable.py", "Dog.py", "DogView.py", "DogQuery.py"] ∧
      ∀ f ∈ r.files, ∃ m ∈ r.models, ∃ a ∈ artifacts,
        f.package = m.package ∧ f.fileName = fileName {} m a ∧
        ((membersOf f.content).Nodup ↔ ¬ a.Repeats m.columns) := by
  have hrun : (Round.run ⟨.empty, [], []⟩ {} none [] friendlyDogs).result.toOption.map
      (fun r => (r.failed, r.files.map GeneratedFile.fileName)) =
        some (false, ["DogTable.py", "Dog.py", "DogView.py", "DogQuery.py"]) := by
    decide +kernel
  obtain ⟨r, hresult, hr⟩ := exists_ok_of_map_eq_some hrun
  obtain ⟨hok, hnames⟩ := Prod.mk.inj hr
  exact ⟨r, hresult, hok, hnames,
    nodup_members_of_run (by decide) (by decide) hresult hok (by decide)⟩

/-- Dogs whose names of fields all pass, though a cursor has the method `__repr__` already, and a
query would test both whether the age is not some number and whether the other field is it. -/
def strayDogs : List (String × List Entity) :=
  dogs [("age", "int"), ("age_not", "int"), ("__repr__", "str")]

theorem strayDogs_repeat {r : RoundResult}
    (h : (Round.run ⟨.empty, [], []⟩ {} none [] strayDogs).result = .ok r)
    (hok : r.failed = false)
    (hmodels : r.models.map (fun m => (m.entity, m.columns.map (fun c => (c.name, c.type)))) =
      [("Dog", [("age", .integer64), ("age_not", .integer64), ("__repr__", .string)])])
    {f : GeneratedFile} (hf : f ∈ r.files)
    (hname : f.fileName = "Dog.py" ∨ f.fileName = "DogQuery.py") :
    ¬ (membersOf f.content).Nodup := by
  have hnone : Unoverridden (Round.run ⟨.empty, [], []⟩ {} none [] strayDogs).fs {} := by
    decide
  obtain ⟨hstart, hfiles⟩ := run_standard (by decide) h hnone
  obtain ⟨m, hm, a, ha, hstandard⟩ := hfiles f hf
  have hregular := run_regular (by decide) (by decide) h hok hstart m hm
  obtain ⟨hentity, hcolumns⟩ :=
    Prod.mk.inj (List.mem_singleton.mp (hmodels ▸ List.mem_map_of_mem hm))
  have hcolumn : ∀ column ∈ [("age", ColumnType.integer64), ("age_not", .integer64),
      ("__repr__", .string)], ∃ c ∈ m.columns, (c.name, c.type) = column := by
    intro column hcolumn
    exact List.mem_map.mp (hcolumns ▸ hcolumn)
  obtain ⟨c, hc, hcname⟩ := hcolumn ("age", .integer64) (by simp)
  obtain ⟨d, hd, hdname⟩ := hcolumn ("age_not", .integer64) (by simp)
  obtain ⟨b, hb, hbname⟩ := hcolumn ("__repr__", .string) (by simp)
  rw [hstandard.members_nodup_iff ha hregular, not_not]
  rw [hstandard.fileName, fileName, hentity] at hname
  simp only [artifacts, List.mem_cons, List.not_mem_nil, or_false] at ha
  rcases ha with rfl | rfl | rfl | rfl
  · exact absurd hname (by decide)
  · exact .inl ⟨rfl, b, hb, .inr (Prod.mk.inj hbname).1⟩
  · exact absurd hname (by decide)
  · obtain ⟨hcname, hctype⟩ := Prod.mk.inj hcname
    obtain ⟨hdname, hdtype⟩ := Prod.mk.inj hdname
    refine .inr ⟨rfl, c, hc, d, hd, ?_, by simp [hctype], by simp [hdtype]⟩
    rw [hcname, hdname]
    decide

theorem members_repeated :
    (∀ e ∈ tableEntities {} strayDogs, e.WellNamed) ∧
      Unoverridden (Round.run ⟨.empty, [], []⟩ {} none [] strayDogs).fs {} ∧
      ∃ r, (Round.run ⟨.empty, [], []⟩ {} none [] strayDogs).result = .ok r ∧ r.diagnostics = [] ∧
        (∃ f ∈ r.files, f.fileName = "Dog.py" ∧ ¬ (membersOf f.content).Nodup) ∧
        ∃ f ∈ r.files, f.fileName = "DogQuery.py" ∧ ¬ (membersOf f.content).Nodup := by
  have hrun : (Round.run ⟨.empty, [], []⟩ {} none [] strayDogs).result.toOption.map
      (fun r => (r.diagnostics.map Diagnostic.line, r.files.map GeneratedFile.fileName)) =
      some ([], ["DogTable.py", "Dog.py", "DogView.py", "DogQuery.py"]) := by
    decide +kernel
  have hbuilt : (Round.run ⟨.empty, [], []⟩ {} none [] strayDogs).result.toOption.map
      (fun r => r.models.map (fun m => (m.entity, m.columns.map (fun c => (c.name, c.type))))) =
      some [("Dog", [("age", .integer64), ("age_not", .integer64), ("__repr__", .string)])] := by
    decide +kernel
  obtain ⟨r, hresult, hr⟩ := exists_ok_of_map_eq_some hrun
  rw [hresult] at hbuilt
  have hmodels := Option.some.inj hbuilt
  obtain ⟨hlines, hnames⟩ := Prod.mk.inj hr
  have hnone := List.map_eq_nil_iff.mp hlines
  have hok : r.failed = false := by
    rw [RoundResult.failed, hnone]
    rfl
  have hfile : ∀ name ∈ ["DogTable.py", "Dog.py", "DogView.py", "DogQuery.py"],
      ∃ f ∈ r.files, f.fileName = name := by
    intro name hname
    exact List.mem_map.mp (hnames ▸ hname)
  obtain ⟨cursor, hcursor, hcursorName⟩ := hfile "Dog.py" (by simp)
  obtain ⟨query, hquery, hqueryName⟩ := hfile "DogQuery.py" (by simp)
  exact ⟨by decide, by decide, r, hresult, hnone,
    ⟨cursor, hcursor, hcursorName, strayDogs_repeat hresult hok hmodels hcursor (.inl hcursorName)⟩,
    query, hquery, hqueryName, strayDogs_repeat hresult hok hmodels hquery (.inr hqueryName)⟩

end TypedTables.Round
