import TypedTables.Proofs.Column
import TypedTables.Proofs.Extraction

namespace TypedTables.Source

open Text

def Declares (ctx : ModuleContext) (name : String) (s : Statement) : Prop :=
  ∃ type offset, s = .annotated name type offset ∧
    (TypeRef.ofText type ctx.resolve).isClassVar = false

def DistinctFields (ctx : ModuleContext) (body : List Statement) : Prop :=
  body.Pairwise (fun s t => ∀ name, ¬ (Declares ctx name s ∧ Declares ctx name t))

def declared? (ctx : ModuleContext) : Statement → Option String
  | .annotated name type _ =>
      if (TypeRef.ofText type ctx.resolve).isClassVar then none else some name
  | _ => none

theorem declared?_eq_some {ctx : ModuleContext} {s : Statement} {name : String} :
    declared? ctx s = some name ↔ Declares ctx name s := by
  cases s with
  | annotated n type offset =>
      simp only [declared?, Declares, Statement.annotated.injEq]
      constructor
      · intro h
        by_cases hvar : (TypeRef.ofText type ctx.resolve).isClassVar = true
        · simp [hvar] at h
        · obtain rfl : n = name := by simpa [hvar] using h
          exact ⟨type, offset, ⟨rfl, rfl, rfl⟩, by simpa using hvar⟩
      · rintro ⟨_, _, ⟨rfl, rfl, rfl⟩, hvar⟩
        simp [hvar]
  | _ => simp [declared?, Declares]

theorem map_name_fieldsOf (ctx : ModuleContext) (body : List Statement) :
    (fieldsOf ctx body).map Field.name = body.filterMap (declared? ctx) := by
  rw [fieldsOf, annotatedNames, List.filterMap_filterMap, List.map_filterMap]
  apply List.filterMap_congr
  intro s _
  cases s with
  | annotated name type offset =>
      by_cases hvar : (TypeRef.ofText type ctx.resolve).isClassVar = true
      · simp [declared?, hvar]
      · simp [declared?, hvar]
  | _ => rfl

theorem nodup_names_fieldsOf {ctx : ModuleContext} {body : List Statement} :
    ((fieldsOf ctx body).map Field.name).Nodup ↔ DistinctFields ctx body := by
  rw [map_name_fieldsOf, List.Nodup, List.pairwise_filterMap, DistinctFields]
  apply iff_of_eq
  congr 1
  funext s t
  simp only [declared?_eq_some, eq_iff_iff]
  constructor
  · rintro h name ⟨hs, ht⟩
    exact h name hs name ht rfl
  · rintro h name hs _ ht rfl
    exact h name ⟨hs, ht⟩

/-- The columns of an extracted entity are numbered without gaps, and their names differ exactly
if its class declares no field twice. -/
theorem columnNames_nodup_iff {bytes : List UInt8} {module : String} {package : Option String}
    {namespaceName : String} {file : Option String} {m : Marked}
    (hm : m ∈ marked (parse bytes) module package namespaceName file) :
    ∃ path ds body, ClassIn (parse bytes) path ds body ∧
      m.entity = entityAt (.ofStatements module package (parse bytes)) file path body ∧
      ∀ (fs : FileSystem) (schema : Schema) (cache : SourceCache),
        (Column.ofEntity fs schema cache m.entity).1.map Column.index =
            List.range (Column.ofEntity fs schema cache m.entity).1.length ∧
          (((Column.ofEntity fs schema cache m.entity).1.map Column.name).Nodup ↔
            DistinctFields (.ofStatements module package (parse bytes)) body) := by
  obtain ⟨path, ds, body, hclass, -, hentity⟩ := mem_marked.mp hm
  refine ⟨path, ds, body, hclass, hentity, ?_⟩
  intro fs schema cache
  constructor
  · rw [Column.ofEntity_eq, Column.map_index_ofFields, Column.ofFields, List.length_mapIdx]
  · have hperm := (FieldOrder.perm_sort fs cache m.entity).map Field.name
    have hfields : m.entity.fields =
        fieldsOf (.ofStatements module package (parse bytes)) body := by
      rw [hentity, entityAt]
    rw [Column.ofEntity_eq, Column.map_name_ofFields, hperm.nodup_iff, hfields,
      nodup_names_fieldsOf]

def barn : List UInt8 :=
  Utf8.encode ("from typing import ClassVar as V\nfrom tablegen.markers import table as t\n" ++
    "@t\nclass Cow:\n  tag: int\n  tag: V\n")

theorem columnNames_of_barn :
    ∃ m, m ∈ marked (parse barn) "zoo.a" none "tablegen.markers" none ∧
      (Column.ofEntity ⟨.empty, [], []⟩ (Schema.build [m.entity]) [] m.entity).1.map
        Column.name = ["tag"] ∧
      ∃ path ds body, ClassIn (parse barn) path ds body ∧
        m.entity = entityAt (.ofStatements "zoo.a" none (parse barn)) none path body ∧
        ∀ (fs : FileSystem) (schema : Schema) (cache : SourceCache),
          (Column.ofEntity fs schema cache m.entity).1.map Column.index =
              List.range (Column.ofEntity fs schema cache m.entity).1.length ∧
            (((Column.ofEntity fs schema cache m.entity).1.map Column.name).Nodup ↔
              DistinctFields (.ofStatements "zoo.a" none (parse barn)) body) := by
  obtain ⟨m, hm, hnames⟩ : ∃ m ∈ marked (parse barn) "zoo.a" none "tablegen.markers" none,
      (Column.ofEntity ⟨.empty, [], []⟩ (Schema.build [m.entity]) [] m.entity).1.map
        Column.name = ["tag"] := by
    decide +kernel
  exact ⟨m, hm, hnames, columnNames_nodup_iff hm⟩

theorem columnNames_repeated :
    ∃ m ∈ marked (parse (Utf8.encode ("from tablegen.markers import table\n\n" ++
        "@table\nclass A:\n    x: int\n    x: int\n"))) "zoo.a" (some "zoo") "tablegen.markers" none,
      ¬ ((Column.ofEntity ⟨.empty, [], []⟩ (Schema.build [m.entity]) [] m.entity).1.map
        Column.name).Nodup := by
  decide +kernel

end TypedTables.Source
