import TypedTables.Proofs.ModuleScope
import TypedTables.Proofs.Sorted

/-!
Imports for the types of columns. Generated code imports the modules in which the types of its
accessors stand, each of them once. These types are words of a fixed vocabulary, so that no
declared type brings in a module of its own.
-/

namespace TypedTables

open Text

def StandsIn (type module : String) : Prop :=
  ∃ name, '.' ∉ name.toList ∧ type = module ++ "." ++ name

theorem moduleOf?_eq_some {type module : String} (h : '[' ∉ type.toList) :
    moduleOf? (.text type) = some module ↔ StandsIn type module := by
  have hmodule : moduleOf? (.text type) = (beforeLast? '.' type.toList).map String.ofList := by
    rw [moduleOf?, takeWhile_of_not_mem h]
  rw [hmodule, Option.map_eq_some_iff]
  constructor
  · rintro ⟨before, hbefore, rfl⟩
    obtain ⟨after, hafter, hchars⟩ := beforeLast?_eq_some.mp hbefore
    refine ⟨String.ofList after, by rwa [String.toList_ofList], String.toList_inj.mp ?_⟩
    simp [hchars]
  · rintro ⟨name, hname, rfl⟩
    exact ⟨module.toList, beforeLast?_eq_some.mpr ⟨name.toList, hname, by simp⟩,
      String.ofList_toList⟩

theorem accessorTypes_bare : ∀ type ∈ accessorTypes, '[' ∉ type.toList := by
  decide

theorem moduleOf?_accessorTypes : ∀ type ∈ accessorTypes, ∀ module ∈ moduleOf? (.text type),
    module ∈ ["ctypes", "datetime", "numpy", "tablegen.mixed"] := by
  decide

namespace Column

def modules (c : Column) : List String :=
  if c.isSettable then [Data.text c.fieldType, .text c.paramType].filterMap moduleOf? else []

theorem isSettable_iff {c : Column} :
    c.isSettable = true ↔ c.type ≠ .link ∧ c.type ≠ .unsupported := by
  rw [isSettable, Bool.and_eq_true, decide_eq_true_eq, decide_eq_true_eq]

theorem columnModules_toData (c : Column) : columnModules c.toData = .ok c.modules := by
  rw [modules]
  by_cases hset : c.isSettable = true
  · obtain ⟨hlink, hsupported⟩ := isSettable_iff.mp hset
    rw [if_pos hset, columnModules_types hlink hsupported]
  · rw [if_neg hset]
    obtain ⟨name, type, declared, field, param, index, link⟩ := c
    cases type with
    | link => rfl
    | unsupported => rfl
    | _ => exact absurd rfl hset

theorem mem_modules {c : Column} {module : String} : module ∈ c.modules ↔
    c.isSettable = true ∧ (moduleOf? (.text c.fieldType) = some module ∨
      moduleOf? (.text c.paramType) = some module) := by
  rw [modules]
  by_cases hset : c.isSettable = true
  · rw [if_pos hset, List.mem_filterMap]
    simp [hset]
  · rw [if_neg hset]
    simp [hset]

/-- Whatever the declared types are, the accessors of a column are typed by the vocabulary. -/
theorem types_ofFields {fields : List Field} {schema : Schema} {c : Column}
    (hc : c ∈ ofFields fields schema) (hset : c.isSettable = true) :
    c.fieldType ∈ accessorTypes ∧ c.paramType ∈ accessorTypes := by
  obtain ⟨hlink, hsupported⟩ := isSettable_iff.mp hset
  obtain ⟨i, hi, rfl⟩ := List.mem_mapIdx.mp hc
  have htext := text_mem_of_columnType hsupported hlink
  exact ⟨storedType_mem htext, acceptedType_mem htext⟩

end Column

theorem typeImports_toData (columns : List Column) :
    typeImports (columns.map Column.toData) = .ok (sortedSet (columns.flatMap Column.modules)) := by
  have hlists : (columns.map Column.toData).mapM columnModules =
      .ok (columns.map Column.modules) := by
    rw [List.mapM_map]
    exact Source.mapM_eq_ok fun c _ => c.columnModules_toData
  rw [typeImports, hlists]
  rfl

/-- The imports of columns are the modules of the types of their accessors, in order, and none but
those of the vocabulary. They are what the import lines of a template are filled in with. -/
theorem typeImports_ofFields (fields : List Field) (schema : Schema) :
    ∃ modules, typeImports ((Column.ofFields fields schema).map Column.toData) = .ok modules ∧
      (∀ (m : EntityModel) (name : String),
        ({ m with columns := Column.ofFields fields schema }.scope name).moduleList = modules) ∧
      modules.Pairwise (· < ·) ∧
      (∀ module, module ∈ modules ↔ ∃ c ∈ Column.ofFields fields schema,
        c.type ≠ .link ∧ c.type ≠ .unsupported ∧
          (StandsIn c.fieldType module ∨ StandsIn c.paramType module)) ∧
      ∀ module ∈ modules, module ∈ ["ctypes", "datetime", "numpy", "tablegen.mixed"] := by
  have himports := typeImports_toData (Column.ofFields fields schema)
  refine ⟨_, himports, ?_, pairwise_sortedSet _, ?_, ?_⟩
  · intro m name
    change (typeImports ((Column.ofFields fields schema).map Column.toData)).toOption.getD [] = _
    rw [himports]
    rfl
  · intro module
    rw [mem_sortedSet, List.mem_flatMap]
    refine exists_congr fun c => and_congr_right fun hc => ?_
    rw [Column.mem_modules, Column.isSettable_iff, and_assoc]
    refine and_congr_right fun hlink => and_congr_right fun hsupported => ?_
    have hset : c.isSettable = true := Column.isSettable_iff.mpr ⟨hlink, hsupported⟩
    obtain ⟨hfield, hparam⟩ := Column.types_ofFields hc hset
    rw [moduleOf?_eq_some (accessorTypes_bare _ hfield),
      moduleOf?_eq_some (accessorTypes_bare _ hparam)]
  · intro module hmodule
    obtain ⟨c, hc, hmodule⟩ := List.mem_flatMap.mp (mem_sortedSet.mp hmodule)
    obtain ⟨hset, hmodule⟩ := Column.mem_modules.mp hmodule
    obtain ⟨hfield, hparam⟩ := Column.types_ofFields hc hset
    exact hmodule.elim (moduleOf?_accessorTypes _ hfield module)
      (moduleOf?_accessorTypes _ hparam module)

/-- Links and unsupported types bring in nothing, wherever they are declared. -/
example :
    typeImports ((Column.ofFields [
      ⟨"born", ⟨"dt.datetime", "datetime.datetime", "", .name⟩, none⟩,
      ⟨"mood", ⟨"Mood", "zoo.moods.Mood", "", .name⟩, none⟩,
      ⟨"extra", ⟨"Any", "typing.Any", "", .name⟩, none⟩,
      ⟨"price", ⟨"Decimal", "decimal.Decimal", "", .name⟩, none⟩]
      (.build [⟨"zoo.dog.Dog", "Dog", [],
        [⟨"mood", ⟨"Mood", "zoo.moods.Mood", "", .name⟩, none⟩], none⟩,
        ⟨"zoo.moods.Mood", "Mood", [], [], none⟩])).map Column.toData) =
      .ok ["datetime", "tablegen.mixed"] := by
  rfl

end TypedTables
