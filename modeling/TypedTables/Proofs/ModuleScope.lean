import TypedTables.Proofs.RegularColumn
import TypedTables.Proofs.Template.Lines
import TypedTables.Proofs.Walk

namespace TypedTables

open Text Source

def Column.isSettable (c : Column) : Bool := c.type ≠ .link && c.type ≠ .unsupported

namespace EntityModel

def scope (m : EntityModel) (name : String) : TemplateScope := ⟨m.context name, .null⟩

def methodScope (m : EntityModel) : TemplateScope := ⟨methodContext m.entity m.columns, .null⟩

def settable (m : EntityModel) : List Column := m.columns.filter Column.isSettable

structure Regular (m : EntityModel) : Prop where
  entity : IsName m.entity
  columns : ∀ c ∈ m.columns, c.Regular
  distinct : (m.columns.map Column.name).Nodup

end EntityModel

section

variable (m : EntityModel) (name : String)

theorem shown_entity : (m.scope name).shown "entity" = m.entity.toList := rfl

theorem shown_name : (m.scope name).shown "name" = name.toList := rfl

theorem shown_header : (m.scope name).shown "header" = generatedHeader.toList := rfl

theorem shown_isNested : (m.scope name).shown "is_nested" = (Data.bool m.isNested).shown.toList :=
  rfl

theorem shown_add : (m.scope name).shown "add" = m.addMethod.toList := rfl

theorem shown_insert : (m.scope name).shown "insert" = m.insertMethod.toList := rfl

theorem columnList_scope : (m.scope name).columnList = m.columns.map Column.toData := rfl

theorem shown_methodEntity : m.methodScope.shown "entity" = m.entity.toList := rfl

theorem columnList_methodScope : m.methodScope.columnList = m.columns.map Column.toData := rfl

end

section

variable (s : TemplateScope) (c : Column)

theorem shown_withColumn (d : Data) (key : String) : (s.withColumn d).shown key = s.shown key := rfl

theorem shown_module (module : String) :
    (s.withValue "module" (.text module)).shown "module" = module.toList := rfl

theorem shownColumn_name : (s.withColumn c.toData).shownColumn "name" = c.name.toList := rfl

theorem shownColumn_fieldType :
    (s.withColumn c.toData).shownColumn "field_type" = c.fieldType.toList := rfl

theorem shownColumn_paramType :
    (s.withColumn c.toData).shownColumn "param_type" = c.paramType.toList := rfl

theorem shownColumn_type : (s.withColumn c.toData).shownColumn "type" = c.type.label.toList := rfl

theorem shownColumn_index :
    (s.withColumn c.toData).shownColumn "index" = Nat.toDigits 10 c.index := by
  change (String.ofList (Nat.toDigits 10 c.index)).toList = _
  exact String.toList_ofList

theorem shownColumn_target : (s.withColumn c.toData).shownColumn "link_target" =
    ((c.link.map LinkTarget.name).getD "None").toList := by
  change (Data.shown (Data.ofText? (c.link.map LinkTarget.name))).toList = _
  cases c.link <;> rfl

theorem passes_always : (s.withColumn c.toData).passes .always = true := rfl

theorem passes_typeIn (types : List String) :
    (s.withColumn c.toData).passes (.typeIn types) = types.contains c.type.label := rfl

theorem passes_typeNotIn (types : List String) :
    (s.withColumn c.toData).passes (.typeNotIn types) = !types.contains c.type.label := rfl

theorem passes_settable : (s.withColumn c.toData).passes Template.settable = c.isSettable := by
  rw [Template.settable, passes_typeNotIn, Column.isSettable]
  cases c.type <;> decide

theorem accessorName_column : (s.withColumn c.toData).accessorName =
    ((backendAccessors.lookup c.type.label).getD "None").toList := rfl

end

theorem flatMap_ite {α β : Type} (p : α → Bool) (f : α → List β) (xs : List α) :
    xs.flatMap (fun x => if p x then f x else []) = (xs.filter p).flatMap f := by
  induction xs with
  | nil => rfl
  | cons x xs ih =>
      rw [List.flatMap_cons, List.filter_cons, ih]
      split
      · rw [List.flatMap_cons]
      · rfl

theorem filled_parameters (m : EntityModel) : Template.parameters.filled m.methodScope =
    m.settable.flatMap (fun c =>
      ',' :: ' ' :: (c.name.toList ++ ':' :: ' ' :: c.paramType.toList)) := by
  rw [Template.parameters, TemplatePart.filled, columnList_methodScope, List.flatMap_map,
    EntityModel.settable, ← flatMap_ite]
  refine List.flatMap_congr ?_
  intro c _
  rw [passes_settable]
  simp only [filledAll, TemplatePart.filled, shownColumn_name, shownColumn_paramType,
    List.append_nil]
  rfl

theorem columnWords_isNameChar :
    ∀ word ∈ "None" :: "Unsupported" :: (backendAccessors.unzip.1 ++ backendAccessors.unzip.2),
      word.toList.all isNameChar = true := by
  decide

theorem accessor_isNameChar (type : ColumnType) :
    ∀ c ∈ ((backendAccessors.lookup type.label).getD "None").toList, isNameChar c = true := by
  rw [← List.all_eq_true]
  refine columnWords_isNameChar _ ?_
  cases type <;> decide

theorem accessor_flat (type : ColumnType) :
    '\n' ∉ ((backendAccessors.lookup type.label).getD "None").toList := by
  intro hmem
  exact absurd (accessor_isNameChar type _ hmem) (by decide)

theorem accessorTypes_flat : ∀ type ∈ accessorTypes, '\n' ∉ type.toList ∧
    ∀ module ∈ moduleOf? (.text type), '\n' ∉ module.toList := by
  decide

theorem label_flat (type : ColumnType) : '\n' ∉ type.label.toList := by
  have hword := columnWords_isNameChar type.label (by cases type <;> decide)
  intro hmem
  exact absurd (List.all_eq_true.mp hword _ hmem) (by decide)

theorem toDigits_flat (n : Nat) : '\n' ∉ Nat.toDigits 10 n := by
  intro hmem
  exact absurd (Nat.isDigit_of_mem_toDigits (by decide) (by decide) hmem) (by decide)

theorem bool_flat (b : Bool) : '\n' ∉ (Data.bool b).shown.toList := by
  revert b
  decide

theorem columnModules_link {c : Column} (hlink : c.type = .link) :
    columnModules c.toData = .ok [] := by
  obtain ⟨name, type, declared, field, param, index, link⟩ := c
  obtain rfl : type = .link := hlink
  rfl

theorem columnModules_types {c : Column} (hlink : c.type ≠ .link)
    (hsupported : c.type ≠ .unsupported) :
    columnModules c.toData =
      .ok ([Data.text c.fieldType, .text c.paramType].filterMap moduleOf?) := by
  obtain ⟨name, type, declared, field, param, index, link⟩ := c
  cases type with
  | link => exact absurd rfl hlink
  | unsupported => exact absurd rfl hsupported
  | _ => rfl

namespace Column.Regular

variable {c : Column}

theorem not_mem_name (h : c.Regular) :
    '\n' ∉ c.name.toList ∧ '(' ∉ c.name.toList ∧ '.' ∉ c.name.toList :=
  ⟨h.name.1.not_mem (by decide), h.name.1.not_mem (by decide), h.name.1.not_mem (by decide)⟩

theorem types_flat (h : c.Regular) (hlink : c.type ≠ .link) :
    '\n' ∉ c.fieldType.toList ∧ '\n' ∉ c.paramType.toList :=
  ⟨(accessorTypes_flat _ (h.types hlink).1).1, (accessorTypes_flat _ (h.types hlink).2).1⟩

theorem target_flat (h : c.Regular) : '\n' ∉ ((c.link.map LinkTarget.name).getD "None").toList := by
  cases hlink : c.link with
  | none => decide
  | some target => exact (h.target target hlink).not_mem (by decide)

theorem exists_type_of_module (h : c.Regular) {modules : List String}
    (hmodules : columnModules c.toData = .ok modules) :
    ∀ module ∈ modules, ∃ type ∈ accessorTypes, moduleOf? (.text type) = some module := by
  by_cases hlink : c.type = .link
  · obtain rfl := Except.ok.inj ((columnModules_link hlink).symm.trans hmodules)
    simp
  · obtain rfl := Except.ok.inj ((columnModules_types hlink h.supported).symm.trans hmodules)
    obtain ⟨hfield, hparam⟩ := h.types hlink
    intro module hmodule
    obtain ⟨type, htype, hmoduleOf⟩ := List.mem_filterMap.mp hmodule
    rcases List.mem_pair.mp htype with rfl | rfl
    · exact ⟨_, hfield, hmoduleOf⟩
    · exact ⟨_, hparam, hmoduleOf⟩

end Column.Regular

theorem exists_type_of_moduleList {m : EntityModel} (h : ∀ c ∈ m.columns, c.Regular)
    (name : String) : ∀ module ∈ (m.scope name).moduleList,
      ∃ type ∈ accessorTypes, moduleOf? (.text type) = some module := by
  intro module hmodule
  change module ∈ (typeImports (m.columns.map Column.toData)).toOption.getD [] at hmodule
  cases hmodules : (m.columns.map Column.toData).mapM columnModules with
  | error e => simp [typeImports, hmodules, bind, Except.bind, Except.toOption] at hmodule
  | ok lists =>
      simp only [typeImports, hmodules, bind, Except.bind, Except.toOption, Option.getD_some,
        mem_sortedSet] at hmodule
      obtain ⟨modules, hlist, hmem⟩ := List.mem_flatten.mp hmodule
      obtain ⟨d, hd, hcolumn⟩ := exists_of_mem_mapM hmodules hlist
      obtain ⟨c, hc, rfl⟩ := List.mem_map.mp hd
      exact (h c hc).exists_type_of_module hcolumn module hmem

def parametersLine : List TemplatePart :=
  [Template.parameters, .text ") -> ", .value "entity", .text ":"]

def rowTemplate (start : String) (lines : List String) : Template := [
  .line (.text start :: parametersLine),
  .lines lines,
  Template.setters,
  .line ["        return ", .value "entity", "(self._backend, _row)"]]

namespace EntityModel.Regular

variable {m : EntityModel}

theorem entity_flat (h : m.Regular) : '\n' ∉ m.entity.toList := h.entity.not_mem (by decide)

theorem type_of_settable (h : m.Regular) {c : Column}
    (hc : c ∈ m.settable) :
    c.Regular ∧ c.fieldType ∈ accessorTypes ∧ c.paramType ∈ accessorTypes := by
  obtain ⟨hc, hsettable⟩ := List.mem_filter.mp hc
  simp only [Column.isSettable, Bool.and_eq_true, decide_eq_true_eq] at hsettable
  exact ⟨h.columns c hc, (h.columns c hc).types hsettable.1⟩

theorem not_mem_parameters (h : m.Regular) {d : Char}
    (hname : isNameChar d = false) (htypes : ∀ type ∈ accessorTypes, d ∉ type.toList)
    (hmarks : d ∉ [',', ' ', ':']) : d ∉ Template.parameters.filled m.methodScope := by
  rw [filled_parameters]
  intro hmem
  obtain ⟨c, hc, hmem⟩ := List.mem_flatMap.mp hmem
  obtain ⟨hregular, -, hparam⟩ := h.type_of_settable hc
  have hnot := hregular.name.1.not_mem hname
  have htype := htypes _ hparam
  simp at hmarks hmem
  simp [hmarks, hnot, htype] at hmem

theorem parameters_flat (h : m.Regular) : '\n' ∉ Template.parameters.filled m.methodScope :=
  h.not_mem_parameters (by decide) (fun type htype => (accessorTypes_flat type htype).1) (by decide)

theorem parametersLine_flat (h : m.Regular) : '\n' ∉ filledAll m.methodScope parametersLine := by
  have hentity := h.entity_flat
  have hparameters := h.parameters_flat
  simp only [parametersLine, filledAll, TemplatePart.filled, shown_methodEntity]
  repeat rw [String.toList_ofList]
  simp [hparameters, hentity]

theorem modules_flat (h : m.Regular) (name : String) :
    ∀ module ∈ (m.scope name).moduleList, '\n' ∉ module.toList := by
  intro module hmodule
  obtain ⟨type, htype, hmoduleOf⟩ := exists_type_of_moduleList h.columns name module hmodule
  exact (accessorTypes_flat type htype).2 module hmoduleOf

end EntityModel.Regular

end TypedTables
