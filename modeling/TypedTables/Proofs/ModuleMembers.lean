import TypedTables.Proofs.Members
import TypedTables.Proofs.ModuleScope
import TypedTables.Round

namespace TypedTables

open Source

namespace ColumnType

def tablePrefixes : ColumnType → List String
  | .integer64 | .boolean | .string | .date => ["find_first_"]
  | _ => []

def viewPrefixes : ColumnType → List String
  | .integer64 => ["sum_", "max_", "min_"]
  | _ => []

def querySuffixes : ColumnType → List String
  | .integer64 | .date => ["_equal", "_not_equal", "_greater", "_less", "_between"]
  | .string => ["_equal", "_not_equal", "_contains", "_startswith", "_endswith"]
  | .boolean => ["_equal"]
  | _ => []

end ColumnType

namespace Column

def tableMembers (c : Column) : List String := c.type.tablePrefixes.map (· ++ c.name)

def viewMembers (c : Column) : List String := c.type.viewPrefixes.map (· ++ c.name)

def queryMembers (c : Column) : List String := c.type.querySuffixes.map (c.name ++ ·)

end Column

def fixedTableMembers : List String :=
  ["__init__", "__len__", "__getitem__", "__iter__", "add", "insert", "remove", "clear", "where",
    "view"]

def fixedViewMembers : List String :=
  ["__init__", "__len__", "__getitem__", "__iter__", "rows", "remove_all"]

section

variable (columns : List Column)

def tableMembers : List String := fixedTableMembers ++ columns.flatMap Column.tableMembers

def cursorMembers : List String :=
  ["__init__", "row"] ++ columns.map Column.name ++ ["as_dict", "__repr__"]

def viewMembers : List String := fixedViewMembers ++ columns.flatMap Column.viewMembers

def queryMembers : List String :=
  ["__init__", "_add", "predicates"] ++ columns.flatMap Column.queryMembers ++ ["find_all", "count"]

end

namespace Mark

def definitions (names : List String) : List Mark := names.map (fun name => .definition name.toList)

theorem names_definitions (names : List String) (rest : List Mark) :
    Mark.names (definitions names ++ rest) = names.map String.toList ++ Mark.names rest := by
  induction names with
  | nil => rfl
  | cons name names ih =>
      rw [definitions, List.map_cons, List.cons_append, names_definition, ← definitions, ih]
      rfl

theorem ofList_names (names : List String) :
    (Mark.names (definitions names)).map String.ofList = names := by
  have hnames := names_definitions names []
  rw [List.append_nil] at hnames
  rw [hnames, Mark.names, List.append_nil, List.map_map]
  simp [Function.comp_def]

theorem definitions_append (names more : List String) :
    definitions (names ++ more) = definitions names ++ definitions more := List.map_append

theorem definitions_flatMap {α : Type} (f : α → List String) (xs : List α) :
    definitions (xs.flatMap f) = xs.flatMap (fun x => definitions (f x)) := List.map_flatMap

end Mark

/-- The marks of a column in a cursor: a link has no setter. -/
def Column.cursorMarks (c : Column) : List Mark :=
  if c.type = .link then [.definition c.name.toList]
  else [.definition c.name.toList, .setter c.name.toList, .definition c.name.toList]

theorem Mark.names_cursorMarks (columns : List Column) (rest : List Mark) :
    Mark.names (columns.flatMap Column.cursorMarks ++ rest) =
      columns.map (fun c => c.name.toList) ++ Mark.names rest := by
  induction columns with
  | nil => rfl
  | cons c columns ih =>
      rw [List.flatMap_cons, List.append_assoc, Column.cursorMarks, List.map_cons]
      split
      · exact congrArg (c.name.toList :: ·) ih
      · rw [List.cons_append, List.cons_append, List.cons_append, List.nil_append,
          names_definition, names_property, ih]
        rfl

namespace EntityModel.Regular

variable {m : EntityModel}

theorem marks_imports (h : m.Regular) (name : String) (rest : List TemplatePart) :
    toldLines Mark.ofText (m.scope name)
        (.eachImport [.line ["import ", .value "module"]] :: rest) =
      toldLines Mark.ofText (m.scope name) rest := by
  rw [toldLines_eachImport, List.flatMap_eq_nil_iff.mpr, List.nil_append]
  intro module hmodule
  have hflat := h.modules_flat name module hmodule
  rw [toldLines_line, filledAll, filledAll, filledAll, TemplatePart.filled, TemplatePart.filled,
    shown_module, String.toList_ofList, Mark.ofText_plain (by decide) (by simp [hflat])]
  rfl

theorem marks_query (h : m.Regular) :
    toldLines Mark.ofText (m.scope (m.entity ++ "Query")) Template.queryTemplate =
      Mark.definitions (queryMembers m.columns) := by
  have hentity := h.entity_flat
  simp only [Template.queryTemplate, toldLines_nil, toldLines_line, toldLines_lines,
    h.marks_imports,
    toldLines_eachColumn _ _ _ _ _ _ (columnList_scope m _), filledAll, TemplatePart.filled,
    List.append_nil, List.flatMap_cons, List.flatMap_nil, shown_header, shown_entity, shown_name,
    passes_always, if_true, String.toList_append]
  rw [queryMembers, Mark.definitions_append, Mark.definitions_append, Mark.definitions_flatMap,
    List.flatMap_congr (g := fun c => Mark.definitions c.queryMembers)]
  · simp only [Mark.definitions, List.map_cons, List.map_nil, generatedHeader]
    repeat rw [String.toList_ofList]
    simp (disch := first | decide | simp [hentity]) only [Mark.ofText_plain, Mark.ofText_definition]
    rfl
  · intro c hc
    have hregular := h.columns c hc
    obtain ⟨hflat, hparen, -⟩ := hregular.not_mem_name
    have hindex := toDigits_flat c.index
    rw [Column.queryMembers]
    cases htype : c.type with
    | unsupported => exact absurd htype hregular.supported
    | link | binary | variant =>
        simp +decide only [toldLines_whenColumn, passes_typeIn, htype, ↓reduceIte, toldLines_nil,
          ColumnType.querySuffixes]
        rfl
    | _ =>
        have hparam := (hregular.types_flat (by simp [htype])).2
        simp +decide only [toldLines_whenColumn, passes_typeIn, htype, ↓reduceIte]
        simp only [toldLines_nil, toldLines_line, toldLines_lines, filledAll, TemplatePart.filled,
          List.flatMap_cons, List.flatMap_nil, List.append_nil, String.toList_append,
          shown_withColumn, shown_name, shownColumn_name, shownColumn_paramType,
          shownColumn_index, ColumnType.querySuffixes, Mark.definitions, List.map_cons,
          List.map_nil]
        repeat rw [String.toList_ofList]
        simp (disch := first | decide | simp [hflat, hparen, hindex, hparam, hentity]) only
          [Mark.ofText_plain, Mark.ofText_named]
        rfl

theorem marks_view (h : m.Regular) :
    toldLines Mark.ofText (m.scope (m.entity ++ "View")) Template.viewTemplate =
      Mark.definitions (viewMembers m.columns) := by
  have hentity := h.entity_flat
  simp only [Template.viewTemplate, toldLines_nil, toldLines_line, toldLines_lines,
    toldLines_eachColumn _ _ _ _ _ _ (columnList_scope m _), filledAll, TemplatePart.filled,
    List.append_nil, List.flatMap_cons, List.flatMap_nil, shown_header, shown_entity, shown_name,
    String.toList_append]
  rw [viewMembers, fixedViewMembers, Mark.definitions_append, Mark.definitions_flatMap,
    List.flatMap_congr (g := fun c => Mark.definitions c.viewMembers)]
  · simp only [Mark.definitions, List.map_cons, List.map_nil, generatedHeader]
    repeat rw [String.toList_ofList]
    simp (disch := first | decide | simp [hentity]) only [Mark.ofText_plain, Mark.ofText_definition]
    rfl
  · intro c hc
    obtain ⟨hflat, hparen, -⟩ := (h.columns c hc).not_mem_name
    have hindex := toDigits_flat c.index
    rw [Column.viewMembers, passes_typeIn]
    cases htype : c.type with
    | integer64 =>
        simp only [shownColumn_name, shownColumn_index, ColumnType.viewPrefixes, Mark.definitions,
          List.map_cons, List.map_nil, String.toList_append]
        repeat rw [String.toList_ofList]
        simp (disch := first | decide | simp [hflat, hparen, hindex]) only
          [Mark.ofText_plain, Mark.ofText_own_end]
        rfl
    | _ =>
        rw [if_neg (by decide)]
        rfl

theorem marks_cursor (h : m.Regular) :
    toldLines Mark.ofText (m.scope (m.entity ++ "")) Template.cursorTemplate =
      Mark.definitions ["__init__", "row"] ++ m.columns.flatMap Column.cursorMarks ++
        Mark.definitions ["as_dict", "__repr__"] := by
  have hentity := h.entity_flat
  simp only [Template.cursorTemplate, toldLines_nil, toldLines_line, toldLines_lines,
    h.marks_imports,
    toldLines_eachColumn _ _ _ _ _ _ (columnList_scope m _), filledAll, TemplatePart.filled,
    List.append_nil, List.flatMap_cons, List.flatMap_nil, shown_header, shown_entity, shown_name,
    passes_always, if_true, String.toList_append]
  have hentries : ∀ c ∈ m.columns,
      (if ((m.scope (m.entity ++ "")).withColumn c.toData).passes Template.settable then
        Mark.ofText ("            \"".toList ++
          (((m.scope (m.entity ++ "")).withColumn c.toData).shownColumn "name" ++
            ("\": self.".toList ++
              (((m.scope (m.entity ++ "")).withColumn c.toData).shownColumn "name" ++
                ",".toList)))) else []) = [] := by
    intro c hc
    obtain ⟨hflat, -⟩ := (h.columns c hc).not_mem_name
    rw [shownColumn_name]
    repeat rw [String.toList_ofList]
    rw [Mark.ofText_plain (by decide) (by simp [hflat]), ite_self]
  rw [List.flatMap_congr (g := Column.cursorMarks), List.flatMap_eq_nil_iff.mpr hentries]
  · simp only [Mark.definitions, List.map_cons, List.map_nil, generatedHeader]
    repeat rw [String.toList_ofList]
    simp (disch := first | decide | simp [hentity]) only [Mark.ofText_plain]
    rfl
  · intro c hc
    have hregular := h.columns c hc
    obtain ⟨hflat, hparen, hdot⟩ := hregular.not_mem_name
    have hindex := toDigits_flat c.index
    rw [Column.cursorMarks]
    cases htype : c.type with
    | unsupported => exact absurd htype hregular.supported
    | link =>
        have htarget := hregular.target_flat
        simp +decide only [toldLines_whenColumn, passes_typeIn, htype, ↓reduceIte]
        simp only [toldLines_nil, toldLines_line, toldLines_lines, filledAll, TemplatePart.filled,
          List.flatMap_cons, List.flatMap_nil, List.append_nil, shownColumn_name,
          shownColumn_target, shownColumn_index]
        repeat rw [String.toList_ofList]
        simp (disch := first | decide | simp [hflat, hparen, hindex, htarget]) only
          [Mark.ofText_plain, Mark.ofText_own_end]
        rfl
    | _ =>
        obtain ⟨hfield, hparam⟩ := hregular.types_flat (by simp [htype])
        have haccessor := accessor_flat c.type
        rw [htype] at haccessor
        simp +decide only [toldLines_nil, toldLines_line, toldLines_lines, toldLines_whenColumn,
          passes_typeIn, htype, ↓reduceIte, filledAll, TemplatePart.filled, List.flatMap_cons,
          List.flatMap_nil, List.append_nil, shownColumn_name, shownColumn_fieldType,
          shownColumn_paramType, shownColumn_index, accessorName_column]
        repeat rw [String.toList_ofList]
        simp (disch := first | decide |
          simp [hflat, hdot, hparen, hindex, hfield, hparam, haccessor]) only
          [Mark.ofText_plain, Mark.ofText_own, Mark.ofText_setter]
        rfl

theorem marks_setters (h : m.Regular) (rest : List TemplatePart) :
    toldLines Mark.ofText m.methodScope (Template.setters :: rest) =
      toldLines Mark.ofText m.methodScope rest := by
  rw [Template.setters, toldLines_eachColumn _ _ _ _ _ _ (columnList_methodScope m)]
  simp only [passes_settable]
  rw [flatMap_ite, ← EntityModel.settable, List.flatMap_eq_nil_iff.mpr, List.nil_append]
  intro c hc
  obtain ⟨hregular, hfield, -⟩ := h.type_of_settable hc
  obtain ⟨hflat, -⟩ := hregular.not_mem_name
  have hfield := (accessorTypes_flat _ hfield).1
  have hindex := toDigits_flat c.index
  have haccessor := accessor_flat c.type
  simp only [toldLines_nil, toldLines_line, toldLines_whenColumn, filledAll, TemplatePart.filled,
    List.append_nil, shownColumn_name, shownColumn_fieldType, shownColumn_index,
    accessorName_column]
  repeat rw [String.toList_ofList]
  simp (disch := first | decide | simp [hflat, hindex, hfield, haccessor]) only
    [Mark.ofText_plain, ite_self]

theorem marks_row (h : m.Regular) {start : String} {lines : List String} (name : String)
    (hstart : Mark.isDefinition start.toList = true)
    (hname : (start.toList.drop 8).takeWhile (· ≠ '(') = name.toList)
    (hlines : lines.flatMap (fun line => Mark.ofText line.toList) = []) :
    toldLines Mark.ofText m.methodScope (rowTemplate start lines) = Mark.definitions [name] := by
  have hentity := h.entity_flat
  have hreturn : toldLines Mark.ofText m.methodScope
      [.line ["        return ", .value "entity", "(self._backend, _row)"]] = [] := by
    simp only [toldLines_nil, toldLines_line, filledAll, TemplatePart.filled, shown_methodEntity]
    repeat rw [String.toList_ofList]
    rw [Mark.ofText_plain (by decide) (by simp [hentity])]
    rfl
  rw [rowTemplate, toldLines_line, toldLines_lines, hlines, h.marks_setters, hreturn, filledAll,
    TemplatePart.filled, Mark.ofText_definition hstart h.parametersLine_flat, hname]
  rfl

theorem marks_add (h : m.Regular) :
    toldLines Mark.ofText m.methodScope Template.addTemplate = Mark.definitions ["add"] :=
  h.marks_row "add" (by decide) (by decide) (by decide)

theorem marks_insert (h : m.Regular) :
    toldLines Mark.ofText m.methodScope Template.insertTemplate = Mark.definitions ["insert"] :=
  h.marks_row "insert" (by decide) (by decide) (by decide)

theorem marks_table (h : m.Regular)
    (hadd : Template.addTemplate.render (EntityModel.methodContext m.entity m.columns) =
      .ok m.addMethod)
    (hinsert : Template.insertTemplate.render (EntityModel.methodContext m.entity m.columns) =
      .ok m.insertMethod) :
    toldLines Mark.ofText (m.scope (m.entity ++ "Table")) Template.tableTemplate =
      Mark.definitions (tableMembers m.columns) := by
  have hentity := h.entity_flat
  have hnested := bool_flat m.isNested
  have hlabel : ∀ c ∈ m.columns, Mark.ofText ("    (\"".toList ++ (c.name.toList ++
      ("\", \"".toList ++ (c.type.label.toList ++ "\"),".toList)))) = [] := by
    intro c hc
    obtain ⟨hflat, -⟩ := (h.columns c hc).not_mem_name
    have hlabel := label_flat c.type
    repeat rw [String.toList_ofList]
    exact Mark.ofText_plain (by decide) (by simp [hflat, hlabel])
  have haddMarks : Mark.ofText m.addMethod.toList = Mark.definitions ["add"] :=
    (Mark.ofText_of_render rfl hadd).trans h.marks_add
  have hinsertMarks : Mark.ofText m.insertMethod.toList = Mark.definitions ["insert"] :=
    (Mark.ofText_of_render rfl hinsert).trans h.marks_insert
  -- The part of the docstring that is there for nested entities only is kept as it is.
  have hstored : '\n' ∉ (TemplatePart.whenPresent "is_nested"
      [", stored as a sub-table of its parent row"]).filled (m.scope (m.entity ++ "Table")) := by
    rw [TemplatePart.filled]
    split
    · rw [filledAll, filledAll, TemplatePart.filled, String.toList_ofList]
      decide
    · exact List.not_mem_nil
  rw [Template.tableTemplate]
  generalize TemplatePart.whenPresent "is_nested" _ = stored at hstored ⊢
  simp only [toldLines_nil, toldLines_line, toldLines_lines, h.marks_imports,
    toldLines_eachColumn _ _ _ _ _ _ (columnList_scope m _), filledAll, TemplatePart.filled,
    List.append_nil, List.flatMap_cons, List.flatMap_nil, shown_header, shown_entity, shown_name,
    shown_isNested, shown_add, shown_insert, shown_withColumn, shownColumn_name, shownColumn_type,
    shownColumn_paramType, shownColumn_index, passes_always, if_true, String.toList_append]
  rw [haddMarks, hinsertMarks, List.flatMap_eq_nil_iff.mpr hlabel, tableMembers, fixedTableMembers,
    Mark.definitions_append, Mark.definitions_flatMap,
    List.flatMap_congr (g := fun c => Mark.definitions c.tableMembers)]
  · simp only [Mark.definitions, List.map_cons, List.map_nil, generatedHeader]
    generalize (Data.bool m.isNested).shown.toList = nested at hnested ⊢
    repeat rw [String.toList_ofList]
    simp (disch := first | decide | simp [hentity, hnested, hstored]) only
      [Mark.ofText_plain, Mark.ofText_definition]
    rfl
  · intro c hc
    have hregular := h.columns c hc
    obtain ⟨hflat, hparen, -⟩ := hregular.not_mem_name
    have hindex := toDigits_flat c.index
    rw [Column.tableMembers, passes_typeIn]
    cases htype : c.type with
    | integer64 | boolean | string | date =>
        have hparam := (hregular.types_flat (by simp [htype])).2
        simp only [ColumnType.tablePrefixes, Mark.definitions, List.map_cons, List.map_nil,
          String.toList_append]
        repeat rw [String.toList_ofList]
        simp (disch := first | decide | simp [hflat, hparen, hindex, hparam, hentity]) only
          [Mark.ofText_plain, Mark.ofText_own]
        rfl
    | _ =>
        rw [if_neg (by decide)]
        rfl

section

variable {text : String}

theorem members_table (h : m.Regular)
    (hadd : Template.addTemplate.render (EntityModel.methodContext m.entity m.columns) =
      .ok m.addMethod)
    (hinsert : Template.insertTemplate.render (EntityModel.methodContext m.entity m.columns) =
      .ok m.insertMethod)
    (hrender : Template.tableTemplate.render (m.context (m.entity ++ "Table")) = .ok text) :
    membersOf text = tableMembers m.columns := by
  rw [membersOf_of_render rfl hrender]
  exact (congrArg _ (congrArg _ (h.marks_table hadd hinsert))).trans (Mark.ofList_names _)

theorem members_cursor (h : m.Regular)
    (hrender : Template.cursorTemplate.render (m.context (m.entity ++ "")) = .ok text) :
    membersOf text = cursorMembers m.columns := by
  rw [membersOf_of_render rfl hrender]
  change (Mark.names (toldLines Mark.ofText (m.scope (m.entity ++ "")) _)).map String.ofList = _
  rw [h.marks_cursor, List.append_assoc, Mark.names_definitions, Mark.names_cursorMarks,
    List.map_append, List.map_append, Mark.ofList_names, List.map_map, List.map_map]
  simp [cursorMembers, Function.comp_def]

theorem members_view (h : m.Regular)
    (hrender : Template.viewTemplate.render (m.context (m.entity ++ "View")) = .ok text) :
    membersOf text = viewMembers m.columns := by
  rw [membersOf_of_render rfl hrender]
  exact (congrArg _ (congrArg _ h.marks_view)).trans (Mark.ofList_names _)

theorem members_query (h : m.Regular)
    (hrender : Template.queryTemplate.render (m.context (m.entity ++ "Query")) = .ok text) :
    membersOf text = queryMembers m.columns := by
  rw [membersOf_of_render rfl hrender]
  exact (congrArg _ (congrArg _ h.marks_query)).trans (Mark.ofList_names _)

end

end EntityModel.Regular

end TypedTables
