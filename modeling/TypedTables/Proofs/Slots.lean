import TypedTables.Proofs.Calls
import TypedTables.Proofs.Column
import TypedTables.Proofs.UnsupportedColumns

/-!
The slots by which generated code reads and writes the columns of a row. Every call that names a
slot names the place of a column among the columns of the table, and the values of a whole row are
set in the order of their parameters.
-/

namespace TypedTables

open Source Template

namespace ColumnType

def accessor : ColumnType → List Char
  | .integer64 => "long".toList
  | .boolean => "bool".toList
  | .string => "string".toList
  | .date => "date".toList
  | .binary => "binary".toList
  | .link => "subtable".toList
  | .variant => "mixed".toList
  | .unsupported => "None".toList

def cursorCalls : ColumnType → List (List Char)
  | .link => ["self._backend.subtable".toList]
  | .unsupported => []
  | type => ["self._backend.get_".toList ++ type.accessor,
      "self._backend.set_".toList ++ type.accessor]

def viewCalls : ColumnType → List (List Char)
  | .integer64 => List.replicate 3 "self._backend.get_long".toList
  | _ => []

/-- The predicates of a query; the last one of integers and dates is added to the one before. -/
def queryCalls : ColumnType → List (List Char)
  | .integer64 | .date => List.replicate 5 "self._add".toList ++ ["._add".toList]
  | .string => List.replicate 5 "self._add".toList
  | .boolean => ["self._add".toList]
  | _ => []

def tableCalls : ColumnType → List (List Char)
  | .integer64 | .boolean | .string | .date => ["self._backend.find_first".toList]
  | _ => []

end ColumnType

namespace Column

def slot (c : Column) : List Piece := [.copied (Nat.toDigits 10 c.index)]

def callsFor (methods : ColumnType → List (List Char)) (c : Column) :
    List (List Char × Option (List Piece)) :=
  (methods c.type).map (fun method => (method, some c.slot))

def parameter (c : Column) : List Piece :=
  .copied c.name.toList :: written ": ".toList ++ [.copied c.paramType.toList]

def value (c : Column) : List Piece :=
  match c.type with
  | .binary => written "memoryview(".toList ++ .copied c.name.toList :: written ")".toList
  | .variant => .copied c.fieldType.toList :: written ".of(".toList ++
      .copied c.name.toList :: written ")".toList
  | _ => [.copied c.name.toList]

def setter (c : Column) : Call :=
  ⟨"self._backend.set_".toList ++ c.type.accessor, [c.slot, written "_row".toList, c.value]⟩

end Column

theorem accessorName_eq (s : TemplateScope) (c : Column) :
    (s.withColumn c.toData).accessorName = c.type.accessor := by
  rw [accessorName_column]
  cases c.type <;> rfl

theorem slot_eq (s : TemplateScope) (c : Column) :
    c.slot = [.copied ((s.withColumn c.toData).shownColumn "index")] := by
  rw [shownColumn_index]
  rfl

/-- A template in which one loop names slots, by the given calls for a column. -/
def SlotLoop (template : Template) (calls : ColumnType → List (List Char)) : Prop :=
  ∃ first test body rest, template = first ++ .eachColumn test body :: rest ∧
    Quiet first ∧ Quiet rest ∧ ∀ (s : TemplateScope) (c : Column),
      (if (s.withColumn c.toData).passes test then
        readLines slotCalls (s.withColumn c.toData) body else []).map Call.slot = c.callsFor calls

theorem SlotLoop.slots {template : Template} {calls : ColumnType → List (List Char)}
    (h : SlotLoop template calls) {s : TemplateScope} {columns : List Column}
    (hcolumns : s.columnList = columns.map Column.toData) :
    (readLines slotCalls s template).map Call.slot = columns.flatMap (Column.callsFor calls) := by
  obtain ⟨first, test, body, rest, rfl, hfirst, hrest, hbody⟩ := h
  rw [readLines_loop hcolumns hfirst hrest, List.map_flatMap]
  exact List.flatMap_congr (fun c _ => hbody s c)

theorem quiet_import : Quiet [.eachImport [.line ["import ", .value "module"]]] :=
  .eachImport (fun _ => rfl)

theorem slotLoop_view : SlotLoop viewTemplate ColumnType.viewCalls := by
  refine ⟨viewTemplate.take 13, _, _, [], by rfl, fun _ => rfl, fun _ => rfl, ?_⟩
  intro s c
  rw [Column.callsFor, slot_eq s, passes_eq_admits]
  cases c.type <;> rfl

theorem slotLoop_cursor : SlotLoop cursorTemplate ColumnType.cursorCalls := by
  -- part 3 imports modules and part 10 lists names; the accessors between them are part 8
  have hopening : Quiet (cursorTemplate.take 3) := fun _ => rfl
  have hclass : Quiet ((cursorTemplate.drop 4).take 4) := fun _ => rfl
  have hdict : Quiet ((cursorTemplate.drop 9).take 1) := fun _ => rfl
  have hrepr : Quiet (cursorTemplate.drop 11) := fun _ => rfl
  have hfirst : Quiet (cursorTemplate.take 8) := (hopening.append quiet_import).append hclass
  have hrest : Quiet (cursorTemplate.drop 9) :=
    (hdict.append (.eachColumn settable (fun _ => rfl))).append hrepr
  refine ⟨cursorTemplate.take 8, _, _, cursorTemplate.drop 9, by rfl, hfirst, hrest, ?_⟩
  intro s c
  rw [Column.callsFor, slot_eq s]
  simp only [readLines, pieceLinesOfAll, TemplatePart.pieceLines, piecesOfAll,
    TemplatePart.pieces, passes_eq_admits, accessorName_eq]
  cases c.type <;> rfl

theorem slotLoop_query : SlotLoop queryTemplate ColumnType.queryCalls := by
  have hopening : Quiet (queryTemplate.take 3) := fun _ => rfl
  have hclass : Quiet ((queryTemplate.drop 4).take 7) := fun _ => rfl
  have hfirst : Quiet (queryTemplate.take 11) := (hopening.append quiet_import).append hclass
  refine ⟨queryTemplate.take 11, _, _, queryTemplate.drop 12, by rfl, hfirst, fun _ => rfl, ?_⟩
  intro s c
  rw [Column.callsFor, slot_eq s]
  simp only [readLines, pieceLinesOfAll, TemplatePart.pieceLines, piecesOfAll,
    TemplatePart.pieces, passes_eq_admits]
  cases c.type <;> rfl

theorem Quiet.nestedDoc : Quiet [
    .line ["    \"\"\"Table of ", .value "entity", " rows",
      .whenPresent "is_nested" [", stored as a sub-table of its parent row"], ".\"\"\""]] := by
  intro s
  simp only [readLines, pieceLinesOfAll, TemplatePart.pieceLines, piecesOfAll,
    TemplatePart.pieces]
  cases s.has "is_nested" <;> rfl

theorem quiet_tableTemplate : Quiet (tableTemplate.take 30) := by
  -- part 9 lists the columns, and part 12 says whether the table is nested
  have hopening : Quiet (tableTemplate.take 3) := fun _ => rfl
  have himports : Quiet ((tableTemplate.drop 4).take 5) := fun _ => rfl
  have hclass : Quiet ((tableTemplate.drop 10).take 2) := fun _ => rfl
  have hmethods : Quiet ((tableTemplate.drop 13).take 17) := fun _ => rfl
  have hhead : Quiet (tableTemplate.take 9) := (hopening.append quiet_import).append himports
  have hentries : Quiet (tableTemplate.take 12) :=
    (hhead.append (.eachColumn .always (fun _ => rfl))).append hclass
  exact (hentries.append Quiet.nestedDoc).append hmethods

theorem slotLoop_table : SlotLoop tableTemplate ColumnType.tableCalls := by
  refine ⟨tableTemplate.take 30, _, _, [], by rfl, quiet_tableTemplate, fun _ => rfl, ?_⟩
  intro s c
  rw [Column.callsFor, slot_eq s, passes_eq_admits]
  cases c.type <;> rfl

theorem slotCalls_setters (m : EntityModel) :
    (setters.pieceLines m.methodScope).flatMap slotCalls = m.settable.map Column.setter := by
  rw [setters, flatMap_read_eachColumn slotCalls _ (columnList_methodScope m),
    EntityModel.settable, List.map_eq_flatMap, ← flatMap_ite]
  refine List.flatMap_congr ?_
  intro c _
  unfold Column.setter Column.value Column.isSettable
  rw [slot_eq m.methodScope]
  simp only [readLines, pieceLinesOfAll, TemplatePart.pieceLines, piecesOfAll,
    TemplatePart.pieces, passes_eq_admits, accessorName_eq]
  cases c.type <;> rfl

def Column.listed (c : Column) : List Piece := written ", ".toList ++ c.parameter

theorem pieces_parameters (m : EntityModel) :
    parameters.pieces m.methodScope = m.settable.flatMap Column.listed := by
  rw [parameters, TemplatePart.pieces, columnList_methodScope, List.flatMap_map,
    EntityModel.settable, ← flatMap_ite]
  refine List.flatMap_congr ?_
  intro c _
  rw [passes_settable]
  rfl

section

variable (columns : List Column) (rest : List Piece)

theorem argumentsIn_listed :
    argumentsIn 0 false (columns.flatMap Column.listed ++ .char ')' :: rest) =
      [] :: columns.map Column.parameter := by
  induction columns with
  | nil => rfl
  | cons c columns ih =>
      have hfirst : ∀ ps, argumentsIn 0 false (c.listed ++ ps) =
          [] :: extendFirst (.copied c.name.toList) (extendFirst (.char ':')
            (extendFirst (.char ' ') (extendFirst (.copied c.paramType.toList)
              (argumentsIn 0 false ps)))) := fun _ => rfl
      rw [List.flatMap_cons, List.append_assoc, hfirst, ih]
      rfl

theorem callsFrom_listed (word : List Char) :
    callsFrom word (columns.flatMap Column.listed ++ .char ')' :: rest) = callsFrom [] rest := by
  induction columns generalizing word with
  | nil => rfl
  | cons c columns ih =>
      have hfirst : ∀ ps, callsFrom word (c.listed ++ ps) = callsFrom [] ps := fun _ => rfl
      rw [List.flatMap_cons, List.append_assoc, hfirst, ih]

end

/-- The definition of a method, read off the line that opens it. `hstart` reads what stands before
the parameters of the columns. -/
theorem callsIn_opening {start : String} {name : List Char} (before : List (List Piece))
    (hstart : ∀ ps more, argumentsIn 0 false ps = [] :: more → ∃ word,
      callsIn (written start.toList ++ ps) = ⟨name, before ++ more⟩ :: callsFrom word ps)
    (m : EntityModel) :
    callsIn (piecesOfAll m.methodScope (.text start :: parametersLine)) =
      [⟨name, before ++ m.settable.map Column.parameter⟩] := by
  have hline : piecesOfAll m.methodScope (.text start :: parametersLine) =
      written start.toList ++ (m.settable.flatMap Column.listed ++
        .char ')' :: (written " -> ".toList ++ [.copied m.entity.toList, .char ':'])) := by
    rw [← pieces_parameters]
    rfl
  obtain ⟨word, hcalls⟩ := hstart _ _ (argumentsIn_listed m.settable _)
  rw [hline, hcalls, callsFrom_listed]
  rfl

theorem callsIn_add (m : EntityModel) :
    callsIn (piecesOfAll m.methodScope (.text "    def add(self" :: parametersLine)) =
      [⟨"add".toList, written "self".toList :: m.settable.map Column.parameter⟩] := by
  refine callsIn_opening [written "self".toList] ?_ m
  intro ps more hmore
  -- the word that is being read where the parameters start, backwards
  exact ⟨"fles".toList, congrArg (fun read => Call.mk "add".toList
    ((written "self".toList).foldr extendFirst read) :: callsFrom "fles".toList ps) hmore⟩

theorem callsIn_insert (m : EntityModel) :
    callsIn (piecesOfAll m.methodScope (.text "    def insert(self, _row: int" :: parametersLine)) =
      [⟨"insert".toList, written "self".toList :: written "_row: int".toList ::
        m.settable.map Column.parameter⟩] := by
  refine callsIn_opening [written "self".toList, written "_row: int".toList] ?_ m
  intro ps more hmore
  exact ⟨"tni".toList, congrArg (fun read => Call.mk "insert".toList (written "self".toList ::
    (written "_row: int".toList).foldr extendFirst read) :: callsFrom "tni".toList ps) hmore⟩

theorem readLines_method {m : EntityModel} {start : String} {lines : List String} {opening : Call}
    (hopening : callsIn (piecesOfAll m.methodScope (.text start :: parametersLine)) = [opening])
    (hname : opening.namesSlot = false) (hlines : Quiet [.lines lines]) :
    readLines slotCalls m.methodScope (rowTemplate start lines) =
      m.settable.map Column.setter := by
  have hreturn : Quiet [.line ["        return ", .value "entity", "(self._backend, _row)"]] :=
    fun _ => rfl
  have hparts : rowTemplate start lines = .line (.text start :: parametersLine) ::
      ([.lines lines] ++ setters ::
        [.line ["        return ", .value "entity", "(self._backend, _row)"]]) := rfl
  rw [hparts, readLines_cons, readLines_append, hlines, readLines_cons _ _ setters, hreturn,
    slotCalls_setters, TemplatePart.pieceLines, List.flatMap_singleton, slotCalls, hopening,
    List.filter_singleton, hname]
  simp

theorem render_pieces {template : Template} {names : List String} {context : List (String × Data)}
    (hs : (⟨context, .null⟩ : TemplateScope).Covers names false)
    (hscoped : scopedAll names false template = true) (hlines : areLines template = true) :
    template.render context = .ok (String.ofList (unlines
      ((pieceLinesOfAll ⟨context, .null⟩ template).map textOf))) := by
  rw [render_of_covers hs hscoped, filledAll_eq_lines _ template hlines,
    map_textOf_pieceLinesOfAll]

/-- Generated code keeps to the slots that the table lists: the slot of a column is its place among
the columns, in every call and for the values of a whole row. -/
structure EntityModel.SlotsAgree (m : EntityModel) : Prop where
  modules : ∀ template ∈ [tableTemplate, cursorTemplate, viewTemplate, queryTemplate], ∀ name,
    template.render (m.context name) = .ok (String.ofList (unlines
      ((pieceLinesOfAll (m.scope name) template).map textOf)))
  methods : ∀ template ∈ [addTemplate, insertTemplate],
    template.render (methodContext m.entity m.columns) = .ok (String.ofList (unlines
      ((pieceLinesOfAll m.methodScope template).map textOf)))
  numbered : m.columns.map Column.index = List.range m.columns.length
  listed : ∀ name, ∃ above below, tableTemplate.render (m.context name) =
    .ok (String.ofList (unlines above ++ entryLines m.columns ++ unlines below))
  add : (pieceLinesOfAll m.methodScope addTemplate).head?.map callsIn =
    some [⟨"add".toList, written "self".toList :: m.settable.map Column.parameter⟩]
  insert : (pieceLinesOfAll m.methodScope insertTemplate).head?.map callsIn =
    some [⟨"insert".toList, written "self".toList :: written "_row: int".toList ::
      m.settable.map Column.parameter⟩]
  setters : ∀ template ∈ [addTemplate, insertTemplate],
    readLines slotCalls m.methodScope template = m.settable.map Column.setter
  cursor : ∀ name, (readLines slotCalls (m.scope name) cursorTemplate).map Call.slot =
    m.columns.flatMap (Column.callsFor ColumnType.cursorCalls)
  view : ∀ name, (readLines slotCalls (m.scope name) viewTemplate).map Call.slot =
    m.columns.flatMap (Column.callsFor ColumnType.viewCalls)
  query : ∀ name, (readLines slotCalls (m.scope name) queryTemplate).map Call.slot =
    m.columns.flatMap (Column.callsFor ColumnType.queryCalls)
  table : ∀ name, (readLines slotCalls (m.scope name) tableTemplate).map Call.slot =
    m.columns.flatMap (Column.callsFor ColumnType.tableCalls)

theorem areLines_modules :
    ∀ template ∈ [tableTemplate, cursorTemplate, viewTemplate, queryTemplate],
      areLines template = true := by
  simp only [List.forall_mem_cons]
  decide

theorem areLines_methods : ∀ template ∈ [addTemplate, insertTemplate],
    areLines template = true := by
  simp only [List.forall_mem_cons]
  decide

theorem render_entries (m : EntityModel) (name : String) : ∃ above below,
    tableTemplate.render (m.context name) =
      .ok (String.ofList (unlines above ++ entryLines m.columns ++ unlines below)) := by
  have hscoped := scoped_modules tableTemplate (by simp)
  obtain ⟨first, rest, hparts, -, habove, hbelow⟩ := tableTemplate_split
  refine ⟨linesOfAll (m.scope name) first ++ [[]], [[], []] ++ linesOfAll (m.scope name) rest, ?_⟩
  rw [render_scope hscoped, hparts, filledAll_append,
    filledAll_entries _ (columnList_scope m name), filledAll_eq_lines _ first habove,
    filledAll_eq_lines _ rest hbelow, ← unlines_append, ← List.append_assoc, ← List.append_assoc,
    ← unlines_append]

theorem setters_of_methods (m : EntityModel) : ∀ template ∈ [addTemplate, insertTemplate],
    readLines slotCalls m.methodScope template = m.settable.map Column.setter := by
  simp only [List.forall_mem_cons]
  exact ⟨readLines_method (callsIn_add m) rfl (fun _ => rfl),
    readLines_method (callsIn_insert m) rfl (fun _ => rfl), nofun⟩

/-- For the columns of an entity, whatever they are, all generated code uses the slots that its
table lists. -/
theorem slots_agree (fs : FileSystem) (schema : Schema) (cache : SourceCache) (e : Entity)
    (m : EntityModel) : (m.withColumns (Column.ofEntity fs schema cache e).1).SlotsAgree where
  modules template htemplate name :=
    render_pieces (covers_context _ name) (scoped_modules template htemplate)
      (areLines_modules template htemplate)
  methods template htemplate :=
    render_pieces (covers_methodContext _ _) (scoped_methods template htemplate)
      (areLines_methods template htemplate)
  numbered := by
    simp only [EntityModel.withColumns]
    rw [Column.ofEntity_eq, Column.map_index_ofFields, Column.ofFields, List.length_mapIdx]
  listed := render_entries _
  add := congrArg some (callsIn_add _)
  insert := congrArg some (callsIn_insert _)
  setters := setters_of_methods _
  cursor name := slotLoop_cursor.slots (columnList_scope _ name)
  view name := slotLoop_view.slots (columnList_scope _ name)
  query name := slotLoop_query.slots (columnList_scope _ name)
  table name := slotLoop_table.slots (columnList_scope _ name)

end TypedTables
