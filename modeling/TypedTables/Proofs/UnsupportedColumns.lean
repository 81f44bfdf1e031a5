import TypedTables.Proofs.FieldNames
import TypedTables.Proofs.ModuleScope
import TypedTables.Proofs.PhysicalLines
import TypedTables.Proofs.Template.Overlooked

/-!
What an unsupported column leaves in generated code: a note in the module of the cursor, and its
entry among the columns of the table. The note holds the declared type as it is written, so it is a
comment from end to end only if the type stays a comment in all of its lines.
-/

namespace TypedTables

open Text Source Template

namespace Column

def noteStart (c : Column) : List Char :=
  "    # ".toList ++ c.name.toList ++ ": unsupported type ".toList

def noteType (c : Column) : List Char :=
  c.declaredType.toList ++ ", no accessor generated".toList

def note (c : Column) : List Char :=
  '\n' :: (c.noteStart ++ c.noteType ++ ['\n'])

def entry (c : Column) : List Char :=
  "    (\"".toList ++ c.name.toList ++ "\", \"".toList ++ c.type.label.toList ++ "\"),".toList

end Column

def entryLines (columns : List Column) : List Char :=
  unlines ("COLUMNS = (".toList :: columns.map Column.entry ++ [")".toList])

/-- The note is a comment as far as its first line goes. Whether all of it is, the other lines of
the declared type decide. -/
theorem inert_note_iff {c : Column} (hname : SingleLine c.name.toList) :
    (∀ line ∈ physicalLines c.note, Inert line) ↔
      ∀ line ∈ (physicalLines c.noteType).tail, Inert line := by
  obtain ⟨first, others, htype⟩ := exists_physicalLines c.noteType
  have hstart : SingleLine c.noteStart := by
    unfold Column.noteStart
    exact (SingleLine.append (by decide) hname).append (by decide)
  have hcomment : Inert (c.noteStart ++ first) := by
    have hshape : c.noteStart ++ first = "    ".toList ++
        '#' :: (' ' :: c.name.toList ++ ": unsupported type ".toList ++ first) := by
      unfold Column.noteStart
      simp only [List.append_assoc, List.cons_append]
      rfl
    rw [hshape]
    exact inert_comment (List.all_eq_true.mp (by decide)) _
  unfold Column.note
  rw [physicalLines_break (by decide), physicalLines_append_break (by decide),
    physicalLines_append hstart htype, htype]
  constructor
  · intro h line hline
    exact h line (List.mem_cons_of_mem _ (List.mem_append_left _ (List.mem_cons_of_mem _ hline)))
  · intro h line hline
    have hcases : line = [] ∨ line = c.noteStart ++ first ∨ line ∈ others := by
      simpa [physicalLines, or_comm, or_assoc] using hline
    rcases hcases with rfl | rfl | hothers
    · exact inert_nil
    · exact hcomment
    · exact h line hothers

theorem columnModules_unsupported {c : Column} (hc : c.type = .unsupported) :
    columnModules c.toData = .ok [] := by
  obtain ⟨name, type, declared, field, param, index, link⟩ := c
  obtain rfl : type = .unsupported := hc
  rfl

def EntityModel.withColumns (m : EntityModel) (columns : List Column) : EntityModel :=
  { m with columns := columns }

section

variable {m : EntityModel} {before after : List Column} {c : Column}

theorem adds_context (hsplit : m.columns = before ++ c :: after) (hc : c.type = .unsupported)
    (name : String) :
    TemplateScope.Adds c before after (m.scope name)
      ((m.withColumns (before ++ after)).scope name) := by
  refine TemplateScope.adds_of_columns ⟨?_, rfl⟩ ?_ rfl (columnModules_unsupported hc)
  · intro other hother
    simp only [TemplateScope.value, EntityModel.scope, EntityModel.context,
      EntityModel.withColumns, List.lookup_cons, beq_eq_false_iff_ne.mpr hother]
  · rw [← hsplit]
    rfl

theorem adds_methodContext (hsplit : m.columns = before ++ c :: after) (hc : c.type = .unsupported)
    :
    TemplateScope.Adds c before after m.methodScope
      (m.withColumns (before ++ after)).methodScope := by
  refine TemplateScope.adds_of_columns ⟨?_, rfl⟩ ?_ rfl (columnModules_unsupported hc)
  · intro other hother
    simp only [TemplateScope.value, EntityModel.methodScope, EntityModel.methodContext,
      EntityModel.withColumns, List.lookup_cons, beq_eq_false_iff_ne.mpr hother]
  · rw [← hsplit]
    rfl

theorem overlook_unsupported :
    ∀ template ∈ [viewTemplate, queryTemplate, addTemplate, insertTemplate],
      allOverlook .unsupported template = true := by
  simp only [List.forall_mem_cons]
  decide

def noteParts : List TemplatePart := [
  .lines [""],
  .line ["    # ", .column "name", ": unsupported type ", .column "original_type",
    ", no accessor generated"]]

/-- What the cursor gives for a column, with what it gives for other columns left open. -/
def accessorParts (link other : List TemplatePart) : List TemplatePart := [
  .whenColumn (.typeIn ["Link"]) link [
    .whenColumn (.typeIn ["Unsupported"]) noteParts other]]

theorem cursorTemplate_split : ∃ first link other rest,
    cursorTemplate = first ++ .eachColumn .always (accessorParts link other) :: rest ∧
      (allOverlook .unsupported first = true ∧ allOverlook .unsupported rest = true) ∧
      areLocal (accessorParts link other) = true ∧
      (areLines first = true ∧ areLines rest = true) ∧
      areLines (accessorParts link other) = true :=
  ⟨cursorTemplate.take 8, _, _, cursorTemplate.drop 9, rfl, by decide⟩

theorem columnText_accessorParts (s : TemplateScope) (link other : List TemplatePart)
    (hc : c.type = .unsupported) :
    columnText s .always (accessorParts link other) c = c.note := by
  have hlink : ColumnTest.admits .unsupported (.typeIn ["Link"]) = false := by decide
  have hown : ColumnTest.admits .unsupported (.typeIn ["Unsupported"]) = true := by decide
  have hdeclared :
      (s.withColumn c.toData).shownColumn "original_type" = c.declaredType.toList := rfl
  rw [columnText_always]
  simp only [accessorParts, noteParts, filledAll, TemplatePart.filled, passes_eq_admits, hc, hlink,
    hown, shownColumn_name, hdeclared]
  unfold Column.note Column.noteStart Column.noteType
  simp

theorem render_scope {template : Template} (h : scopedAll moduleValues false template = true)
    (m : EntityModel) (name : String) :
    template.render (m.context name) = .ok (String.ofList (filledAll (m.scope name) template)) :=
  render_context h m name

theorem render_cursor (hsplit : m.columns = before ++ c :: after) (hc : c.type = .unsupported)
    (name : String) : ∃ above below,
    cursorTemplate.render (m.context name) =
      .ok (String.ofList (unlines above ++ c.note ++ unlines below)) ∧
    cursorTemplate.render ((m.withColumns (before ++ after)).context name) =
      .ok (String.ofList (unlines above ++ unlines below)) := by
  have hscoped := scoped_modules cursorTemplate (by simp)
  obtain ⟨first, link, other, rest, hparts, ⟨hfirst, hrest⟩, hlocal, ⟨habove, hbelow⟩, hbody⟩ :=
    cursorTemplate_split
  obtain ⟨hwith, hwithout⟩ := filledAll_insert (adds_context hsplit hc name) .always
    (by rwa [hc]) (by rwa [hc]) hlocal habove hbelow hbody
  rw [columnText_accessorParts _ link other hc] at hwith
  rw [← hparts] at hwith hwithout
  rw [render_scope hscoped, render_scope hscoped, hwith, hwithout]
  exact ⟨_, _, rfl, rfl⟩

def entryParts : List TemplatePart := [
  .line ["    (\"", .column "name", "\", \"", .column "type", "\"),"]]

theorem tableTemplate_split : ∃ first rest,
    tableTemplate = first ++ .lines ["", "COLUMNS = ("] :: .eachColumn .always entryParts ::
        .lines [")", "", ""] :: rest ∧
      (allOverlook .unsupported first = true ∧ allOverlook .unsupported rest = true) ∧
      areLines first = true ∧ areLines rest = true :=
  ⟨tableTemplate.take 8, tableTemplate.drop 11, by rfl, by decide⟩

theorem columnText_entryParts (s : TemplateScope) (d : Column) :
    columnText s .always entryParts d = d.entry ++ ['\n'] := by
  rw [columnText_always]
  simp only [entryParts, filledAll, TemplatePart.filled, shownColumn_name, shownColumn_type]
  unfold Column.entry
  simp only [List.append_assoc, List.append_nil]

theorem filledAll_entries (s : TemplateScope) {columns : List Column}
    (hcolumns : s.columnList = columns.map Column.toData) (rest : List TemplatePart) :
    filledAll s (.lines ["", "COLUMNS = ("] :: .eachColumn .always entryParts ::
        .lines [")", "", ""] :: rest) =
      unlines [[]] ++ entryLines columns ++ (unlines [[], []] ++ filledAll s rest) := by
  have hentries : columns.flatMap (columnText s .always entryParts) =
      unlines (columns.map Column.entry) := by
    rw [unlines, List.flatMap_map]
    exact List.flatMap_congr (fun d _ => columnText_entryParts s d)
  rw [filledAll, filledAll, filledAll, filled_eachColumn hcolumns, hentries]
  simp [TemplatePart.filled, entryLines, unlines]

theorem render_table (hsplit : m.columns = before ++ c :: after) (hc : c.type = .unsupported)
    (name : String) : ∃ above below,
    tableTemplate.render (m.context name) =
      .ok (String.ofList (unlines above ++ entryLines (before ++ c :: after) ++ unlines below)) ∧
    tableTemplate.render ((m.withColumns (before ++ after)).context name) =
      .ok (String.ofList (unlines above ++ entryLines (before ++ after) ++ unlines below)) := by
  have hscoped := scoped_modules tableTemplate (by simp)
  obtain ⟨first, rest, hparts, ⟨hfirst, hrest⟩, habove, hbelow⟩ := tableTemplate_split
  have hs := adds_context hsplit hc name
  rw [render_scope hscoped, render_scope hscoped, hparts, filledAll_append, filledAll_append,
    filledAll_entries _ hs.columns, filledAll_entries _ hs.others,
    filledAll_of_allOverlook hs first (by rwa [hc]), filledAll_of_allOverlook hs rest (by rwa [hc]),
    filledAll_eq_lines _ first habove, filledAll_eq_lines _ rest hbelow, ← unlines_append]
  generalize linesOfAll _ first = above
  generalize linesOfAll _ rest = below
  refine ⟨above ++ [[]], [[], []] ++ below, ?_, ?_⟩ <;>
    rw [unlines_append above, ← List.append_assoc, ← List.append_assoc]

/-- What a column leaves in the modules of a model: a note in the cursor, its entry in the table,
and nothing in the other templates. -/
structure EntityModel.OnlyNoted (m : EntityModel) (before : List Column) (c : Column)
    (after : List Column) : Prop where
  cursor : ∀ name, ∃ above below,
    cursorTemplate.render (m.context name) =
      .ok (String.ofList (unlines above ++ c.note ++ unlines below)) ∧
    cursorTemplate.render ((m.withColumns (before ++ after)).context name) =
      .ok (String.ofList (unlines above ++ unlines below))
  table : ∀ name, ∃ above below,
    tableTemplate.render (m.context name) =
      .ok (String.ofList (unlines above ++ entryLines (before ++ c :: after) ++ unlines below)) ∧
    tableTemplate.render ((m.withColumns (before ++ after)).context name) =
      .ok (String.ofList (unlines above ++ entryLines (before ++ after) ++ unlines below))
  modules : ∀ template ∈ [viewTemplate, queryTemplate], ∀ name, ∃ text,
    template.render (m.context name) = .ok text ∧
    template.render ((m.withColumns (before ++ after)).context name) = .ok text
  methods : ∀ template ∈ [addTemplate, insertTemplate], ∃ text,
    template.render (EntityModel.methodContext m.entity m.columns) = .ok text ∧
    template.render (EntityModel.methodContext m.entity (before ++ after)) = .ok text

theorem onlyNoted (hsplit : m.columns = before ++ c :: after) (hc : c.type = .unsupported) :
    m.OnlyNoted before c after where
  cursor := render_cursor hsplit hc
  table := render_table hsplit hc
  modules := by
    intro template htemplate name
    have hscoped := scoped_modules template (by simp at htemplate ⊢; tauto)
    have hoverlook := overlook_unsupported template (by simp at htemplate ⊢; tauto)
    have hfilled := filledAll_of_allOverlook (adds_context hsplit hc name) template (hc ▸ hoverlook)
    rw [render_scope hscoped, render_scope hscoped, hfilled]
    exact ⟨_, rfl, rfl⟩
  methods := by
    intro template htemplate
    have hscoped := scoped_methods template htemplate
    have hoverlook := overlook_unsupported template (by simp at htemplate ⊢; tauto)
    have hfilled := filledAll_of_allOverlook (adds_methodContext hsplit hc) template
      (hc ▸ hoverlook)
    rw [render_methodContext hscoped, render_methodContext hscoped]
    exact ⟨_, rfl, congrArg (fun text => Except.ok (String.ofList text)) hfilled.symm⟩

end

/-- An unsupported column of an extracted entity adds a note to its cursor and an entry to its
table. The note is free of code exactly if the declared type has no line of code behind its
first one. -/
theorem unsupported_noted {bytes : List UInt8} {module namespaceName : String}
    {package file : Option String} {source : Marked}
    (hsource : source ∈ marked (parse bytes) module package namespaceName file)
    (fs : FileSystem) (schema : Schema) (cache : SourceCache) {m : EntityModel}
    (hcolumns : m.columns = (Column.ofEntity fs schema cache source.entity).1)
    {before after : List Column} {c : Column} (hsplit : m.columns = before ++ c :: after)
    (hc : c.type = .unsupported) :
    m.OnlyNoted before c after ∧
      ((∀ line ∈ physicalLines c.note, Inert line) ↔
        ∀ line ∈ (physicalLines c.noteType).tail, Inert line) := by
  refine ⟨onlyNoted hsplit hc, inert_note_iff ?_⟩
  have hmem : c.name ∈ ((Column.ofEntity fs schema cache source.entity).1).map Column.name := by
    rw [← hcolumns, hsplit]
    simp
  rw [Column.ofEntity_eq, Column.map_name_ofFields] at hmem
  obtain ⟨f, hf, hname⟩ := List.mem_map.mp hmem
  have hfield : f ∈ source.entity.fields := (FieldOrder.perm_sort fs cache _).mem_iff.mp hf
  rw [← hname]
  exact (isFieldName_of_mem_marked hsource f hfield).1.singleLine

def shelf : List UInt8 :=
  Utf8.encode ("from tablegen.markers import table\n\n@table\nclass Shelf:\n" ++
    "    tags: dict[str, int]\n")

def shelfTags : Column :=
  ⟨"tags", .unsupported, "dict[str, int]", "dict[str, int]", "dict[str, int]", 0, none⟩

def shelfModel : EntityModel :=
  { entity := "Shelf", columns := [shelfTags], isNested := false, package := "zoo",
    qualifiedName := "zoo.a.Shelf", addMethod := "", insertMethod := "" }

theorem unsupported_noted_shelf :
    ∃ source ∈ marked (parse shelf) "zoo.a" none "tablegen.markers" none,
      [shelfTags] = (Column.ofEntity ⟨.empty, [], []⟩ (Schema.build []) [] source.entity).1 ∧
        shelfModel.OnlyNoted [] shelfTags [] ∧
        ((∀ line ∈ physicalLines shelfTags.note, Inert line) ↔
          ∀ line ∈ (physicalLines shelfTags.noteType).tail, Inert line) := by
  obtain ⟨source, hsource, hcolumns⟩ :
      ∃ source ∈ marked (parse shelf) "zoo.a" none "tablegen.markers" none,
        [shelfTags] = (Column.ofEntity ⟨.empty, [], []⟩ (Schema.build []) [] source.entity).1 := by
    decide +kernel
  exact ⟨source, hsource, hcolumns,
    unsupported_noted (m := shelfModel) hsource ⟨.empty, [], []⟩ (Schema.build []) [] hcolumns rfl
      rfl⟩

def splitTags : Column :=
  ⟨"tags", .unsupported, "dict[\n        str, int]", "dict[\n        str, int]",
    "dict[\n        str, int]", 0, none⟩

/-- The second line of a declared type stands in the cursor as code. -/
theorem code_in_note :
    (∃ source ∈ marked (parse (Utf8.encode ("from tablegen.markers import table\n\n@table\n" ++
        "class Shelf:\n    tags: dict[\n        str, int]\n"))) "zoo.a" none "tablegen.markers" none,
      [splitTags] = (Column.ofEntity ⟨.empty, [], []⟩ (Schema.build []) [] source.entity).1) ∧
    (shelfModel.withColumns [splitTags]).OnlyNoted [] splitTags [] ∧
    ¬ ∀ line ∈ physicalLines splitTags.note, Inert line :=
  ⟨by decide +kernel, onlyNoted rfl rfl, by decide +kernel⟩

end TypedTables
