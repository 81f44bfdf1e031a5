import TypedTables.Proofs.Template.Scoped

namespace TypedTables

def ColumnTest.admits (type : ColumnType) : ColumnTest → Bool
  | .always => true
  | .typeIn types => types.contains type.label
  | .typeNotIn types => !types.contains type.label

mutual

/-- Whether a part asks for nothing but single values and the data of the column at hand. -/
def TemplatePart.isLocal : TemplatePart → Bool
  | .text _ => true
  | .line parts => areLocal parts
  | .lines _ => true
  | .value name => name != "columns"
  | .column _ => true
  | .accessor => true
  | .eachColumn _ _ => false
  | .eachImport _ => false
  | .whenColumn _ yes no => areLocal yes && areLocal no
  | .whenPresent name body => name != "columns" && areLocal body

def areLocal : List TemplatePart → Bool
  | [] => true
  | part :: parts => part.isLocal && areLocal parts

end

mutual

def TemplatePart.isSilent (type : ColumnType) : TemplatePart → Bool
  | .whenColumn test yes no => if test.admits type then areSilent type yes else areSilent type no
  | _ => false

def areSilent (type : ColumnType) : List TemplatePart → Bool
  | [] => true
  | part :: parts => part.isSilent type && areSilent type parts

end

mutual

def TemplatePart.overlooks (type : ColumnType) : TemplatePart → Bool
  | .line parts => allOverlook type parts
  | .eachColumn test body => areLocal body && (!test.admits type || areSilent type body)
  | .eachImport body => areLocal body
  | .whenPresent name body => name != "columns" && allOverlook type body
  | .whenColumn _ _ _ => false
  | part => part.isLocal

def allOverlook (type : ColumnType) : List TemplatePart → Bool
  | [] => true
  | part :: parts => part.overlooks type && allOverlook type parts

end

structure TemplateScope.SameValues (s s' : TemplateScope) : Prop where
  values : ∀ name, name ≠ "columns" → s.value name = s'.value name
  column : s.column = s'.column

namespace TemplateScope.SameValues

variable {s s' : TemplateScope}

theorem withColumn (h : s.SameValues s') (d : Data) :
    (s.withColumn d).SameValues (s'.withColumn d) :=
  ⟨h.values, rfl⟩

theorem withValue (h : s.SameValues s') (name : String) (value : Data) :
    (s.withValue name value).SameValues (s'.withValue name value) := by
  refine ⟨?_, h.column⟩
  intro other hother
  have hvalues := h.values other hother
  simp only [TemplateScope.value, TemplateScope.withValue, List.lookup_cons] at hvalues ⊢
  cases other == name with
  | true => rfl
  | false => exact hvalues

theorem shown (h : s.SameValues s') {name : String} (hname : (name != "columns") = true) :
    s.shown name = s'.shown name := by
  rw [TemplateScope.shown, TemplateScope.shown, h.values name (bne_iff_ne.mp hname)]

theorem has (h : s.SameValues s') {name : String} (hname : (name != "columns") = true) :
    s.has name = s'.has name := by
  rw [TemplateScope.has, TemplateScope.has, h.values name (bne_iff_ne.mp hname)]

theorem columnValue (h : s.SameValues s') : s.columnValue = s'.columnValue := by
  funext key
  rw [TemplateScope.columnValue, TemplateScope.columnValue, h.column]

theorem passes (h : s.SameValues s') (test : ColumnTest) : s.passes test = s'.passes test := by
  cases test <;> simp only [TemplateScope.passes, ColumnTest.holds, h.columnValue]

end TemplateScope.SameValues

mutual

theorem TemplatePart.filled_of_isLocal {s s' : TemplateScope} (hs : s.SameValues s') :
    (part : TemplatePart) → part.isLocal = true → part.filled s = part.filled s'
  | .text _, _ => rfl
  | .lines _, _ => rfl
  | .line parts, h => by
      rw [TemplatePart.filled, TemplatePart.filled, filledAll_of_areLocal hs parts h]
  | .value name, h => hs.shown h
  | .column key, _ => by
      simp only [TemplatePart.filled, TemplateScope.shownColumn, hs.columnValue]
  | .accessor, _ => by
      simp only [TemplatePart.filled, TemplateScope.accessorName, hs.columnValue]
  | .eachColumn _ _, h => nomatch h
  | .eachImport _, h => nomatch h
  | .whenColumn test yes no, h => by
      rw [TemplatePart.isLocal, Bool.and_eq_true] at h
      rw [TemplatePart.filled, TemplatePart.filled, hs.passes, filledAll_of_areLocal hs yes h.1,
        filledAll_of_areLocal hs no h.2]
  | .whenPresent name body, h => by
      rw [TemplatePart.isLocal, Bool.and_eq_true] at h
      rw [TemplatePart.filled, TemplatePart.filled, hs.has h.1, filledAll_of_areLocal hs body h.2]

theorem filledAll_of_areLocal {s s' : TemplateScope} (hs : s.SameValues s') :
    (parts : List TemplatePart) → areLocal parts = true → filledAll s parts = filledAll s' parts
  | [], _ => rfl
  | part :: parts, h => by
      rw [areLocal, Bool.and_eq_true] at h
      rw [filledAll, filledAll, part.filled_of_isLocal hs h.1, filledAll_of_areLocal hs parts h.2]

end

theorem passes_eq_admits (s : TemplateScope) (c : Column) (test : ColumnTest) :
    (s.withColumn c.toData).passes test = test.admits c.type := by
  cases test <;> rfl

mutual

theorem TemplatePart.filled_of_isSilent (s : TemplateScope) (c : Column) :
    (part : TemplatePart) → part.isSilent c.type = true → part.filled (s.withColumn c.toData) = []
  | .whenColumn test yes no, h => by
      rw [TemplatePart.isSilent] at h
      rw [TemplatePart.filled, passes_eq_admits]
      split
      · rename_i hadmits
        rw [if_pos hadmits] at h
        exact filledAll_of_areSilent s c yes h
      · rename_i hadmits
        rw [if_neg hadmits] at h
        exact filledAll_of_areSilent s c no h

theorem filledAll_of_areSilent (s : TemplateScope) (c : Column) :
    (parts : List TemplatePart) → areSilent c.type parts = true →
    filledAll (s.withColumn c.toData) parts = []
  | [], _ => rfl
  | part :: parts, h => by
      rw [areSilent, Bool.and_eq_true] at h
      rw [filledAll, part.filled_of_isSilent s c h.1, filledAll_of_areSilent s c parts h.2]
      rfl

end

def columnText (s : TemplateScope) (test : ColumnTest) (body : List TemplatePart) (c : Column) :
    List Char :=
  if test.admits c.type then filledAll (s.withColumn c.toData) body else []

theorem columnText_always (s : TemplateScope) (body : List TemplatePart) (c : Column) :
    columnText s .always body c = filledAll (s.withColumn c.toData) body := rfl

theorem filled_eachColumn {s : TemplateScope} {columns : List Column}
    (hcolumns : s.columnList = columns.map Column.toData) (test : ColumnTest)
    (body : List TemplatePart) :
    (TemplatePart.eachColumn test body).filled s = columns.flatMap (columnText s test body) := by
  rw [TemplatePart.filled, hcolumns, List.flatMap_map]
  simp only [passes_eq_admits]
  rfl

theorem filledAll_append (s : TemplateScope) (parts more : List TemplatePart) :
    filledAll s (parts ++ more) = filledAll s parts ++ filledAll s more := by
  induction parts with
  | nil => rfl
  | cons part parts ih => rw [List.cons_append, filledAll, filledAll, ih, List.append_assoc]

structure TemplateScope.Adds (c : Column) (before after : List Column) (s s' : TemplateScope) :
    Prop extends s.SameValues s' where
  columns : s.columnList = (before ++ c :: after).map Column.toData
  others : s'.columnList = (before ++ after).map Column.toData
  modules : s.moduleList = s'.moduleList

theorem typeImports_insert {c : Column} (hc : columnModules c.toData = .ok [])
    (before after : List Column) :
    typeImports ((before ++ c :: after).map Column.toData) =
      typeImports ((before ++ after).map Column.toData) := by
  have hcolumn : ∀ columns : List Column, ∀ d ∈ columns.map Column.toData,
      ∃ modules, columnModules d = .ok modules := by
    intro columns d hd
    obtain ⟨e, -, rfl⟩ := List.mem_map.mp hd
    exact exists_columnModules e
  obtain ⟨first, hfirst⟩ := Except.exists_mapM (hcolumn before)
  obtain ⟨last, hlast⟩ := Except.exists_mapM (hcolumn after)
  simp only [typeImports, List.map_append, List.map_cons, List.mapM_append, List.mapM_cons, hfirst,
    hc, hlast, Except.ok_bind, pure, Except.pure, List.flatten_append,
    List.flatten_cons, List.nil_append]

section

variable {c : Column} {before after : List Column} {s s' : TemplateScope}

theorem TemplateScope.adds_of_columns (hsame : s.SameValues s')
    (hcolumns : s.columns = .ok ((before ++ c :: after).map Column.toData))
    (hothers : s'.columns = .ok ((before ++ after).map Column.toData))
    (hc : columnModules c.toData = .ok []) : TemplateScope.Adds c before after s s' where
  toSameValues := hsame
  columns := by rw [TemplateScope.columnList, hcolumns]; rfl
  others := by rw [TemplateScope.columnList, hothers]; rfl
  modules := by
    rw [TemplateScope.moduleList, TemplateScope.moduleList, hcolumns, hothers, Except.bind,
      Except.bind, typeImports_insert hc]

theorem columnText_congr (hs : s.SameValues s') {test : ColumnTest} {body : List TemplatePart}
    (hbody : areLocal body = true) : columnText s test body = columnText s' test body := by
  funext d
  rw [columnText, columnText, filledAll_of_areLocal (hs.withColumn d.toData) body hbody]

mutual

theorem TemplatePart.filled_of_overlooks (hs : TemplateScope.Adds c before after s s') :
    (part : TemplatePart) → part.overlooks c.type = true → part.filled s = part.filled s'
  | .text _, _ => rfl
  | .lines _, _ => rfl
  | .value name, h => hs.shown h
  | .column key, h => TemplatePart.filled_of_isLocal hs.toSameValues (.column key) h
  | .accessor, h => TemplatePart.filled_of_isLocal hs.toSameValues .accessor h
  | .whenColumn _ _ _, h => nomatch h
  | .line parts, h => by
      rw [TemplatePart.filled, TemplatePart.filled, filledAll_of_allOverlook hs parts h]
  | .eachColumn test body, h => by
      rw [TemplatePart.overlooks, Bool.and_eq_true] at h
      have hnone : columnText s' test body c = [] := by
        rw [columnText]
        split
        · rename_i hadmits
          rw [hadmits] at h
          exact filledAll_of_areSilent s' c body h.2
        · rfl
      rw [filled_eachColumn hs.columns, filled_eachColumn hs.others,
        columnText_congr hs.toSameValues h.1, List.flatMap_append, List.flatMap_append,
        List.flatMap_cons, hnone, List.nil_append]
  | .eachImport body, h => by
      rw [TemplatePart.filled, TemplatePart.filled, hs.modules]
      refine List.flatMap_congr ?_
      intro module _
      exact filledAll_of_areLocal (hs.withValue "module" (.text module)) body h
  | .whenPresent name body, h => by
      rw [TemplatePart.overlooks, Bool.and_eq_true] at h
      rw [TemplatePart.filled, TemplatePart.filled, hs.has h.1,
        filledAll_of_allOverlook hs body h.2]

theorem filledAll_of_allOverlook (hs : TemplateScope.Adds c before after s s') :
    (parts : List TemplatePart) → allOverlook c.type parts = true →
    filledAll s parts = filledAll s' parts
  | [], _ => rfl
  | part :: parts, h => by
      rw [allOverlook, Bool.and_eq_true] at h
      rw [filledAll, filledAll, part.filled_of_overlooks hs h.1,
        filledAll_of_allOverlook hs parts h.2]

end

def columnLines (s : TemplateScope) (test : ColumnTest) (body : List TemplatePart) (d : Column) :
    List (List Char) :=
  if test.admits d.type then linesOfAll (s.withColumn d.toData) body else []

theorem columnText_eq_lines (s : TemplateScope) (test : ColumnTest) {body : List TemplatePart}
    (hbody : areLines body = true) (d : Column) :
    columnText s test body d = unlines (columnLines s test body d) := by
  rw [columnText, columnLines]
  split
  · exact filledAll_eq_lines _ body hbody
  · rfl

theorem filledAll_loop (s : TemplateScope) {columns : List Column}
    (hcolumns : s.columnList = columns.map Column.toData) (first rest : List TemplatePart)
    (test : ColumnTest) (body : List TemplatePart) :
    filledAll s (first ++ .eachColumn test body :: rest) =
      filledAll s first ++ columns.flatMap (columnText s test body) ++ filledAll s rest := by
  rw [filledAll_append, filledAll, filled_eachColumn hcolumns, List.append_assoc]

theorem flatMap_columnText (s : TemplateScope) (test : ColumnTest) {body : List TemplatePart}
    (hbody : areLines body = true) (columns : List Column) :
    columns.flatMap (columnText s test body) =
      unlines (columns.flatMap (columnLines s test body)) := by
  rw [unlines_flatMap]
  exact List.flatMap_congr (fun d _ => columnText_eq_lines s test hbody d)

/-- A template with one loop that does not overlook a column gives, with that column, what the loop
gives for it between two of the lines that it gives without. -/
theorem filledAll_insert (hs : TemplateScope.Adds c before after s s')
    {first rest body : List TemplatePart} (test : ColumnTest)
    (hfirst : allOverlook c.type first = true) (hrest : allOverlook c.type rest = true)
    (hlocal : areLocal body = true) (hlines : areLines first = true) (hmore : areLines rest = true)
    (hbody : areLines body = true) :
    filledAll s (first ++ .eachColumn test body :: rest) =
      unlines (linesOfAll s' first ++ before.flatMap (columnLines s' test body)) ++
        columnText s' test body c ++
        unlines (after.flatMap (columnLines s' test body) ++ linesOfAll s' rest) ∧
    filledAll s' (first ++ .eachColumn test body :: rest) =
      unlines (linesOfAll s' first ++ before.flatMap (columnLines s' test body)) ++
        unlines (after.flatMap (columnLines s' test body) ++ linesOfAll s' rest) := by
  rw [filledAll_loop s hs.columns, filledAll_loop s' hs.others,
    filledAll_of_allOverlook hs first hfirst, filledAll_of_allOverlook hs rest hrest,
    columnText_congr hs.toSameValues hlocal, List.flatMap_append, List.flatMap_append,
    List.flatMap_cons, flatMap_columnText s' test hbody, flatMap_columnText s' test hbody,
    filledAll_eq_lines s' first hlines, filledAll_eq_lines s' rest hmore, unlines_append,
    unlines_append]
  simp only [List.append_assoc, and_self]

end

end TypedTables
