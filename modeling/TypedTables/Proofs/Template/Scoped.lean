import TypedTables.Proofs.Template.Lines
import TypedTables.Model

namespace TypedTables

theorem Except.ok_bind {ε α β : Type} (a : α) (f : α → Except ε β) : Except.ok a >>= f = f a := rfl

theorem Except.exists_mapM {ε α β : Type} {f : α → Except ε β} {xs : List α}
    (h : ∀ x ∈ xs, ∃ y, f x = .ok y) : ∃ ys, xs.mapM f = .ok ys := by
  induction xs with
  | nil => exact ⟨[], rfl⟩
  | cons x xs ih =>
      obtain ⟨⟨y, hy⟩, hrest⟩ := List.forall_mem_cons.mp h
      obtain ⟨ys, hys⟩ := ih hrest
      exact ⟨y :: ys, by rw [List.mapM_cons, hy, hys]; rfl⟩

def columnKeys : List String := [
  "name", "type", "original_type", "field_type", "param_type", "index", "is_link", "link_target",
  "link_entity"]

theorem Column.get?_toData (c : Column) :
    ∀ key ∈ columnKeys, ∃ value, c.toData.get? key = some value := by
  simp [columnKeys, Column.toData, Data.get?, List.lookup_cons]

/-- Whether a test can be answered: all but one ask for the type of a column. -/
def ColumnTest.scoped (inColumn : Bool) : ColumnTest → Bool
  | .always => true
  | .typeIn _ => inColumn
  | .typeNotIn _ => inColumn

theorem ColumnTest.scoped_true (test : ColumnTest) : test.scoped true = true := by
  cases test <;> rfl

mutual

/-- Whether a part asks for no values but the named ones and, with a column at hand, the data of
that column. -/
def TemplatePart.scoped (names : List String) (inColumn : Bool) : TemplatePart → Bool
  | .text _ => true
  | .line parts => scopedAll names inColumn parts
  | .lines _ => true
  | .value name => names.contains name
  | .column key => inColumn && columnKeys.contains key
  | .accessor => inColumn
  | .eachColumn _ body => scopedAll names true body
  | .eachImport body => scopedAll ("module" :: names) inColumn body
  | .whenColumn test yes no =>
      test.scoped inColumn && scopedAll names inColumn yes && scopedAll names inColumn no
  | .whenPresent name body => names.contains name && scopedAll names inColumn body

def scopedAll (names : List String) (inColumn : Bool) : List TemplatePart → Bool
  | [] => true
  | part :: parts => part.scoped names inColumn && scopedAll names inColumn parts

end

structure TemplateScope.Covers (s : TemplateScope) (names : List String) (inColumn : Bool) :
    Prop where
  values : ∀ name ∈ names, ∃ value, s.value name = .ok value
  columns : ∃ columns : List Column, s.columns = .ok (columns.map Column.toData)
  column : inColumn = true → ∃ c : Column, s.column = c.toData

namespace TemplateScope.Covers

variable {s : TemplateScope} {names : List String} {inColumn : Bool}

theorem withColumn (h : s.Covers names inColumn) (c : Column) :
    (s.withColumn c.toData).Covers names true :=
  ⟨h.values, h.columns, fun _ => ⟨c, rfl⟩⟩

theorem withModule (h : s.Covers names inColumn) (module : String) :
    (s.withValue "module" (.text module)).Covers ("module" :: names) inColumn := by
  refine ⟨?_, ?_, h.column⟩
  · intro name hname
    by_cases hmodule : name = "module"
    · subst hmodule
      exact ⟨.text module, rfl⟩
    · obtain ⟨value, hvalue⟩ := h.values name ((List.mem_cons.mp hname).resolve_left hmodule)
      refine ⟨value, ?_⟩
      rw [← hvalue, TemplateScope.value, TemplateScope.withValue, List.lookup_cons,
        beq_eq_false_iff_ne.mpr hmodule]
      rfl
  · obtain ⟨columns, hcolumns⟩ := h.columns
    exact ⟨columns, hcolumns⟩

theorem columnValue (h : s.Covers names true) (key : String) (hkey : key ∈ columnKeys) :
    ∃ value, s.columnValue key = .ok value := by
  obtain ⟨c, hc⟩ := h.column rfl
  obtain ⟨value, hvalue⟩ := c.get?_toData key hkey
  exact ⟨value, by rw [TemplateScope.columnValue, hc, hvalue]⟩

theorem holds (h : s.Covers names inColumn) {test : ColumnTest}
    (htest : test.scoped inColumn = true) : ∃ passes, test.holds s = .ok passes := by
  cases test with
  | always => exact ⟨true, rfl⟩
  | typeIn types =>
      obtain rfl : inColumn = true := htest
      obtain ⟨type, htype⟩ := h.columnValue "type" (by decide)
      exact ⟨isTextIn types type, by rw [ColumnTest.holds, htype]; rfl⟩
  | typeNotIn types =>
      obtain rfl : inColumn = true := htest
      obtain ⟨type, htype⟩ := h.columnValue "type" (by decide)
      exact ⟨!isTextIn types type, by rw [ColumnTest.holds, htype]; rfl⟩

end TemplateScope.Covers

theorem exists_columnModules (c : Column) : ∃ modules, columnModules c.toData = .ok modules := by
  obtain ⟨name, type, declared, field, param, index, link⟩ := c
  cases type <;> exact ⟨_, rfl⟩

theorem exists_typeImports (columns : List Column) :
    ∃ modules, typeImports (columns.map Column.toData) = .ok modules := by
  have hcolumn : ∀ d ∈ columns.map Column.toData, ∃ modules, columnModules d = .ok modules := by
    intro d hd
    obtain ⟨c, -, rfl⟩ := List.mem_map.mp hd
    exact exists_columnModules c
  obtain ⟨lists, hlists⟩ := Except.exists_mapM hcolumn
  exact ⟨sortedSet lists.flatten, by rw [typeImports, hlists]; rfl⟩

mutual

theorem TemplatePart.exists_render {s : TemplateScope} {names : List String} {inColumn : Bool}
    (hs : s.Covers names inColumn) : (part : TemplatePart) → part.scoped names inColumn = true →
    ∃ text, part.render s = .ok text
  | .text text, _ => ⟨text, rfl⟩
  | .lines lines, _ => ⟨linesText lines, rfl⟩
  | .line parts, h => by
      obtain ⟨text, htext⟩ := exists_renderParts hs parts h
      exact ⟨text ++ "\n", by rw [TemplatePart.render, htext]; rfl⟩
  | .value name, h => by
      obtain ⟨value, hvalue⟩ := hs.values name (List.contains_iff_mem.mp h)
      exact ⟨value.shown, by rw [TemplatePart.render, hvalue]; rfl⟩
  | .column key, h => by
      rw [TemplatePart.scoped, Bool.and_eq_true] at h
      obtain ⟨rfl, hkey⟩ := h
      obtain ⟨value, hvalue⟩ := hs.columnValue key (List.contains_iff_mem.mp hkey)
      exact ⟨value.shown, by rw [TemplatePart.render, hvalue]; rfl⟩
  | .accessor, h => by
      obtain rfl : inColumn = true := h
      obtain ⟨type, htype⟩ := hs.columnValue "type" (by decide)
      exact ⟨(backendAccessor? type).getD "None", by rw [TemplatePart.render, htype]; rfl⟩
  | .eachColumn test body, h => by
      obtain ⟨columns, hcolumns⟩ := hs.columns
      have hcolumn : ∀ d ∈ columns.map Column.toData, ∃ text, (do
          if ← test.holds (s.withColumn d) then renderParts (s.withColumn d) body
          else .ok "") = .ok text := by
        intro d hd
        obtain ⟨c, -, rfl⟩ := List.mem_map.mp hd
        obtain ⟨passes, hpasses⟩ := (hs.withColumn c).holds test.scoped_true
        rw [hpasses]
        cases passes with
        | true => exact exists_renderParts (hs.withColumn c) body h
        | false => exact ⟨"", rfl⟩
      obtain ⟨texts, htexts⟩ := Except.exists_mapM hcolumn
      exact ⟨String.join texts, by rw [TemplatePart.render, hcolumns, Except.ok_bind, htexts]; rfl⟩
  | .eachImport body, h => by
      obtain ⟨columns, hcolumns⟩ := hs.columns
      obtain ⟨modules, hmodules⟩ := exists_typeImports columns
      have hmodule : ∀ module ∈ modules, ∃ text,
          renderParts (s.withValue "module" (.text module)) body = .ok text :=
        fun module _ => exists_renderParts (hs.withModule module) body h
      obtain ⟨texts, htexts⟩ := Except.exists_mapM hmodule
      refine ⟨String.join texts, ?_⟩
      rw [TemplatePart.render, hcolumns, Except.ok_bind, hmodules, Except.ok_bind, htexts]
      rfl
  | .whenColumn test yes no, h => by
      rw [TemplatePart.scoped, Bool.and_eq_true, Bool.and_eq_true] at h
      obtain ⟨⟨htest, hyes⟩, hno⟩ := h
      obtain ⟨passes, hpasses⟩ := hs.holds htest
      rw [TemplatePart.render, hpasses]
      cases passes with
      | true => exact exists_renderParts hs yes hyes
      | false => exact exists_renderParts hs no hno
  | .whenPresent name body, h => by
      rw [TemplatePart.scoped, Bool.and_eq_true] at h
      obtain ⟨value, hvalue⟩ := hs.values name (List.contains_iff_mem.mp h.1)
      rw [TemplatePart.render, hvalue]
      cases hpresent : value.isPresent with
      | true =>
          obtain ⟨text, htext⟩ := exists_renderParts hs body h.2
          exact ⟨text, by rw [Except.ok_bind, if_pos hpresent, htext]⟩
      | false => exact ⟨"", by rw [Except.ok_bind, hpresent]; rfl⟩

theorem exists_renderParts {s : TemplateScope} {names : List String} {inColumn : Bool}
    (hs : s.Covers names inColumn) : (parts : List TemplatePart) →
    scopedAll names inColumn parts = true → ∃ text, renderParts s parts = .ok text
  | [], _ => ⟨"", rfl⟩
  | part :: parts, h => by
      rw [scopedAll, Bool.and_eq_true] at h
      obtain ⟨first, hfirst⟩ := part.exists_render hs h.1
      obtain ⟨rest, hrest⟩ := exists_renderParts hs parts h.2
      exact ⟨first ++ rest, by rw [renderParts, hfirst, hrest]; rfl⟩

end

def moduleValues : List String := [
  "entity", "columns", "is_nested", "package_name", "header", "name", "add", "insert"]

def methodValues : List String := ["entity", "columns"]

theorem covers_context (m : EntityModel) (name : String) :
    (⟨m.context name, .null⟩ : TemplateScope).Covers moduleValues false := by
  refine ⟨?_, ⟨m.columns, rfl⟩, nofun⟩
  simp [moduleValues, EntityModel.context, TemplateScope.value, List.lookup_cons]

theorem covers_methodContext (entity : String) (columns : List Column) :
    (⟨EntityModel.methodContext entity columns, .null⟩ : TemplateScope).Covers methodValues
      false := by
  refine ⟨?_, ⟨columns, rfl⟩, nofun⟩
  simp [methodValues, EntityModel.methodContext, TemplateScope.value, List.lookup_cons]

theorem Template.render_of_covers {template : Template} {context : List (String × Data)}
    {names : List String} (hs : (⟨context, .null⟩ : TemplateScope).Covers names false)
    (h : scopedAll names false template = true) :
    template.render context = .ok (String.ofList (filledAll ⟨context, .null⟩ template)) := by
  obtain ⟨text, htext⟩ := exists_renderParts hs template h
  rw [Template.render, htext, ← filledAll_of_render _ template text htext, String.ofList_toList]

/-- Every template of a module that asks for no other values is filled in, for every model. -/
theorem Template.render_context {template : Template}
    (h : scopedAll moduleValues false template = true) (m : EntityModel) (name : String) :
    template.render (m.context name) =
      .ok (String.ofList (filledAll ⟨m.context name, .null⟩ template)) :=
  Template.render_of_covers (covers_context m name) h

theorem Template.render_methodContext {template : Template}
    (h : scopedAll methodValues false template = true) (entity : String)
    (columns : List Column) :
    template.render (EntityModel.methodContext entity columns) =
      .ok (String.ofList (filledAll ⟨EntityModel.methodContext entity columns, .null⟩ template)) :=
  Template.render_of_covers (covers_methodContext entity columns) h

namespace Template

theorem scoped_modules : ∀ template ∈ [tableTemplate, cursorTemplate, viewTemplate, queryTemplate],
    scopedAll moduleValues false template = true := by
  simp only [List.forall_mem_cons]
  decide

theorem scoped_methods : ∀ template ∈ [addTemplate, insertTemplate],
    scopedAll methodValues false template = true := by
  simp only [List.forall_mem_cons]
  decide

end Template

end TypedTables
