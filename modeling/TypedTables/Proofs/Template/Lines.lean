import Mathlib.Data.List.Basic
import TypedTables.Template.Standard

namespace TypedTables

theorem Except.exists_of_bind_eq_ok {ε α β : Type} {x : Except ε α} {f : α → Except ε β} {b : β}
    (h : x >>= f = .ok b) : ∃ a, x = .ok a ∧ f a = .ok b := by
  cases x with
  | error e => cases h
  | ok a => exact ⟨a, rfl, h⟩

theorem Except.exists_of_map_eq_ok {ε α β : Type} {x : Except ε α} {f : α → β} {b : β}
    (h : x.map f = .ok b) : ∃ a, x = .ok a ∧ f a = b := by
  cases x with
  | error e => cases h
  | ok a => exact ⟨a, rfl, Except.ok.inj h⟩

theorem toList_join_of_mapM {α : Type} {f : α → Except RenderError String} {g : α → List Char}
    {xs : List α} {texts : List String} (h : xs.mapM f = .ok texts)
    (hf : ∀ x text, f x = .ok text → text.toList = g x) :
    (String.join texts).toList = xs.flatMap g := by
  rw [String.toList_join]
  induction xs generalizing texts with
  | nil =>
      obtain rfl := Except.ok.inj h
      rfl
  | cons x xs ih =>
      rw [List.mapM_cons] at h
      obtain ⟨text, htext, h⟩ := Except.exists_of_bind_eq_ok h
      obtain ⟨rest, hrest, h⟩ := Except.exists_of_bind_eq_ok h
      obtain rfl := Except.ok.inj h
      rw [List.flatMap_cons, List.flatMap_cons, hf x text htext, ih hrest]

namespace TemplateScope

def shown (s : TemplateScope) (name : String) : List Char :=
  (((s.value name).map Data.shown).toOption.getD "").toList

def shownColumn (s : TemplateScope) (key : String) : List Char :=
  (((s.columnValue key).map Data.shown).toOption.getD "").toList

def accessorName (s : TemplateScope) : List Char :=
  (((s.columnValue "type").map (fun type =>
    (backendAccessor? type).getD "None")).toOption.getD "").toList

def columnList (s : TemplateScope) : List Data := s.columns.toOption.getD []

def moduleList (s : TemplateScope) : List String :=
  (s.columns.bind typeImports).toOption.getD []

def passes (s : TemplateScope) (test : ColumnTest) : Bool := (test.holds s).toOption.getD false

def has (s : TemplateScope) (name : String) : Bool :=
  ((s.value name).map Data.isPresent).toOption.getD false

end TemplateScope

mutual

def TemplatePart.filled (s : TemplateScope) : TemplatePart → List Char
  | .text text => text.toList
  | .line parts => filledAll s parts ++ ['\n']
  | .lines lines => lines.flatMap (fun line => line.toList ++ ['\n'])
  | .value name => s.shown name
  | .column key => s.shownColumn key
  | .accessor => s.accessorName
  | .eachColumn test body => s.columnList.flatMap (fun column =>
      if (s.withColumn column).passes test then filledAll (s.withColumn column) body else [])
  | .eachImport body => s.moduleList.flatMap (fun module =>
      filledAll (s.withValue "module" (.text module)) body)
  | .whenColumn test yes no => if s.passes test then filledAll s yes else filledAll s no
  | .whenPresent name body => if s.has name then filledAll s body else []

def filledAll (s : TemplateScope) : List TemplatePart → List Char
  | [] => []
  | part :: parts => part.filled s ++ filledAll s parts

end

mutual

def TemplatePart.isLines : TemplatePart → Bool
  | .line _ => true
  | .lines _ => true
  | .eachColumn _ body => areLines body
  | .eachImport body => areLines body
  | .whenColumn _ yes no => areLines yes && areLines no
  | .whenPresent _ body => areLines body
  | _ => false

def areLines : List TemplatePart → Bool
  | [] => true
  | part :: parts => part.isLines && areLines parts

end

mutual

def TemplatePart.filledLines (s : TemplateScope) : TemplatePart → List (List Char)
  | .line parts => [filledAll s parts]
  | .lines lines => lines.map String.toList
  | .eachColumn test body => s.columnList.flatMap (fun column =>
      if (s.withColumn column).passes test then linesOfAll (s.withColumn column) body else [])
  | .eachImport body => s.moduleList.flatMap (fun module =>
      linesOfAll (s.withValue "module" (.text module)) body)
  | .whenColumn test yes no => if s.passes test then linesOfAll s yes else linesOfAll s no
  | .whenPresent name body => if s.has name then linesOfAll s body else []
  | _ => []

def linesOfAll (s : TemplateScope) : List TemplatePart → List (List Char)
  | [] => []
  | part :: parts => part.filledLines s ++ linesOfAll s parts

end

theorem linesText_toList (lines : List String) :
    (linesText lines).toList = lines.flatMap (fun line => line.toList ++ ['\n']) := by
  rw [linesText, String.toList_join, List.flatMap_map]
  simp

mutual

theorem TemplatePart.toList_of_render (s : TemplateScope) : (part : TemplatePart) →
    ∀ text, part.render s = .ok text → text.toList = part.filled s
  | .text t => by
      intro text h
      obtain rfl := Except.ok.inj h
      rfl
  | .line parts => by
      intro text h
      rw [TemplatePart.render] at h
      obtain ⟨inner, hinner, rfl⟩ := Except.exists_of_map_eq_ok h
      rw [String.toList_append, filledAll_of_render s parts inner hinner, TemplatePart.filled]
      rfl
  | .lines lines => by
      intro text h
      obtain rfl := Except.ok.inj h
      rw [linesText_toList, TemplatePart.filled]
  | .value name => by
      intro text h
      rw [TemplatePart.render] at h
      rw [TemplatePart.filled, TemplateScope.shown, h]
      rfl
  | .column key => by
      intro text h
      rw [TemplatePart.render] at h
      rw [TemplatePart.filled, TemplateScope.shownColumn, h]
      rfl
  | .accessor => by
      intro text h
      rw [TemplatePart.render] at h
      rw [TemplatePart.filled, TemplateScope.accessorName, h]
      rfl
  | .eachColumn test body => by
      intro text h
      rw [TemplatePart.render] at h
      obtain ⟨columns, hcolumns, h⟩ := Except.exists_of_bind_eq_ok h
      obtain ⟨texts, htexts, h⟩ := Except.exists_of_bind_eq_ok h
      obtain rfl := Except.ok.inj h
      rw [TemplatePart.filled, TemplateScope.columnList, hcolumns]
      refine toList_join_of_mapM htexts ?_
      intro column text h
      obtain ⟨passes, hpasses, h⟩ := Except.exists_of_bind_eq_ok h
      rw [TemplateScope.passes, hpasses]
      cases passes with
      | true => exact filledAll_of_render _ body text h
      | false =>
          obtain rfl := Except.ok.inj h
          rfl
  | .eachImport body => by
      intro text h
      rw [TemplatePart.render] at h
      obtain ⟨columns, hcolumns, h⟩ := Except.exists_of_bind_eq_ok h
      obtain ⟨modules, hmodules, h⟩ := Except.exists_of_bind_eq_ok h
      obtain ⟨texts, htexts, h⟩ := Except.exists_of_bind_eq_ok h
      obtain rfl := Except.ok.inj h
      rw [TemplatePart.filled, TemplateScope.moduleList, hcolumns, Except.bind, hmodules]
      exact toList_join_of_mapM htexts (fun module text h => filledAll_of_render _ body text h)
  | .whenColumn test yes no => by
      intro text h
      rw [TemplatePart.render] at h
      obtain ⟨passes, hpasses, h⟩ := Except.exists_of_bind_eq_ok h
      rw [TemplatePart.filled, TemplateScope.passes, hpasses]
      cases passes with
      | true => exact filledAll_of_render s yes text h
      | false => exact filledAll_of_render s no text h
  | .whenPresent name body => by
      intro text h
      rw [TemplatePart.render] at h
      obtain ⟨value, hvalue, h⟩ := Except.exists_of_bind_eq_ok h
      rw [TemplatePart.filled, TemplateScope.has, hvalue, Except.map, Except.toOption,
        Option.getD_some]
      split at h
      · rename_i hpresent
        rw [if_pos hpresent]
        exact filledAll_of_render s body text h
      · rename_i hpresent
        obtain rfl := Except.ok.inj h
        rw [if_neg hpresent]
        rfl

theorem filledAll_of_render (s : TemplateScope) : (parts : List TemplatePart) →
    ∀ text, renderParts s parts = .ok text → text.toList = filledAll s parts
  | [] => by
      intro text h
      obtain rfl := Except.ok.inj h
      rfl
  | part :: parts => by
      intro text h
      rw [renderParts] at h
      obtain ⟨first, hfirst, h⟩ := Except.exists_of_bind_eq_ok h
      obtain ⟨rest, hrest, h⟩ := Except.exists_of_bind_eq_ok h
      obtain rfl := Except.ok.inj h
      rw [String.toList_append, part.toList_of_render s first hfirst,
        filledAll_of_render s parts rest hrest, filledAll]

end

def unlines (lines : List (List Char)) : List Char :=
  lines.flatMap (· ++ ['\n'])

theorem unlines_append (xs ys : List (List Char)) : unlines (xs ++ ys) = unlines xs ++ unlines ys :=
  List.flatMap_append

theorem unlines_flatMap {α : Type} (f : α → List (List Char)) (xs : List α) :
    unlines (xs.flatMap f) = xs.flatMap (fun x => unlines (f x)) :=
  List.flatMap_assoc

mutual

theorem TemplatePart.filled_eq_lines (s : TemplateScope) : (part : TemplatePart) →
    part.isLines = true → part.filled s = unlines (part.filledLines s)
  | .text _ => nofun
  | .value _ => nofun
  | .column _ => nofun
  | .accessor => nofun
  | .line parts => fun _ => by
      rw [TemplatePart.filled, TemplatePart.filledLines, unlines, List.flatMap_singleton]
  | .lines lines => fun _ => by
      rw [TemplatePart.filled, TemplatePart.filledLines, unlines, List.flatMap_map]
  | .eachColumn test body => fun h => by
      rw [TemplatePart.filled, TemplatePart.filledLines, unlines_flatMap]
      congr 1
      funext column
      split
      · exact filledAll_eq_lines _ body h
      · rfl
  | .eachImport body => fun h => by
      rw [TemplatePart.filled, TemplatePart.filledLines, unlines_flatMap]
      congr 1
      funext module
      exact filledAll_eq_lines _ body h
  | .whenColumn test yes no => fun h => by
      rw [TemplatePart.isLines, Bool.and_eq_true] at h
      rw [TemplatePart.filled, TemplatePart.filledLines]
      split
      · exact filledAll_eq_lines s yes h.1
      · exact filledAll_eq_lines s no h.2
  | .whenPresent name body => fun h => by
      rw [TemplatePart.filled, TemplatePart.filledLines]
      split
      · exact filledAll_eq_lines s body h
      · rfl

theorem filledAll_eq_lines (s : TemplateScope) : (parts : List TemplatePart) →
    areLines parts = true → filledAll s parts = unlines (linesOfAll s parts)
  | [] => fun _ => rfl
  | part :: parts => fun h => by
      rw [areLines, Bool.and_eq_true] at h
      rw [filledAll, linesOfAll, unlines_append, part.filled_eq_lines s h.1,
        filledAll_eq_lines s parts h.2]

end

theorem Template.toList_of_render {template : Template} {context : List (String × Data)}
    {text : String} (hlines : areLines template = true) (h : template.render context = .ok text) :
    text.toList = unlines (linesOfAll ⟨context, .null⟩ template) :=
  (filledAll_of_render _ template text h).trans (filledAll_eq_lines _ template hlines)

end TypedTables
