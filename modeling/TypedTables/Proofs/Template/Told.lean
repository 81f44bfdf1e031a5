import TypedTables.Model
import TypedTables.Proofs.Template.Lines

namespace TypedTables

variable {α : Type} (tell : List Char → List α)

def toldLines (s : TemplateScope) (parts : List TemplatePart) : List α :=
  (linesOfAll s parts).flatMap tell

variable (s : TemplateScope) (parts body rest : List TemplatePart) (test : ColumnTest)

theorem toldLines_nil : toldLines tell s [] = [] := rfl

theorem toldLines_line :
    toldLines tell s (.line parts :: rest) = tell (filledAll s parts) ++ toldLines tell s rest :=
  rfl

theorem toldLines_lines (lines : List String) :
    toldLines tell s (.lines lines :: rest) =
      lines.flatMap (fun line => tell line.toList) ++ toldLines tell s rest := by
  rw [toldLines, linesOfAll, TemplatePart.filledLines, List.flatMap_append, List.flatMap_map]
  rfl

theorem toldLines_whenColumn (yes no : List TemplatePart) :
    toldLines tell s (.whenColumn test yes no :: rest) =
      (if s.passes test then toldLines tell s yes else toldLines tell s no) ++
        toldLines tell s rest := by
  rw [toldLines, linesOfAll, TemplatePart.filledLines, List.flatMap_append]
  split <;> rfl

theorem toldLines_eachColumn (columns : List Column)
    (hs : s.columnList = columns.map Column.toData) :
    toldLines tell s (.eachColumn test body :: rest) =
      columns.flatMap (fun c => if (s.withColumn c.toData).passes test then
        toldLines tell (s.withColumn c.toData) body else []) ++ toldLines tell s rest := by
  rw [toldLines, linesOfAll, TemplatePart.filledLines, List.flatMap_append, List.flatMap_assoc, hs,
    List.flatMap_map]
  congr 2
  funext c
  split <;> rfl

theorem toldLines_eachImport :
    toldLines tell s (.eachImport body :: rest) = s.moduleList.flatMap (fun module =>
      toldLines tell (s.withValue "module" (.text module)) body) ++ toldLines tell s rest := by
  rw [toldLines, linesOfAll, TemplatePart.filledLines, List.flatMap_append, List.flatMap_assoc]
  rfl

end TypedTables
