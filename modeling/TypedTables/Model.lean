import TypedTables.Column
import TypedTables.Package
import TypedTables.Template.Source

/-!
Entity models: what all generated modules of one entity have in common. Building a model fills
in the two templates for methods that set whole rows.
-/

namespace TypedTables

open Text

def generatedHeader : String := "# This file was automatically generated by tablegen."

def Data.ofText? : Option String → Data
  | some s => .text s
  | none => .null

def Column.toData (c : Column) : Data := .map [
  ("name", .text c.name),
  ("type", .text c.type.label),
  ("original_type", .text c.declaredType),
  ("field_type", .text c.fieldType),
  ("param_type", .text c.paramType),
  ("index", .int c.index),
  ("is_link", .bool c.isLink),
  ("link_target", .ofText? (c.link.map LinkTarget.name)),
  ("link_entity", .ofText? (c.link.map LinkTarget.entity))]

/-- The name is that of the generated cursor class; the last two fields hold the methods that set
whole rows. -/
structure EntityModel where
  entity : String
  columns : List Column
  isNested : Bool
  package : String
  qualifiedName : String
  addMethod : String
  insertMethod : String
  deriving DecidableEq, Repr

namespace EntityModel

def methodContext (entity : String) (columns : List Column) : List (String × Data) := [
  ("entity", .text entity),
  ("columns", .list (columns.map Column.toData))]

def context (m : EntityModel) (name : String) : List (String × Data) := [
  ("entity", .text m.entity),
  ("columns", .list (m.columns.map Column.toData)),
  ("is_nested", .bool m.isNested),
  ("package_name", .text m.package),
  ("header", .text generatedHeader),
  ("name", .text name),
  ("add", .text m.addMethod),
  ("insert", .text m.insertMethod)]

def build [OverrideLanguage] (r : Renderer) (schema : Schema) (package : String)
    (columns : List Column) (e : Entity) : Except RenderError EntityModel := do
  let entity := capitalize e.simpleName
  let context := methodContext entity columns
  let addMethod ← r.render "table_add.py.j2" context
  let insertMethod ← r.render "table_insert.py.j2" context
  .ok {
    entity := entity
    columns := columns
    isNested := schema.isNested e.qualifiedName
    package := package
    qualifiedName := e.qualifiedName
    addMethod := addMethod
    insertMethod := insertMethod }

end EntityModel

end TypedTables
