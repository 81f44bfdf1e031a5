import TypedTables.Column.ColumnType

/-!
Columns: the normalized fields of an entity in their final order. The index of a column is its
place in that order, and stored data is laid out by it.
-/

namespace TypedTables

structure Column where
  name : String
  type : ColumnType
  declaredType : String
  fieldType : String
  paramType : String
  index : Nat
  link : Option LinkTarget
  deriving DecidableEq, Repr

namespace Column

def isLink (c : Column) : Bool := c.type = .link

def isSupported (c : Column) : Bool := c.type ≠ .unsupported

def ofField (schema : Schema) (index : Nat) (f : Field) : Column :=
  let n := f.type.normalize schema
  { name := f.name
    type := n.columnType
    declaredType := f.type.text
    fieldType := n.fieldType
    paramType := n.paramType
    index := index
    link := n.link }

/-- The columns of fields that are already in their final order. -/
def ofFields (fields : List Field) (schema : Schema) : List Column :=
  fields.mapIdx (ofField schema)

end Column

end TypedTables
