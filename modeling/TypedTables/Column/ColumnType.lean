import TypedTables.Schema
import TypedTables.Text.Uppercase

/-!
The vocabulary of column types, and what a declared type becomes in a column: its column type, the
type in which the field is stored, and the type that the accessors take.
-/

namespace TypedTables

open Text

inductive ColumnType where
  | integer64
  | boolean
  | string
  | date
  | binary
  | link
  | variant
  | unsupported
  deriving DecidableEq, Repr

def ColumnType.label : ColumnType → String
  | .integer64 => "Integer64"
  | .boolean => "Boolean"
  | .string => "String"
  | .date => "Date"
  | .binary => "Binary"
  | .link => "Link"
  | .variant => "Variant"
  | .unsupported => "Unsupported"

def integralTypes : List String := [
  "int",
  "numpy.int8", "numpy.int16", "numpy.int32", "numpy.int64", "numpy.intc", "numpy.int_",
  "ctypes.c_byte", "ctypes.c_short", "ctypes.c_int", "ctypes.c_long", "ctypes.c_longlong",
  "ctypes.c_int8", "ctypes.c_int16", "ctypes.c_int32", "ctypes.c_int64"]

def booleanTypes : List String := ["bool", "numpy.bool", "numpy.bool_", "ctypes.c_bool"]

def stringTypes : List String := ["str"]

def dateTypes : List String := ["datetime.datetime"]

/-- Raw bytes are accepted as they are and stored as a buffer. -/
def rawBytesType : String := "bytes"

def bufferType : String := "memoryview"

def binaryTypes : List String := [rawBytesType, bufferType]

def variantTypes : List String := ["object", "typing.Any"]

def wideIntegerType : String := "int"

def variantWrapperType : String := "tablegen.mixed.Mixed"

/-- The column type of a declared type: the first rule that matches decides. -/
def columnType (t : TypeRef) (schema : Schema) : ColumnType :=
  if t.text ∈ integralTypes then .integer64
  else if t.text ∈ booleanTypes then .boolean
  else if t.text ∈ stringTypes then .string
  else if t.text ∈ dateTypes then .date
  else if t.text ∈ binaryTypes then .binary
  else if t.isDeclared && schema.isNested t.identity then .link
  else if t.text ∈ variantTypes then .variant
  else .unsupported

def storedType (t : TypeRef) : String :=
  if t.text ∈ integralTypes then wideIntegerType
  else if t.text = rawBytesType then bufferType
  else if t.text ∈ variantTypes then variantWrapperType
  else t.text

def acceptedType (t : TypeRef) : String :=
  if t.text ∈ integralTypes then wideIntegerType
  else if t.text ∈ variantTypes then variantWrapperType
  else t.text

/-- A link: the capitalized simple name that generated classes carry, and the entity itself. -/
structure LinkTarget where
  name : String
  entity : String
  deriving DecidableEq, Repr

structure NormalizedType where
  columnType : ColumnType
  fieldType : String
  paramType : String
  link : Option LinkTarget
  deriving DecidableEq, Repr

/-- Every declared type has a normal form; an unknown one is unsupported. -/
def TypeRef.normalize (t : TypeRef) (schema : Schema) : NormalizedType :=
  let type := TypedTables.columnType t schema
  { columnType := type
    fieldType := storedType t
    paramType := acceptedType t
    link := if type = .link then some ⟨capitalize t.simpleName, t.identity⟩ else none }

end TypedTables
