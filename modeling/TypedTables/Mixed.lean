import TypedTables.Mixed.Moment

/-!
Mixed values: what a column of variant type stores, a value of one of the scalar kinds with its
tag. Each kind has an accessor, which refuses the values of the other kinds.
-/

namespace TypedTables

inductive MixedKind where
  | integer
  | boolean
  | string
  | date
  | binary
  deriving DecidableEq, Repr

def MixedKind.label : MixedKind → String
  | .integer => "Integer64"
  | .boolean => "Boolean"
  | .string => "String"
  | .date => "Date"
  | .binary => "Binary"

abbrev MixedKind.Value : MixedKind → Type
  | .integer => Int
  | .boolean => Bool
  | .string => String
  | .date => Moment
  | .binary => List UInt8

inductive Mixed where
  | integer (value : Int)
  | boolean (value : Bool)
  | string (value : String)
  | date (value : Moment)
  | binary (bytes : List UInt8)
  deriving DecidableEq, Repr

inductive ByteHolder where
  | fixed
  | changeable
  | view
  deriving DecidableEq, Repr

/-- A value that is offered to a mixed column. A view that has been released gives no bytes any
more. Of a value without a scalar kind only the name of its type matters. -/
inductive MixedInput where
  | integer (value : Int)
  | boolean (value : Bool)
  | string (value : String)
  | date (value : Moment)
  | binary (holder : ByteHolder) (bytes : List UInt8)
  | releasedView
  | mixed (value : Mixed)
  | other (typeName : String)
  deriving DecidableEq, Repr, Inhabited

namespace MixedInput

def mixed? : MixedInput → Option Mixed
  | .mixed m => some m
  | _ => none

def boolean? : MixedInput → Option Bool
  | .boolean b => some b
  | _ => none

/-- The number that a value is: a boolean is a number too. -/
def integer? : MixedInput → Option Int
  | .integer n => some n
  | .boolean b => some b.toInt
  | _ => none

def string? : MixedInput → Option String
  | .string s => some s
  | _ => none

def date? : MixedInput → Option Moment
  | .date m => some m
  | _ => none

def typeName : MixedInput → String
  | .integer _ => "int"
  | .boolean _ => "bool"
  | .string _ => "str"
  | .date _ => "datetime"
  | .binary .fixed _ => "bytes"
  | .binary .changeable _ => "bytearray"
  | .binary .view _ => "memoryview"
  | .releasedView => "memoryview"
  | .mixed _ => "Mixed"
  | .other typeName => typeName

end MixedInput

inductive MixedError where
  | notStorable (typeName : String)
  | released
  | otherKind (held asked : MixedKind)
  deriving DecidableEq, Repr, Inhabited

def MixedError.message : MixedError → String
  | .notStorable typeName => "Cannot store " ++ typeName ++ " in a mixed column"
  | .released => "operation forbidden on released memoryview object"
  | .otherKind held asked => "Mixed value holds " ++ held.label ++ ", not " ++ asked.label

def MixedInput.bytes? : MixedInput → Option (Except MixedError (List UInt8))
  | .binary _ bytes => some (.ok bytes)
  | .releasedView => some (.error .released)
  | _ => none

namespace Mixed

def kind : Mixed → MixedKind
  | .integer _ => .integer
  | .boolean _ => .boolean
  | .string _ => .string
  | .date _ => .date
  | .binary _ => .binary

def value : (m : Mixed) → m.kind.Value
  | .integer n => n
  | .boolean b => b
  | .string s => s
  | .date m => m
  | .binary bytes => bytes

/-- How a value is stored that is mixed already or not made of bytes. The kinds are tried in turn,
and a boolean, which is a number too, is stored as a boolean. -/
def stored? (v : MixedInput) : Option Mixed :=
  v.mixed? <|> v.boolean?.map .boolean <|> v.integer?.map .integer <|> v.string?.map .string <|>
    v.date?.map .date

/-- Stores a value; a mixed value is kept as it is, and bytes are copied. -/
def of (v : MixedInput) : Except MixedError Mixed :=
  match stored? v, v.bytes? with
  | some m, _ => .ok m
  | none, some bytes => bytes.map .binary
  | none, none => .error (.notStorable v.typeName)

def expect (asked : MixedKind) (m : Mixed) : Except MixedError asked.Value :=
  if h : m.kind = asked then .ok (h ▸ m.value) else .error (.otherKind m.kind asked)

def asInt (m : Mixed) : Except MixedError Int :=
  m.expect .integer

def asBool (m : Mixed) : Except MixedError Bool :=
  m.expect .boolean

def asString (m : Mixed) : Except MixedError String :=
  m.expect .string

def asMoment (m : Mixed) : Except MixedError Moment :=
  m.expect .date

def asBytes (m : Mixed) : Except MixedError (List UInt8) :=
  m.expect .binary

def same : Mixed → Mixed → Bool
  | .date a, .date b => a.same b
  | a, b => a = b

end Mixed

end TypedTables
