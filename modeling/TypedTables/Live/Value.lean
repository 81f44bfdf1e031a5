import TypedTables.Data.Written
import TypedTables.Text.Split

/-!
Live values: what the names of a loaded module stand for and what its fields are declared with.
Classes are known by their names; type forms that take part types hold them in order. A value's
written form depends on what it stands in.
-/

namespace TypedTables.Live

open Text

structure ClassName where
  module? : Option String
  path : String
  deriving DecidableEq, Repr

namespace ClassName

def builtin (name : String) : ClassName := ⟨some "builtins", name⟩

def noneType : ClassName := builtin "NoneType"

/-- The name by which other modules speak of the class: builtin classes and classes without a
module are spoken of without one. -/
def qualified (c : ClassName) : String :=
  match c.module? with
  | none => c.path
  | some m => if m = "builtins" then c.path else m ++ "." ++ c.path

end ClassName

/-- A live value. A `form` is a name of the typing module that stands for no class; `applied` is
such a form with its parts, `alias` a class with its parts; a `union` was made by the typing
module, a `bar` with bars between its members. -/
inductive Value where
  | cls (name : ClassName)
  | form (name : String)
  | alias (base : ClassName) (parts : List Value)
  | applied (form : String) (parts : List Value)
  | union (members : List Value)
  | bar (members : List Value)
  | forward (name : String)
  | data (value : Data)
  | ellipsis
  | list (items : List Value)
  | module (name : String)
  | function (name : ClassName)
  deriving Inhabited

inductive Place where
  | alone
  | inForm
  | inAlias
  | inBar
  deriving DecidableEq, Repr

def anyType : ClassName := ⟨some "typing", "Any"⟩

/-- Standing alone a class is written as an object; elsewhere by its qualified name. -/
def ClassName.written (c : ClassName) (place : Place) : String :=
  let object :=
    if c = anyType then "typing.Any"
    else match c.module? with
      | none => "<class '" ++ lastComponent c.path ++ "'>"
      | some _ => "<class '" ++ c.qualified ++ "'>"
  match place, c.module? with
  | .alone, _ => object
  | .inForm, none => "None." ++ c.path
  | .inForm, some _ => c.qualified
  | .inBar, some _ => if c = noneType then "None" else c.qualified
  | .inAlias, some _ => c.qualified
  | _, none => object

def bracketed (parts : List String) : String :=
  "[" ++ String.intercalate ", " parts ++ "]"

/-- The parts of a form or class; an empty list of parts shows as an empty pair of brackets. -/
def subscripted (parts : List String) : String :=
  bracketed (if parts.isEmpty then ["()"] else parts)

namespace Value

def nothing : Value := .data .null

def isNoneType : Value → Bool
  | .cls c => c = .noneType
  | _ => false

mutual

def written (place : Place) : Value → String
  | .cls c => c.written place
  | .form name => "typing." ++ name
  | .alias base parts => base.written .inAlias ++ subscripted (writtenAll .inAlias parts)
  | .applied name parts => "typing." ++ name ++ subscripted (writtenParts name parts)
  | .union members => writtenUnion members
  | .bar members => String.intercalate " | " (writtenAll .inBar members)
  | .forward name => "ForwardRef(" ++ quoted name ++ ")"
  | .data d => d.written
  | .ellipsis => if place = .alone then "Ellipsis" else "..."
  | .list items => bracketed (writtenAll (if place = .inForm then .inForm else .alone) items)
  | .module name => "<module " ++ quoted name ++ ">"
  | .function name =>
      match place with
      | .inForm => lastComponent name.path
      | _ => name.qualified

def writtenAll (place : Place) : List Value → List String
  | [] => []
  | v :: vs => v.written place :: writtenAll place vs

/-- The remarks behind the first part of an `Annotated` type stand alone. -/
def writtenParts (name : String) : List Value → List String
  | [] => []
  | v :: vs =>
      v.written .inForm :: writtenAll (if name = "Annotated" then .alone else .inForm) vs

/-- A union of one type with nothing is optional. -/
def writtenUnion : List Value → String
  | [a, b] =>
      if a.isNoneType then "typing.Optional" ++ bracketed [b.written .inForm]
      else if b.isNoneType then "typing.Optional" ++ bracketed [a.written .inForm]
      else "typing.Union" ++ bracketed [a.written .inForm, b.written .inForm]
  | members => "typing.Union" ++ bracketed (writtenAll .inForm members)

end

end Value

end TypedTables.Live
