import TypedTables.Data
import TypedTables.Sorted
import TypedTables.Text.Quoted
import TypedTables.Text.Split

namespace TypedTables

open Text

inductive RenderError where
  | undefinedName (name : String)
  | missingField (name : String)
  | missingKey (key : String)
  | notFound (name : String)
  | unreadable (e : String)
  | complaint (message : String)
  deriving DecidableEq, Repr

def RenderError.message : RenderError → String
  | .undefinedName name => s!"'{name}' is undefined"
  | .missingField name => s!"'dict object' has no attribute '{name}'"
  | .missingKey key => quoted key
  | .notFound name => name
  | .unreadable e => e
  | .complaint message => message

/-- The part of the backend's accessor names that tells the type of a column. -/
def backendAccessors : List (String × String) := [
  ("Integer64", "long"),
  ("Boolean", "bool"),
  ("String", "string"),
  ("Date", "date"),
  ("Binary", "binary"),
  ("Link", "subtable"),
  ("Variant", "mixed")]

def backendAccessor? (type : Data) : Option String :=
  match type with
  | .text type => backendAccessors.lookup type
  | _ => none

def moduleOf? (type : Data) : Option String :=
  match type with
  | .text type =>
      (beforeLast? '.' (type.toList.takeWhile (· ≠ '['))).map String.ofList
  | _ => none

def required (column : Data) (key : String) : Except RenderError Data :=
  match column.get? key with
  | some value => .ok value
  | none => .error (.missingKey key)

/-- The modules that the accessors of one column name in their types. Links and unsupported
columns name none. -/
def columnModules (column : Data) : Except RenderError (List String) := do
  if (← required column "is_link").isPresent then .ok []
  else
    match ← required column "type" with
    | .text "Unsupported" => .ok []
    | _ =>
        let stored ← required column "field_type"
        let accepted ← required column "param_type"
        .ok ([stored, accepted].filterMap moduleOf?)

def sortedSet (names : List String) : List String :=
  (Sorted.ofList (fun a b => a ≤ b) names).eraseDups

def typeImports (columns : List Data) : Except RenderError (List String) := do
  .ok (sortedSet (← columns.mapM columnModules).flatten)

end TypedTables
