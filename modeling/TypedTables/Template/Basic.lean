import TypedTables.Data.Written
import TypedTables.Template.Imports

/-!
Templates of generated modules: fixed text with places for values, for each column, or for each
imported module. A template is filled in with a context of named data; a name or a key that is
missing where it is needed is an error.
-/

namespace TypedTables

inductive ColumnTest where
  | always
  | typeIn (types : List String)
  | typeNotIn (types : List String)
  deriving DecidableEq, Repr

inductive TemplatePart where
  | text (text : String)
  | line (parts : List TemplatePart)
  | lines (lines : List String)
  | value (name : String)
  | column (key : String)
  /-- The backend's word for the type of the column at hand. -/
  | accessor
  | eachColumn (test : ColumnTest) (body : List TemplatePart)
  /-- Once for each module that the types of the columns come from, under the name `module`. -/
  | eachImport (body : List TemplatePart)
  | whenColumn (test : ColumnTest) (yes no : List TemplatePart)
  | whenPresent (name : String) (body : List TemplatePart)

instance : Coe String TemplatePart := ⟨.text⟩

abbrev Template := List TemplatePart

/-- What a template is filled in with, and the column at hand. -/
structure TemplateScope where
  context : List (String × Data)
  column : Data

namespace TemplateScope

def value (s : TemplateScope) (name : String) : Except RenderError Data :=
  match s.context.lookup name with
  | some value => .ok value
  | none => .error (.undefinedName name)

def columnValue (s : TemplateScope) (key : String) : Except RenderError Data :=
  match s.column.get? key with
  | some value => .ok value
  | none => .error (.missingField key)

def columns (s : TemplateScope) : Except RenderError (List Data) := do
  match ← s.value "columns" with
  | .list columns => .ok columns
  | _ => .ok []

def withColumn (s : TemplateScope) (column : Data) : TemplateScope := { s with column := column }

def withValue (s : TemplateScope) (name : String) (value : Data) : TemplateScope :=
  { s with context := (name, value) :: s.context }

end TemplateScope

def isTextIn (types : List String) : Data → Bool
  | .text type => types.contains type
  | _ => false

def ColumnTest.holds (s : TemplateScope) : ColumnTest → Except RenderError Bool
  | .always => .ok true
  | .typeIn types => (s.columnValue "type").map (isTextIn types)
  | .typeNotIn types => (s.columnValue "type").map (fun type => !isTextIn types type)

def linesText (lines : List String) : String :=
  String.join (lines.map (· ++ "\n"))

mutual

def TemplatePart.render (s : TemplateScope) : TemplatePart → Except RenderError String
  | .text text => .ok text
  | .line parts => (renderParts s parts).map (· ++ "\n")
  | .lines lines => .ok (linesText lines)
  | .value name => (s.value name).map Data.shown
  | .column key => (s.columnValue key).map Data.shown
  | .accessor => (s.columnValue "type").map (fun type => (backendAccessor? type).getD "None")
  | .eachColumn test body => do
      let texts ← (← s.columns).mapM (fun column => do
        if ← test.holds (s.withColumn column) then renderParts (s.withColumn column) body
        else .ok "")
      .ok (String.join texts)
  | .eachImport body => do
      let texts ← (← typeImports (← s.columns)).mapM (fun module =>
        renderParts (s.withValue "module" (.text module)) body)
      .ok (String.join texts)
  | .whenColumn test yes no => do
      if ← test.holds s then renderParts s yes else renderParts s no
  | .whenPresent name body => do
      if (← s.value name).isPresent then renderParts s body else .ok ""

def renderParts (s : TemplateScope) : List TemplatePart → Except RenderError String
  | [] => .ok ""
  | part :: parts => do
      let first ← part.render s
      let rest ← renderParts s parts
      .ok (first ++ rest)

end

def Template.render (template : Template) (context : List (String × Data)) :
    Except RenderError String :=
  renderParts ⟨context, .null⟩ template

end TypedTables
