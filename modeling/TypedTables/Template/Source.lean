import TypedTables.File.System
import TypedTables.Template.Standard

/-!
Where templates come from. A file of the right name in a directory of overrides goes before the
standard template; the language of such a file is left open. A standard template that has been used
stays in use.
-/

namespace TypedTables.Template

open Text

/-- The components of the name of a template. A name never leads upwards. -/
def nameComponents? (name : String) : Option (List String) :=
  let parts := (splitOn '/' name.toList).filter (fun part => part ≠ [] ∧ part ≠ ['.'])
  if parts.contains ['.', '.'] then none else some (parts.map String.ofList)

def standardAt? : List String → Option Template
  | [name] => standard.lookup name
  | _ => none

def overridePath (directory : String) (parts : List String) : Path :=
  parts.foldl (fun path part => path.join ⟨.relative, [part]⟩) (Path.ofText directory)

def override? (fs : FileSystem) (overrides : Option String) (parts : List String) :
    Option (List UInt8) :=
  match overrides with
  | none => none
  | some directory =>
      if directory.isEmpty then none else (fs.read (overridePath directory parts)).toOption

end TypedTables.Template

namespace TypedTables

/-- The language of overrides: what becomes of a text in a context, among the files there are. What
it complains of on its own is a complaint. -/
class OverrideLanguage where
  fill : FileSystem → String → List (String × Data) → Except RenderError String

/-- Where templates come from: a file system, the directory of overrides, and the names whose
standard template has been used. These keep it, even if an override comes up later. -/
structure Renderer where
  files : FileSystem
  overrides : Option String
  kept : List String

namespace Renderer

open Template

def override? (r : Renderer) (name : String) : Option (List UInt8) :=
  if name ∈ r.kept then none
  else (nameComponents? name).bind (Template.override? r.files r.overrides)

/-- What the template of a name makes of a context, where an override goes first. -/
def find [OverrideLanguage] (r : Renderer) (name : String) :
    Except RenderError (List (String × Data) → Except RenderError String) :=
  match r.override? name with
  | some bytes =>
      match Text.Utf8.decode bytes with
      | .error e => .error (.unreadable e.message)
      | .ok text => .ok (OverrideLanguage.fill r.files text)
  | none =>
      match (nameComponents? name).bind standardAt? with
      | some template => .ok template.render
      | none => .error (.notFound name)

def render [OverrideLanguage] (r : Renderer) (name : String) (context : List (String × Data)) :
    Except RenderError String := do
  (← r.find name) context

def keep (r : Renderer) (name : String) : Renderer :=
  if (r.override? name).isSome then r else { r with kept := name :: r.kept }

end Renderer

end TypedTables
