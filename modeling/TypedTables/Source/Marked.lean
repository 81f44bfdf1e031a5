import TypedTables.Source.ModuleContext
import TypedTables.TypeRef.Reading

/-!
Marked classes of a source file. A class is found if it stands at module level or directly inside
a found class; it is marked once for each decorator that resolves to a name inside the namespace of
the markers.
-/

namespace TypedTables.Source

open Text

structure Marked where
  marker : String
  entity : Entity
  deriving DecidableEq, Repr

/-- The annotated names directly among some statements: name, type text, byte offset. -/
def annotatedNames (body : List Statement) : List (String × String × Nat) :=
  body.filterMap (fun s => match s with
    | .annotated name type offset => some (name, type, offset)
    | _ => none)

/-- The fields of a class body: its annotated names without the class variables. -/
def fieldsOf (ctx : ModuleContext) (body : List Statement) : List Field :=
  (annotatedNames body).filterMap (fun (name, type, offset) =>
    let ref := TypeRef.ofText type ctx.resolve
    if ref.isClassVar then none else some ⟨name, ref, some offset⟩)

def scopesOf (module : String) (package : Option String) (path : List String) : List Scope :=
  let classes := (List.range (path.length - 1)).reverse.map (fun depth =>
    (⟨.classScope, dotted (module :: path.take (depth + 1))⟩ : Scope))
  let packages := match package with
    | some name => if name.isEmpty then [] else [(⟨.packageScope, name⟩ : Scope)]
    | none => []
  classes ++ ⟨.moduleScope, module⟩ :: packages

def entityAt (ctx : ModuleContext) (file : Option String) (path : List String)
    (body : List Statement) : Entity :=
  { qualifiedName := dotted (ctx.module :: path)
    simpleName := path.getLast?.getD ""
    scope := scopesOf ctx.module ctx.package path
    fields := fieldsOf ctx body
    sourceFile := file }

def markersOf (ctx : ModuleContext) (namespaceName : String) (ds : List Decorator) :
    List String :=
  ds.filterMap (fun d =>
    let target := String.ofList (d.target.toList.filter (· ≠ ' '))
    let qualified := ctx.resolve target
    if (namespaceName ++ ".").toList.isPrefixOf qualified.toList then some qualified else none)

mutual

def markedIn (ctx : ModuleContext) (namespaceName : String) (file : Option String)
    (parents : List String) : Statement → List Marked
  | .classDef decorators name body =>
      let path := parents ++ [name]
      (markersOf ctx namespaceName decorators).map
          (fun marker => ⟨marker, entityAt ctx file path body⟩) ++
        markedAmong ctx namespaceName file path body
  | _ => []

def markedAmong (ctx : ModuleContext) (namespaceName : String) (file : Option String)
    (parents : List String) : List Statement → List Marked
  | [] => []
  | s :: ss =>
      markedIn ctx namespaceName file parents s ++
        markedAmong ctx namespaceName file parents ss

end

def marked (statements : List Statement) (module : String) (package : Option String)
    (namespaceName : String) (file : Option String) : List Marked :=
  markedAmong (ModuleContext.ofStatements module package statements) namespaceName file []
    statements

/-- The body of the first class of a name directly among some statements. -/
def classBody? (name : String) (statements : List Statement) : Option (List Statement) :=
  statements.findSome? (fun s => match s with
    | .classDef _ n body => if n = name then some body else none
    | _ => none)

def bodyAt? : List String → List Statement → Option (List Statement)
  | [], _ => none
  | [name], statements => classBody? name statements
  | name :: next :: path, statements =>
      (classBody? name statements).bind (bodyAt? (next :: path))

/-- The byte offsets of the annotated names of a class; of two with one name the later holds. -/
def fieldPositions? (statements : List Statement) (path : List String) :
    Option (List (String × Nat)) :=
  (bodyAt? path statements).map (fun body =>
    Keyed.ofList ((annotatedNames body).map (fun (name, _, offset) => (name, offset))))

/-- What the program complains of if it is to look at a class without being told any name. -/
def noClassComplaint : String := "'NoneType' object has no attribute 'child_by_field_name'"

def fieldPositions (statements : List Statement) (path : List String) :
    Except String (Option (List (String × Nat))) :=
  if path.isEmpty then .error noClassComplaint else .ok (fieldPositions? statements path)

end TypedTables.Source
