import TypedTables.Text.Split

/-!
Entities: marked data-model classes with their declared fields, as both metadata sources
(source files and live classes) describe them.
-/

namespace TypedTables

open Text

inductive TypeKind where
  | name
  | generic
  | union
  | other
  deriving DecidableEq, Repr

def TypeKind.label : TypeKind → String
  | .name => "NAME"
  | .generic => "GENERIC"
  | .union => "UNION"
  | .other => "OTHER"

/-- A declared type: the text as written, the name it resolves to, and the text of its
arguments. -/
structure TypeRef where
  written : String
  qualified : String
  arguments : String
  kind : TypeKind
  deriving DecidableEq, Repr

namespace TypeRef

/-- What a reference to an entity is recognised by: arguments do not matter. -/
def identity (t : TypeRef) : String := t.qualified

/-- Only names and generics can refer to an entity. -/
def isDeclared (t : TypeRef) : Bool :=
  t.kind = .name || t.kind = .generic

def simpleName (t : TypeRef) : String :=
  lastComponent t.qualified

/-- The declared type as text, which the vocabulary of column types is matched against. -/
def text (t : TypeRef) : String :=
  t.qualified ++ t.arguments

end TypeRef

inductive ScopeKind where
  | classScope
  | moduleScope
  | packageScope
  deriving DecidableEq, Repr

def ScopeKind.label : ScopeKind → String
  | .classScope => "CLASS"
  | .moduleScope => "MODULE"
  | .packageScope => "PACKAGE"

structure Scope where
  kind : ScopeKind
  name : String
  deriving DecidableEq, Repr

/-- A declared field; its position is a byte offset in the source file, when known. -/
structure Field where
  name : String
  type : TypeRef
  position : Option Int
  deriving DecidableEq, Repr

/-- A marked class. Its scopes are listed from the innermost outwards. -/
structure Entity where
  qualifiedName : String
  simpleName : String
  scope : List Scope
  fields : List Field
  sourceFile : Option String
  deriving DecidableEq, Repr

namespace Entity

def enclosing? (e : Entity) (kind : ScopeKind) : Option String :=
  (e.scope.find? (fun s => s.kind = kind)).map Scope.name

def module? (e : Entity) : Option String :=
  e.enclosing? .moduleScope

def package? (e : Entity) : Option String :=
  e.enclosing? .packageScope

def restAfter? : List Char → List Char → Option (List Char)
  | [], cs => some cs
  | _ :: _, [] => none
  | l :: ls, c :: cs => if l = c then restAfter? ls cs else none

/-- The class names from the module level down to the entity, read off its qualified name;
its simple name alone if that name does not lie below the module. -/
def classPath (e : Entity) : List String :=
  match e.module? with
  | none => [e.simpleName]
  | some m =>
      if m.isEmpty then [e.simpleName]
      else match restAfter? (m.toList ++ ['.']) e.qualifiedName.toList with
        | some rest => components (String.ofList rest)
        | none => [e.simpleName]

end Entity

end TypedTables
