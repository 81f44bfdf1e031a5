import TypedTables.File.System
import TypedTables.Keyed
import TypedTables.Live.Form
import TypedTables.Live.Namespaces
import TypedTables.TypeRef.Reading

/-!
Entities of loaded modules. A session holds modules and the classes that their names lead to; its
classes are described as entities, like those found in source files but without positions. The
marked classes of a module are those that can be reached through the names of the module and of
its own classes.
-/

namespace TypedTables.Live

open Text

structure LoadedClass where
  name : ClassName
  simpleName : String
  fields : List (String × Value)
  marker? : Option String
  members : List (String × Value)

def LoadedClass.bare (name : ClassName) : LoadedClass :=
  ⟨name, lastComponent name.path, [], none, []⟩

structure LoadedModule where
  name : String
  isPackage : Bool
  file? : Option String
  names : List (String × Value)

/-- Loaded modules and classes. Only registered modules can be asked for by their name. -/
structure Session where
  modules : List LoadedModule
  registered : Bool
  classes : List LoadedClass
  fs : FileSystem

inductive ClassError where
  | enclosingWithoutModule
  | packageWithoutModule
  deriving DecidableEq, Repr

def ClassError.message : ClassError → String
  | .enclosingWithoutModule => "sequence item 0: expected str instance, NoneType found"
  | .packageWithoutModule => "'NoneType' object has no attribute 'rpartition'"

namespace Value

def moduleName? : Value → Option String
  | .cls c | .alias c _ | .function c => c.module?
  | .form _ | .union _ | .forward _ => some "typing"
  | .bar _ => some "types"
  | .applied "Annotated" (type :: _) =>
      match type with
      | .cls c | .alias c _ => c.module?
      | .bar _ => some "types"
      | _ => some "typing"
  | .applied _ _ => some "typing"
  | _ => none

def path? : Value → Option String
  | .cls c | .alias c _ | .function c => some c.path
  | .form name | .applied name _ => some name
  | .union [a, b] => some (if a.isNoneType || b.isNoneType then "Optional" else "Union")
  | .union _ => some "Union"
  | _ => none

def qualified (v : Value) : String :=
  let path := match v, v.path? with
    | .module name, _ => name
    | _, some path => path
    | _, none => v.written .alone
  (⟨v.moduleName?, path⟩ : ClassName).qualified

/-- The qualified name of what a name is bound to; `none` where the name stays as written. -/
def resolved? (head : String) (v : Value) : Option String :=
  match v with
  | .module name => some name
  | .forward _ => some ("typing." ++ head)
  | v => v.path?.map (fun _ => v.qualified)

def partText : Value → String
  | .cls c => c.qualified
  | v => v.written .alone

def generic (v : Value) (base : String) (parts : List Value) : TypeRef :=
  ⟨v.written .alone, base, bracketed (parts.map partText), .generic⟩

/-- Reads a declared type off a live value; `resolve` maps a dotted name to its qualified name. -/
def typeRef (resolve : String → String) (v : Value) : TypeRef :=
  match v with
  | .data (.text s) => TypeRef.ofText s resolve
  | .cls c => ⟨c.qualified, c.qualified, "", .name⟩
  | .alias base parts => v.generic base.qualified parts
  | .applied "ClassVar" _ => ⟨v.written .alone, "typing.ClassVar", "", .generic⟩
  | .applied name parts =>
      v.generic (((formClass? name).map ClassName.qualified).getD ("typing." ++ name)) parts
  | .union _ | .bar _ => ⟨v.written .alone, v.written .alone, "", .union⟩
  | .form name =>
      match formClass? name with
      | some c => v.generic c.qualified []
      | none => ⟨v.written .alone, v.written .alone, "", .other⟩
  | v => ⟨v.written .alone, v.written .alone, "", .other⟩

end Value

namespace Session

/-- The registered module of a name; of two the later counts. -/
def module? (s : Session) (name : String) : Option LoadedModule :=
  if s.registered then s.modules.reverse.find? (fun m => m.name = name) else none

def class? (s : Session) (name : ClassName) : Option LoadedClass :=
  s.classes.find? (fun c => c.name = name)

/-- What a dotted name written in a module stands for: its first component is looked up among the
names of the module. -/
def resolve (s : Session) (module? : Option String) (name : String) : String :=
  let (head, rest) := headComponent name
  match (module?.bind s.module?).bind (fun m => m.names.lookup head) with
  | none => name
  | some v =>
      match v.resolved? head with
      | none => name
      | some target => if rest.isEmpty then target else target ++ "." ++ rest

def typeRef (s : Session) (module? : Option String) (v : Value) : TypeRef :=
  v.typeRef (s.resolve module?)

/-- The fields of a class in the order of their declaration; class variables are none. -/
def fields (s : Session) (c : LoadedClass) : List Field :=
  let declared := c.fields.map (fun f => (⟨f.1, s.typeRef c.name.module? f.2, none⟩ : Field))
  declared.filter (fun f => !f.type.isClassVar)

/-- The components of a class's dotted name; the mark of an enclosing function is none. -/
def classParts (path : String) : List String :=
  (components path).filter (· ≠ "<locals>")

def enclosing (module : String) (parts : List String) : List String :=
  (List.range (parts.length - 1)).reverse.map (fun depth =>
    dotted (module :: parts.take (depth + 1)))

/-- The package around a module: a registered package is its own. -/
def package (s : Session) (module : String) : String :=
  if (s.module? module).any LoadedModule.isPackage then module else parentName module

def scope (s : Session) (module : String) (parts : List String) : List Scope :=
  let package := s.package module
  (enclosing module parts).map (fun name => ⟨.classScope, name⟩) ++ [⟨.moduleScope, module⟩] ++
    (if package.isEmpty then [] else [⟨.packageScope, package⟩])

def sourceFile? (s : Session) (module : String) : Option String :=
  ((s.module? module).bind LoadedModule.file?).filter (fun f => s.fs.contains (Path.ofText f))

def entityIn (s : Session) (module : String) (c : LoadedClass) : Entity :=
  let parts := classParts c.name.path
  { qualifiedName := module ++ "." ++ dotted parts
    simpleName := c.simpleName
    scope := s.scope module parts
    fields := s.fields c
    sourceFile := s.sourceFile? module }

def entity (s : Session) (c : LoadedClass) : Except ClassError Entity :=
  match c.name.module? with
  | some module => .ok (s.entityIn module c)
  | none =>
      .error (if (classParts c.name.path).length > 1 then .enclosingWithoutModule
        else .packageWithoutModule)

def namespaces (s : Session) : Namespaces Value (Fin s.classes.length) where
  classes := List.finRange s.classes.length
  complete := List.mem_finRange
  class? v := match v with
    | .cls name => s.classes.findFinIdx? (fun c => c.name = name)
    | _ => none
  module? c := s.classes[c].name.module?
  members c := s.classes[c].members.map Prod.snd
  isMarked c := s.classes[c].marker?.isSome

def marked (s : Session) (m : LoadedModule) : List LoadedClass :=
  (s.namespaces.marked m.name (m.names.map Prod.snd)).map s.classes.get

def collect (s : Session) : List (String × List Entity) :=
  let found := s.modules.flatMap (fun m => (s.marked m).map (fun c => (m.name, c)))
  found.foldl (fun markers (module, c) =>
    match c.marker? with
    | some marker => Keyed.append marker (s.entityIn module c) markers
    | none => markers) []

end Session

end TypedTables.Live
