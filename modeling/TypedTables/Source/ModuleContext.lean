import TypedTables.Keyed
import TypedTables.Source.Statement
import TypedTables.Text.Split

/-!
The names that a module binds: its own top-level classes and its imports. They turn a name as
written in the module into a qualified name.
-/

namespace TypedTables.Source

open Text

structure ModuleContext where
  module : String
  package : Option String
  imports : List (String × String)
  localClasses : List String
  deriving DecidableEq, Repr

namespace ModuleContext

/-- The qualified name of a dotted name as written. A class of the module goes before an import;
a name that is neither is kept as it stands. -/
def resolve (ctx : ModuleContext) (name : String) : String :=
  let (head, rest) := headComponent name
  let target :=
    if head ∈ ctx.localClasses then some (ctx.module ++ "." ++ head)
    else ctx.imports.lookup head
  match target with
  | none => name
  | some target => if rest.isEmpty then target else target ++ "." ++ rest

/-- What is left of `parts` when the last `count` are cut off. A count beyond the length leaves
the parts up to the place that lies as far before the end as the count goes beyond the start. -/
def cutLast (count : Nat) (parts : List String) : List String :=
  if count ≤ parts.length then parts.take (parts.length - count)
  else parts.take (2 * parts.length - count)

/-- The module that a relative import denotes: one dot is the package of the importing module,
each further dot goes one package up. Without a package the name is kept. -/
def resolveRelative (package : Option String) (level : Nat) (name : String) : String :=
  match package with
  | none => name
  | some package =>
      let base := dotted (cutLast (level - 1) (components package))
      if base.isEmpty then name
      else if name.isEmpty then base
      else base ++ "." ++ name

/-- The module that an import statement names; a name that starts with dots is relative. -/
def importSource (package : Option String) (source : String) : String :=
  let dots := source.toList.takeWhile (· = '.')
  if dots.isEmpty then source
  else resolveRelative package dots.length (String.ofList (source.toList.drop dots.length))

/-- A module import binds the given name to the module, or else the first component to itself. -/
def moduleBinding (n : ImportedName) : String × String :=
  match n.boundAs with
  | some bound => (bound, n.path)
  | none =>
      let head := (headComponent n.path).1
      (head, head)

/-- An import from a module binds the given name, or else the last component. -/
def memberBinding (module : String) (n : ImportedName) : String × String :=
  ((n.boundAs).getD (lastComponent n.path), module ++ "." ++ n.path)

mutual

/-- The bindings that a statement makes at module level, in source order. Blocks are looked
into, functions and classes are not. -/
def statementBindings (package : Option String) : Statement → List (String × String)
  | .importModules names => names.map moduleBinding
  | .importFrom source names => names.map (memberBinding (importSource package source))
  | .block body => bindings package body
  | _ => []

def bindings (package : Option String) : List Statement → List (String × String)
  | [] => []
  | s :: ss => statementBindings package s ++ bindings package ss

end

def classNames (statements : List Statement) : List String :=
  statements.filterMap (fun s => match s with
    | .classDef _ name _ => some name
    | _ => none)

def ofStatements (module : String) (package : Option String) (statements : List Statement) :
    ModuleContext :=
  { module := module
    package := package
    imports := Keyed.ofList (bindings package statements)
    localClasses := classNames statements }

end ModuleContext

end TypedTables.Source
