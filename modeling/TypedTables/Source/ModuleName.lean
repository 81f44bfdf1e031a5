import TypedTables.File.Path

namespace TypedTables.Source

open Text

def packageStem : String := "__init__"

structure ModuleName where
  module : String
  package : Option String
  deriving DecidableEq, Repr

def nonempty? (name : String) : Option String :=
  if name.isEmpty then none else some name

def ModuleName.ofComponents (parts : List String) : ModuleName :=
  let above := dotted parts.dropLast
  if parts.getLast? = some packageStem then ⟨above, nonempty? above⟩
  else ⟨dotted parts, nonempty? above⟩

def ModuleName.ofPath (path root : Path) : Except PathError ModuleName := do
  let stem ← (← path.relativeTo root).withoutSuffix
  .ok (.ofComponents stem.components)

end TypedTables.Source
