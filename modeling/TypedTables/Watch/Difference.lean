import TypedTables.File.Tree
import TypedTables.Watch.Watcher

namespace TypedTables.Watch

abbrev Files := List (List String × List UInt8)

def absolute (location : List String) : Path := ⟨.root, location⟩

/-- The files of a later look that are new or have new content. -/
def upserted (before after : Files) : List Report :=
  after.filterMap (fun (location, bytes) =>
    match before.lookup location with
    | none => some (.created (absolute location))
    | some old => if old = bytes then none else some (.modified (absolute location)))

def deleted (before after : Files) : List Report :=
  before.filterMap (fun (location, _) =>
    if (after.lookup location).isSome then none else some (.deleted (absolute location)))

def reports (before after : FileTree) : List Report :=
  let old := before.files []
  let new := after.files []
  upserted old new ++ deleted old new

end TypedTables.Watch
