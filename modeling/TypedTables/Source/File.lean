import TypedTables.Diagnostics
import TypedTables.File.System
import TypedTables.Source.Statement

namespace TypedTables.Source

def unreadableRecord (path : Path) (e : FileError) : LogRecord :=
  ⟨.warning, .sourceReader, s!"Could not read {path.text}: {e.message path.text}"⟩

def statementsAt? (fs : FileSystem) (path : Path) : Except LogRecord (List Statement) :=
  match fs.readSource path with
  | .ok bytes => .ok (parse bytes)
  | .error e => .error (unreadableRecord path e)

end TypedTables.Source
