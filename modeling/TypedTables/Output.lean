import TypedTables.File.System
import TypedTables.Log
import TypedTables.Source.ModuleName

/-!
The output directory. The components of a package are directories below it; each of them is made
a package itself, and a file that makes one is never overwritten.
-/

namespace TypedTables

open Text

/-- Where generated files go. Directories on the way there may be links, each of which leads to a
directory elsewhere. -/
structure Output where
  directory : Path
  makesPackages : Bool := true
  links : List (Path × Path) := []
  deriving DecidableEq, Repr

namespace Output

/-- The path on which a file is found that is written to a path: behind a link it goes on where the
link leads. -/
def leads (o : Output) (p : Path) : Path :=
  let behind? := fun (link : Path × Path) =>
    (p.below? link.1).map (fun rest => ⟨link.2.anchor, link.2.components ++ rest⟩)
  (o.links.findSome? behind?).getD p

def packageDir (o : Output) (package : String) : Path :=
  o.directory.joinAll (components package)

def packageFiles (o : Output) (package : String) : List Path :=
  let parts := components package
  (List.range parts.length).map (fun depth =>
    o.directory.joinAll (parts.take (depth + 1) ++ [Source.packageStem ++ ".py"]))

/-- Writes empty files where there are none. Whatever was written before a failure stays. -/
def writeMissing (o : Output) (fs : FileSystem) : List Path → FileSystem × Option FileFailure
  | [] => (fs, none)
  | path :: paths =>
      if fs.contains (o.leads path) then o.writeMissing fs paths
      else match fs.write (o.leads path) [] with
        | .ok fs => o.writeMissing fs paths
        | .error e => (fs, some ⟨e, path⟩)

def filePath (o : Output) (package fileName : String) : Path :=
  (o.packageDir package).join (Path.ofText fileName)

def write (o : Output) (fs : FileSystem) (package fileName content : String) :
    FileSystem × Except FileFailure Path :=
  match fs.ensureDirs (o.leads (o.packageDir package)) with
  | .error f => (fs, .error f)
  | .ok fs =>
      match o.writeMissing fs (if o.makesPackages then o.packageFiles package else []) with
      | (fs, some f) => (fs, .error f)
      | (fs, none) =>
          let path := o.filePath package fileName
          match fs.write (o.leads path) (Utf8.encode content) with
          | .ok fs => (fs, .ok path)
          | .error e => (fs, .error ⟨e, path⟩)

end Output

end TypedTables
