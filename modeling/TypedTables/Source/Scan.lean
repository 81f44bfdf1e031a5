import TypedTables.Ignore.Rules
import TypedTables.Sorted
import TypedTables.Source.File
import TypedTables.Source.Marked
import TypedTables.Source.ModuleName

/-!
The scan of source roots. Below a root every source file is found once, in the order of the names
of its components, unless it or a directory above it is hidden, ignored or unreadable. The marked
classes of the files are gathered by marker.
-/

namespace TypedTables.Source

open Text

structure SourceFile where
  path : Path
  name : ModuleName
  deriving DecidableEq, Repr

inductive ScanError where
  | rootNotFound (root : Path)
  | rootNotADirectory (root : Path)
  | ignoreFile (e : FileFailure)
  | ignoreText (e : Utf8.DecodeError)
  | pattern (e : Ignore.PatternError)
  | path (e : PathError)
  deriving DecidableEq, Repr

def ScanError.message : ScanError → String
  | .rootNotFound root => s!"Source path not found: {root.text}"
  | .rootNotADirectory root => s!"Source path is not a directory: {root.text}"
  | .ignoreFile e => e.message
  | .ignoreText e => e.message
  | .pattern e => e.message
  | .path e => e.message

def sourceSuffix : String := ".py"

/-- A directory of compiled files, which holds no sources. -/
def cacheDirectory : String := "__pycache__"

def isHidden (name : String) : Bool := name.toList.head? = some '.'

mutual

/-- The regular files at or below a location that are neither hidden nor ignored, as components
below the root of the scan. -/
def walk (ignored : String → Bool) (denied : List String → Bool) (below : List String) :
    FileTree → List (List String)
  | .file _ => [below]
  | .dir entries =>
      if below.getLast? = some cacheDirectory || denied below then []
      else (Sorted.ofList (fun a b => a.1 ≤ b.1) (walkAmong ignored denied below entries)).flatMap
        Prod.snd

def walkAmong (ignored : String → Bool) (denied : List String → Bool) (below : List String) :
    List (String × FileTree) → List (String × List (List String))
  | [] => []
  | (name, node) :: rest =>
      let others := walkAmong ignored denied below rest
      if isHidden name || ignored (String.intercalate "/" (below ++ [name])) then others
      else (name, walk ignored denied (below ++ [name]) node) :: others

end

def ignoreRules (fs : FileSystem) (path : Path) : Except ScanError (List Ignore.Rule) := do
  if fs.contains path then
    let bytes ← (fs.readSource path).mapError (fun e => .ignoreFile ⟨e, path⟩)
    let text ← (Utf8.decode bytes).mapError .ignoreText
    (Ignore.rulesOfText text).mapError .pattern
  else .ok []

def scan (fs : FileSystem) (root : Path) (ignoreFile : String) :
    Except ScanError (List SourceFile) := do
  let root := root.resolve fs.cwd
  match fs.node root with
  | .error _ => .error (.rootNotFound root)
  | .ok (.file _) => .error (.rootNotADirectory root)
  | .ok (.dir entries) =>
      let rules ← ignoreRules fs (root.join (Path.ofText ignoreFile))
      let denied := fun below => fs.unreadable.contains (root.components ++ below)
      let files := walk (Ignore.ignores rules) denied [] (.dir entries)
      let sources := files.filter (fun below =>
        (Path.splitSuffix (below.getLast?.getD "")).2 = sourceSuffix)
      sources.mapM (fun below => do
        let path : Path := ⟨root.anchor, root.components ++ below⟩
        let name ← (ModuleName.ofPath path root).mapError .path
        .ok ⟨path, name⟩)

/-- The entities found under each marker, in order of first appearance. -/
abbrev MarkedEntities := List (String × List Entity)

def gather (found : MarkedEntities) (marked : List Marked) : MarkedEntities :=
  marked.foldl (fun table m => Keyed.append m.marker m.entity table) found

def foundNotices (path : Path) (count : Nat) : List Notice :=
  if count = 0 then []
  else [.log ⟨.debug, .scanner, s!"Found {count} marked class(es) in {path.text}"⟩]

def collectFile (fs : FileSystem) (markers : String) (found : MarkedEntities) (f : SourceFile) :
    MarkedEntities × List Notice :=
  match statementsAt? fs f.path with
  | .error record =>
      (found,
        [.log record, .warning s!"Could not read source file {f.path.text}" none none])
  | .ok statements =>
      let classes := marked statements f.name.module f.name.package markers f.path.text
      (gather found classes, foundNotices f.path classes.length)

def collectFiles (fs : FileSystem) (markers : String) (found : MarkedEntities) :
    List SourceFile → MarkedEntities × List Notice
  | [] => (found, [])
  | f :: rest =>
      let (found, notices) := collectFile fs markers found f
      let (found, more) := collectFiles fs markers found rest
      (found, notices ++ more)

/-- The marked classes below some roots. The notices tell what happened up to a failure. -/
def collect (fs : FileSystem) (markers : String) (ignoreFile : String) (found : MarkedEntities) :
    List Path → List Notice × Except ScanError MarkedEntities
  | [] => ([], .ok found)
  | root :: roots =>
      match scan fs root ignoreFile with
      | .error e => ([], .error e)
      | .ok files =>
          let (found, notices) := collectFiles fs markers found files
          let (more, result) := collect fs markers ignoreFile found roots
          (notices ++ more, result)

end TypedTables.Source
