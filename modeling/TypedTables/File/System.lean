import TypedTables.File.Path
import TypedTables.File.Tree
import TypedTables.Text.Utf8

/-!
A file system: a directory tree, the location of the working directory, and the locations that
must not be read. A path is followed component by component, and each component but the last has to
be a directory.
-/

namespace TypedTables

open Text

inductive FileError where
  | notFound
  | notADirectory
  | isADirectory
  | alreadyExists
  | denied
  deriving DecidableEq, Repr

namespace FileError

def number : FileError → Nat
  | .notFound => 2
  | .denied => 13
  | .alreadyExists => 17
  | .notADirectory => 20
  | .isADirectory => 21

def reason : FileError → String
  | .notFound => "No such file or directory"
  | .denied => "Permission denied"
  | .alreadyExists => "File exists"
  | .notADirectory => "Not a directory"
  | .isADirectory => "Is a directory"

def message (e : FileError) (path : String) : String :=
  s!"[Errno {e.number}] {e.reason}: {quoted path}"

end FileError

structure FileFailure where
  error : FileError
  path : Path
  deriving DecidableEq, Repr

def FileFailure.message (f : FileFailure) : String :=
  f.error.message f.path.text

structure FileSystem where
  tree : FileTree
  cwd : List String
  unreadable : List (List String)

namespace FileSystem

/-- Follows components from a location. The last one need not exist. -/
def follow (fs : FileSystem) (location : List String) :
    List String → Except FileError (List String)
  | [] => .ok location
  | c :: cs =>
      match fs.tree.at? location with
      | none => .error .notFound
      | some (.file _) => .error .notADirectory
      | some (.dir _) => fs.follow (if c = ".." then location.dropLast else location ++ [c]) cs

def locate (fs : FileSystem) (p : Path) : Except FileError (List String) :=
  fs.follow (if p.isAbsolute then [] else fs.cwd) p.components

def node (fs : FileSystem) (p : Path) : Except FileError FileTree := do
  match fs.tree.at? (← fs.locate p) with
  | none => .error .notFound
  | some node => .ok node

def contains (fs : FileSystem) (p : Path) : Bool := (fs.node p).toOption.isSome

def isDir (fs : FileSystem) (p : Path) : Bool := (fs.node p).toOption.any FileTree.isDir

def isFile (fs : FileSystem) (p : Path) : Bool :=
  (fs.node p).toOption.any (fun node => !node.isDir)

def read (fs : FileSystem) (p : Path) : Except FileError (List UInt8) := do
  match ← fs.node p with
  | .file bytes => .ok bytes
  | .dir _ => .error .isADirectory

def isDenied (fs : FileSystem) (p : Path) : Bool :=
  (fs.locate p).toOption.any (fun location => location ∈ fs.unreadable)

def readSource (fs : FileSystem) (p : Path) : Except FileError (List UInt8) :=
  if fs.isDenied p then .error .denied else fs.read p

def place (fs : FileSystem) (node : FileTree) (location : List String) :
    Except FileError FileSystem :=
  match fs.tree.at? location.dropLast with
  | some (.dir _) => .ok { fs with tree := FileTree.put node fs.tree location }
  | some (.file _) => .error .notADirectory
  | none => .error .notFound

def makeDir (fs : FileSystem) (p : Path) : Except FileError FileSystem := do
  let location ← fs.locate p
  match fs.tree.at? location with
  | some _ => .error .alreadyExists
  | none => fs.place .empty location

def ensureDir (fs : FileSystem) (p : Path) : Except FileError FileSystem :=
  match fs.makeDir p with
  | .ok fs => .ok fs
  | .error .notFound => .error .notFound
  | .error e => if fs.isDir p then .ok fs else .error e

def ensureDirs (fs : FileSystem) (p : Path) : Except FileFailure FileSystem :=
  match fs.ensureDir p with
  | .ok fs => .ok fs
  | .error .notFound =>
      if _h : p.components = [] then .error ⟨.notFound, p⟩
      else do
        let fs ← fs.ensureDirs p.parent
        (fs.ensureDir p).mapError (⟨·, p⟩)
  | .error e => .error ⟨e, p⟩
termination_by p.components.length
decreasing_by
  simp only [Path.parent, List.length_dropLast]
  have := List.length_pos_iff.2 _h
  omega

def write (fs : FileSystem) (p : Path) (bytes : List UInt8) : Except FileError FileSystem := do
  let location ← fs.locate p
  match fs.tree.at? location with
  | some (.dir _) => .error .isADirectory
  | _ => fs.place (.file bytes) location

def remove (fs : FileSystem) (p : Path) : FileSystem :=
  match fs.locate p with
  | .ok location => { fs with tree := fs.tree.erase location }
  | .error _ => fs

end FileSystem

end TypedTables
