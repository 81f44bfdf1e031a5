import TypedTables.Config.Basic
import TypedTables.File.Path

/-!
What a watcher watches: the source files below its roots. Generated files and the files below
directories that hold no sources of their own do not count.
-/

namespace TypedTables.Watch

structure Scope where
  roots : List Path
  output : Path
  deriving DecidableEq, Repr

def ignoredDirs : List String := [
  ".git", ".venv", "venv", "node_modules", "__pycache__", ".pytest_cache", "dist", "build", ".tox",
  ".mypy_cache"]

def Scope.of (config : Config) (roots : List Path) (cwd : List String) : Scope :=
  ⟨roots.map (fun r => r.resolve cwd), (Path.ofText config.outputDir).resolve cwd⟩

/-- Whether a change of a file does not matter. The first root that the file lies below decides,
and a file below no root is ignored. -/
def Scope.ignores (s : Scope) (file : Path) : Bool :=
  file.suffix ≠ ".py" || (file.below? s.output).isSome ||
    match s.roots.findSome? (fun root => file.below? root) with
    | none => true
    | some parts => parts.any (fun part => part ∈ ignoredDirs)

end TypedTables.Watch
