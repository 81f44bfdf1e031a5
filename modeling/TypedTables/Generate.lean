import TypedTables.Round
import TypedTables.Source.Scan

namespace TypedTables

inductive GenerateError where
  | scan (e : Source.ScanError)
  | round (e : Round.Failure)
  deriving DecidableEq, Repr

def GenerateError.message : GenerateError → String
  | .scan e => e.message
  | .round e => e.message

structure Generation where
  fs : FileSystem
  notices : List Notice
  result : Except GenerateError RoundResult

/-- Where files are written, unless the run is dry, if there are some links on the way. -/
def Config.target (config : Config) (dry : Bool) (links : List (Path × Path) := []) :
    Round.Target :=
  if dry then none else some { directory := Path.ofText config.outputDir, links := links }

/-- The links that every process finds: one to its working directory. -/
def processLinks : List (Path × Path) :=
  [(⟨.root, ["proc", "self", "cwd"]⟩, ⟨.relative, []⟩)]

def generate [OverrideLanguage] (fs : FileSystem) (config : Config) (roots : List Path) (dry : Bool)
    : Generation :=
  let roots := if roots.isEmpty then config.sourceRoots.map Path.ofText else roots
  match Source.collect fs config.markersNamespace config.ignoreFile [] roots with
  | (notices, .error e) => ⟨fs, notices, .error (.scan e)⟩
  | (notices, .ok markers) =>
      let target := config.target dry processLinks
      let done := Round.run fs config target (Diagnostics.ofNotices notices) markers
      ⟨done.fs, notices ++ done.notices, done.result.mapError .round⟩

end TypedTables
