import TypedTables.Config.Reading
import TypedTables.File.System
import TypedTables.Text.Lines
import TypedTables.Yaml.Reading

/-!
Finding the configuration: a file that is named explicitly, or else by the environment, or else
the standard file in the working directory, or else the defaults.
-/

namespace TypedTables

open Text

inductive LoadError where
  | notFound (path : Path)
  | file (f : FileFailure)
  | decoding (e : Utf8.DecodeError)
  | yaml (e : Yaml.YamlError)
  | empty (path : Path)
  | invalid (path : Path) (errors : List ConfigError)
  deriving DecidableEq, Repr

def LoadError.message : LoadError → String
  | .notFound path => s!"Config file not found: {path.text}"
  | .file f => f.message
  | .decoding e => e.message
  | .yaml e => e.message
  | .empty path => s!"Empty configuration file: {path.text}"
  | .invalid path _ => s!"Invalid configuration in {path.text}"

def LoadError.report (e : LoadError) : String :=
  match e with
  | .invalid _ errors =>
      let plural := if errors.length = 1 then "" else "s"
      String.intercalate "\n" (s!"{e.message}: {errors.length} validation error{plural}" ::
        errors.map (fun fault => s!"{fault.placeText}: {fault.fault.message}"))
  | _ => e.message

namespace Config

def ofFile (fs : FileSystem) (path : Path) : Except LoadError Config := do
  if fs.contains path then
    let bytes ← (fs.read path).mapError (fun e => .file ⟨e, path⟩)
    let text ← (Utf8.decode bytes).mapError .decoding
    let data ← (Yaml.read (unifyLineEnds text.toList)).mapError .yaml
    if data.isPresent then (ofData data).mapError (.invalid path) else .error (.empty path)
  else .error (.notFound path)

def standardFile : Path := ⟨.relative, ["tablegen.yaml"]⟩

/-- The configuration for a file named by the environment; an empty name counts as none. -/
def ofEnvironment (fs : FileSystem) (named : Option String) : Except LoadError Config :=
  let named := named.getD ""
  if !named.isEmpty then ofFile fs (Path.ofText named)
  else if fs.contains standardFile then ofFile fs standardFile
  else .ok {}

def load (fs : FileSystem) (explicit environment : Option String) : Except LoadError Config :=
  let explicit := explicit.getD ""
  if explicit.isEmpty then ofEnvironment fs environment else ofFile fs (Path.ofText explicit)

end Config

end TypedTables
