import TypedTables.Log
import TypedTables.Package

namespace TypedTables

structure LoggingConfig where
  level : LogLevel := .info
  format : String := "%(asctime)s [%(levelname)s] %(name)s: %(message)s"
  deriving DecidableEq, Repr

structure WatchConfig where
  debounceMs : Int := 500
  deriving DecidableEq, Repr

structure Config where
  sourceRoots : List String := ["."]
  outputDir : String := "generated"
  markersNamespace : String := "tablegen.markers"
  tableMarker : String := "tablegen.markers.table"
  packageSuffix : String := ".generated"
  defaultPackage : String := "tablegen.generated"
  fileExtension : String := ".py"
  templateDir : Option String := none
  ignoreFile : String := ".gitignore"
  failOnDefaultPackage : Bool := false
  logging : LoggingConfig := {}
  watch : WatchConfig := {}
  deriving DecidableEq, Repr

def Config.packageRule (c : Config) : PackageRule :=
  ⟨c.packageSuffix, c.defaultPackage, c.failOnDefaultPackage⟩

end TypedTables
