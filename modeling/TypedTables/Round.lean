import TypedTables.Config.Basic
import TypedTables.FieldOrder
import TypedTables.Model
import TypedTables.Output

/-!
Rounds. A round classifies its entities, builds the models of all of them, and then generates the
four modules of each, unless another entity has claimed one of the files. Which modules it
generates is planned as a list of steps first. Executing the plan fills in the template of each
module and then writes it, so that a template is looked for among the files written before.
-/

namespace TypedTables

/-- The names that fields must not have, for generated code uses them itself. -/
def reservedFieldNames : List String :=
  ["self", "row", "as_dict", "memoryview", "tablegen", "_backend", "_row"]

structure Artifact where
  template : String
  suffix : String
  deriving DecidableEq, Repr

def artifacts : List Artifact := [
  ⟨"table.py.j2", "Table"⟩,
  ⟨"cursor.py.j2", ""⟩,
  ⟨"view.py.j2", "View"⟩,
  ⟨"query.py.j2", "Query"⟩]

/-- A generated file; it has a path once it is written. -/
structure GeneratedFile where
  package : String
  fileName : String
  content : String
  entity : String
  path : Option Path
  deriving DecidableEq, Repr

structure RoundResult where
  schema : Option Schema
  models : List EntityModel
  files : List GeneratedFile
  diagnostics : Diagnostics
  deriving DecidableEq, Repr

namespace RoundResult

def failed (r : RoundResult) : Bool := r.diagnostics.hasErrors

def written (r : RoundResult) : List Path := r.files.filterMap GeneratedFile.path

end RoundResult

namespace Round

inductive Failure where
  | render (e : RenderError)
  | file (f : FileFailure)
  deriving DecidableEq, Repr

def Failure.message : Failure → String
  | .render e => e.message
  | .file f => f.message

def columnNotices (e : Entity) (c : Column) : List Notice :=
  (if c.isSupported then [] else
    [.error s!"Unsupported field type '{c.declaredType}'" (some e.simpleName) (some c.name)]) ++
  (if c.name ∈ reservedFieldNames then
    [.error s!"Field name '{c.name}' is reserved in generated code" (some e.simpleName)
      (some c.name)] else [])

def modelNotice (e : Entity) (columns : List Column) : Notice :=
  .info .round
    s!"Generating code for entity '{e.simpleName}' with {columns.length} columns..."

/-- The models of some entities, or the first failure. The notices tell what happened so far. -/
def models [OverrideLanguage] (fs : FileSystem) (config : Config) (r : Renderer) (schema : Schema)
    (cache : SourceCache) :
    List Entity → List Notice × Except RenderError (List (Entity × EntityModel))
  | [] => ([], .ok [])
  | e :: rest =>
      let (columns, orderNotices, cache) := Column.ofEntity fs schema cache e
      let (package, packageNotices) := e.targetPackage config.packageRule
      let notices :=
        orderNotices ++ modelNotice e columns :: columns.flatMap (columnNotices e) ++
          packageNotices
      match EntityModel.build r schema package columns e with
      | .error error => (notices, .error error)
      | .ok model =>
          let (more, result) := models fs config r schema cache rest
          (notices ++ more, result.map ((e, model) :: ·))

def linkNotices (packages : List (String × String)) (e : Entity) (m : EntityModel)
    (c : Column) : List Notice :=
  match c.link with
  | none => []
  | some link =>
      match packages.lookup link.entity with
      | none => []
      | some package =>
          if package = m.package then []
          else [.warning
            (s!"Linked sub-table {link.entity} is generated into {package}, not {m.package}; " ++
              "the generated accessor won't import it")
            (some e.simpleName) (some c.name)]

def fileName (config : Config) (m : EntityModel) (a : Artifact) : String :=
  m.entity ++ a.suffix ++ config.fileExtension

def fileKeys (config : Config) (m : EntityModel) : List (String × String) :=
  artifacts.map (fun a => (m.package, fileName config m a))

/-- Files with the qualified names of the entities that claimed them. -/
abbrev Claims := List ((String × String) × String)

/-- The entities that hold some of the files, in order of their names. -/
def owners (claims : Claims) (keys : List (String × String)) : List String :=
  sortedSet (keys.filterMap (claims.lookup ·))

def claim (claims : Claims) (keys : List (String × String)) (owner : String) : Claims :=
  keys.foldl (fun claims key => Keyed.insert key owner claims) claims

def clashNotice (e : Entity) (m : EntityModel) (owners : List String) : Notice :=
  let names := String.intercalate ", " owners
  .error
    (s!"Generated files of {e.qualifiedName} in {m.package} clash with those of {names}; " ++
      "not generated")
    (some e.simpleName) none

inductive Step where
  | tell (notice : Notice)
  | emit (origin : String) (m : EntityModel) (a : Artifact)
  deriving DecidableEq, Repr

/-- The steps for entities whose models are built. An entity one of whose files is claimed is
skipped. -/
def steps (config : Config) (packages : List (String × String)) (claims : Claims) :
    List (Entity × EntityModel) → List Step
  | [] => []
  | (e, m) :: rest =>
      let links := (m.columns.flatMap (linkNotices packages e m)).map Step.tell
      let keys := fileKeys config m
      match owners claims keys with
      | [] =>
          links ++ artifacts.map (.emit e.qualifiedName m) ++
            steps config packages (claim claims keys e.qualifiedName) rest
      | owners => links ++ .tell (clashNotice e m owners) :: steps config packages claims rest

/-- How a round writes its files: not at all, or into an output directory. -/
abbrev Target := Option Output

def emit [OverrideLanguage] (config : Config) (target : Target) (r : Renderer) (origin : String)
    (m : EntityModel) (a : Artifact) : Renderer × Except Failure (GeneratedFile × List Notice) :=
  match r.render a.template (m.context (m.entity ++ a.suffix)) with
  | .error e => (r, .error (.render e))
  | .ok content =>
      let file : GeneratedFile := ⟨m.package, fileName config m a, content, m.entity, none⟩
      let r := r.keep a.template
      match target with
      | none => (r, .ok (file, []))
      | some output =>
          match output.write r.files file.package file.fileName file.content with
          | (fs, .error f) => ({ r with files := fs }, .error (.file f))
          | (fs, .ok path) =>
              ({ r with files := fs }, .ok ({ file with path := some path },
                [.info .output s!"Wrote {path.text} (from {origin})"]))

structure Execution where
  fs : FileSystem
  notices : List Notice
  result : Except Failure (List GeneratedFile)

/-- Executes steps one after the other, up to one that fails. -/
def execute [OverrideLanguage] (config : Config) (target : Target) (r : Renderer) :
    List Step → Execution
  | [] => ⟨r.files, [], .ok []⟩
  | .tell notice :: rest =>
      let done := execute config target r rest
      { done with notices := notice :: done.notices }
  | .emit origin m a :: rest =>
      match emit config target r origin m a with
      | (r, .error f) => ⟨r.files, [], .error f⟩
      | (r, .ok (file, notices)) =>
          let done := execute config target r rest
          { done with
            notices := notices ++ done.notices
            result := done.result.map (file :: ·) }

structure Tables where
  schema : Schema
  models : List EntityModel
  files : List GeneratedFile
  deriving DecidableEq, Repr

structure Outcome (α : Type) where
  fs : FileSystem
  notices : List Notice
  result : Except Failure α

def generateTables [OverrideLanguage] (fs : FileSystem) (config : Config) (target : Target)
    (entities : List Entity) : Outcome Tables :=
  let r : Renderer := ⟨fs, config.templateDir, []⟩
  let schema := Schema.build entities
  let start :=
    .info .round s!"Processing {entities.length} elements..." :: Schema.notices entities
  match models fs config r schema [] entities with
  | (told, .error e) => ⟨fs, start ++ told, .error (.render e)⟩
  | (told, .ok built) =>
      let packages := Keyed.ofList (built.map (fun (_, m) => (m.qualifiedName, m.package)))
      let done := execute config target r (steps config packages [] built)
      ⟨done.fs, start ++ told ++ done.notices,
        done.result.map (fun files => ⟨schema, built.map Prod.snd, files⟩)⟩

def unexpectedMarker (marker : String) : Notice :=
  .warning s!"Unexpected marker: {marker}" none none

/-- Goes through the markers of a round. The entities of the table marker are generated, any
other marker gives a warning. -/
def runMarkers [OverrideLanguage] (fs : FileSystem) (config : Config) (target : Target) :
    List (String × List Entity) → Outcome (Option Tables)
  | [] => ⟨fs, [], .ok none⟩
  | (marker, entities) :: rest =>
      if marker = config.tableMarker then
        match generateTables fs config target entities with
        | ⟨fs, notices, .error e⟩ => ⟨fs, notices, .error e⟩
        | ⟨fs, notices, .ok tables⟩ =>
            let more := runMarkers fs config target rest
            { more with
              notices := notices ++ more.notices
              result := more.result.map (fun last => some (last.getD tables)) }
      else
        let more := runMarkers fs config target rest
        { more with notices := unexpectedMarker marker :: more.notices }

def failureNotices (ds : Diagnostics) : List Notice :=
  if ds.hasErrors then
    [.log ⟨.error, .round, s!"Round failed with {ds.errors.length} error(s)"⟩] else []

end Round

open Round in
/-- One round over entities grouped by marker. The problems found before it are kept. -/
def Round.run [OverrideLanguage] (fs : FileSystem) (config : Config) (target : Target)
    (before : Diagnostics) (markers : List (String × List Entity)) : Outcome RoundResult :=
  let done := runMarkers fs config target markers
  let diagnostics := before ++ Diagnostics.ofNotices done.notices
  match done.result with
  | .error e => ⟨done.fs, done.notices, .error e⟩
  | .ok tables =>
      ⟨done.fs, done.notices ++ failureNotices diagnostics, .ok {
        schema := tables.map Tables.schema
        models := (tables.map Tables.models).getD []
        files := (tables.map Tables.files).getD []
        diagnostics := diagnostics }⟩

end TypedTables
