import TypedTables.Column
import TypedTables.Sorted
import TypedTables.Source.File
import TypedTables.Source.Marked

/-!
The source order of fields, which decides the indices of columns. Fields that all carry a position
are sorted by it. Otherwise the positions are looked up in the source file, for all fields or for
none; if that fails the given order is kept and a warning says so.
-/

namespace TypedTables

open Source

abbrev SourceCache := List (Path × Option (List Statement))

namespace FieldOrder

/-- The statements of a source file, with the notice of a failure. A file is read only once. -/
def sourceOf (fs : FileSystem) (cache : SourceCache) (path : Path) :
    Option (List Statement) × List Notice × SourceCache :=
  match cache.lookup path with
  | some statements => (statements, [], cache)
  | none =>
      match statementsAt? fs path with
      | .ok statements => (some statements, [], (path, some statements) :: cache)
      | .error record => (none, [.log record], (path, none) :: cache)

def recoveredPositions (fs : FileSystem) (cache : SourceCache) (e : Entity) :
    Option (List (String × Nat)) × List Notice × SourceCache :=
  match e.sourceFile with
  | none => (none, [], cache)
  | some file =>
      if file.isEmpty then (none, [], cache)
      else
        let (statements, notices, cache) := sourceOf fs cache (Path.ofText file)
        (statements.bind (fun ss => fieldPositions? ss e.classPath), notices, cache)

def givenPositions? (fields : List Field) : Option (List (Int × Field)) :=
  fields.mapM (fun f => f.position.map (fun position => (position, f)))

/-- The fields in the order of the positions beside them; fields at one position keep theirs. -/
def byPosition (fields : List (Int × Field)) : List Field :=
  (Sorted.ofList (fun a b => a.1 ≤ b.1) fields).map Prod.snd

def keeping (e : Entity) (reason : String) : Notice :=
  .warning (reason ++ "; keeping declaration order of fields") (some e.simpleName) none

def recovered (e : Entity) (positions : Option (List (String × Nat))) :
    List Field × List Notice :=
  match positions with
  | none => (e.fields, [keeping e "Source of entity not available"])
  | some positions =>
      let missing := e.fields.filter (fun f => (positions.lookup f.name).isNone)
      if missing.isEmpty then
        (byPosition (e.fields.map (fun f => (((positions.lookup f.name).getD 0 : Nat), f))), [])
      else
        let names := String.intercalate ", " (missing.map Field.name)
        (e.fields, [keeping e s!"Fields not found in source ({names})"])

def sort (fs : FileSystem) (cache : SourceCache) (e : Entity) :
    List Field × List Notice × SourceCache :=
  if e.fields.isEmpty then ([], [], cache)
  else match givenPositions? e.fields with
    | some fields => (byPosition fields, [], cache)
    | none =>
        let (positions, notices, cache) := recoveredPositions fs cache e
        let (fields, warnings) := recovered e positions
        (fields, notices ++ warnings, cache)

/-- A notice where nobody collects problems: a problem becomes a log record. -/
def onlyLogged : Notice → Notice
  | .log record => .log record
  | .problem d => .log ⟨d.level, .fieldOrder, d.entity.getD "" ++ ": " ++ d.message⟩

end FieldOrder

namespace Column

def ofEntity (fs : FileSystem) (schema : Schema) (cache : SourceCache) (e : Entity) :
    List Column × List Notice × SourceCache :=
  let (fields, notices, cache) := FieldOrder.sort fs cache e
  (ofFields fields schema, notices, cache)

end Column

end TypedTables
