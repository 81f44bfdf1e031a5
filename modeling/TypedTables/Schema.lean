import TypedTables.Diagnostics
import TypedTables.Entity
import TypedTables.Keyed

/-!
Classification of candidate entities. An entity is nested (stored as a sub-table) if some
candidate, itself included, declares a field whose type identity is its qualified name; every
other candidate is a top-level table.
-/

namespace TypedTables

inductive Classification where
  | topLevel
  | nested
  deriving DecidableEq, Repr

def Classification.label : Classification → String
  | .topLevel => "TopLevel"
  | .nested => "Nested"

/-- The verdicts on one round's candidates by qualified name, in order of first appearance. -/
structure Schema where
  verdicts : List (String × Classification)
  deriving DecidableEq, Repr

namespace Schema

def referencedIdentities (entities : List Entity) : List String :=
  entities.flatMap (fun e =>
    e.fields.filterMap (fun f => if f.type.isDeclared then some f.type.identity else none))

/-- The schema of a sequence of verdicts; of two verdicts on one name the later one holds. -/
def ofList (verdicts : List (String × Classification)) : Schema :=
  ⟨Keyed.ofList verdicts⟩

def verdictOn (referenced : List String) (e : Entity) : Classification :=
  if e.qualifiedName ∈ referenced then .nested else .topLevel

def build (entities : List Entity) : Schema :=
  let referenced := referencedIdentities entities
  ofList (entities.map (fun e => (e.qualifiedName, verdictOn referenced e)))

def classify (s : Schema) (name : String) : Option Classification :=
  s.verdicts.lookup name

def isNested (s : Schema) (identity : String) : Bool :=
  s.classify identity = some .nested

def namesWith (s : Schema) (c : Classification) : List String :=
  s.verdicts.filterMap (fun v => if v.2 = c then some v.1 else none)

def tables (s : Schema) : List String := s.namesWith .topLevel

def subtables (s : Schema) : List String := s.namesWith .nested

def size (s : Schema) : Nat := s.verdicts.length

def notices (entities : List Entity) : List Notice :=
  let referenced := referencedIdentities entities
  entities.map (fun e =>
    let kind := match verdictOn referenced e with
      | .nested => "subtable"
      | .topLevel => "top-level table"
    .info .schema s!"Detected {kind}: {e.qualifiedName}")

end Schema

end TypedTables
