import TypedTables.Log

/-!
Problems found in a schema. A round records them in order and reports them together at its end;
it fails exactly if one of them is an error.
-/

namespace TypedTables

inductive Severity where
  | warning
  | error
  deriving DecidableEq, Repr

def Severity.label : Severity → String
  | .warning => "warning"
  | .error => "error"

structure Diagnostic where
  severity : Severity
  message : String
  entity : Option String
  field : Option String
  deriving DecidableEq, Repr

namespace Diagnostic

/-- The place that a problem names. An empty name counts as no name, and a field is named only
inside an entity. -/
def place (entity field : Option String) : String :=
  let entity := entity.getD ""
  let field := field.getD ""
  if entity.isEmpty then ""
  else if field.isEmpty then entity ++ ": "
  else entity ++ "." ++ field ++ ": "

def line (d : Diagnostic) : String :=
  d.severity.label ++ ": " ++ place d.entity d.field ++ d.message

def level (d : Diagnostic) : LogLevel :=
  match d.severity with
  | .warning => .warning
  | .error => .error

def record (d : Diagnostic) : LogRecord :=
  ⟨d.level, .diagnostics, d.line⟩

end Diagnostic

abbrev Diagnostics := List Diagnostic

namespace Diagnostics

def errors (ds : Diagnostics) : Diagnostics :=
  ds.filter (fun d => d.severity = .error)

def warnings (ds : Diagnostics) : Diagnostics :=
  ds.filter (fun d => d.severity = .warning)

def hasErrors (ds : Diagnostics) : Bool :=
  ds.any (fun d => d.severity = .error)

def lines (ds : Diagnostics) : List String :=
  ds.map Diagnostic.line

end Diagnostics

/-- Something a round tells: a plain log record, or a problem, which is logged as well. -/
inductive Notice where
  | log (record : LogRecord)
  | problem (diagnostic : Diagnostic)
  deriving DecidableEq, Repr

namespace Notice

def record : Notice → LogRecord
  | .log r => r
  | .problem d => d.record

def diagnostic? : Notice → Option Diagnostic
  | .log _ => none
  | .problem d => some d

def info (source : LogSource) (message : String) : Notice :=
  .log ⟨.info, source, message⟩

def warning (message : String) (entity field : Option String) : Notice :=
  .problem ⟨.warning, message, entity, field⟩

def error (message : String) (entity field : Option String) : Notice :=
  .problem ⟨.error, message, entity, field⟩

end Notice

def Diagnostics.ofNotices (notices : List Notice) : Diagnostics :=
  notices.filterMap Notice.diagnostic?

end TypedTables
