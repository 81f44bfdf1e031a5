namespace TypedTables

inductive LogLevel where
  | debug
  | info
  | warning
  | error
  deriving DecidableEq, Repr

namespace LogLevel

def label : LogLevel → String
  | .debug => "DEBUG"
  | .info => "INFO"
  | .warning => "WARNING"
  | .error => "ERROR"

def rank : LogLevel → Nat
  | .debug => 10
  | .info => 20
  | .warning => 30
  | .error => 40

end LogLevel

inductive LogSource where
  | scanner
  | sourceReader
  | fieldOrder
  | schema
  | diagnostics
  | round
  | output
  | watch
  | eventLoop
  deriving DecidableEq, Repr

def LogSource.label : LogSource → String
  | .scanner => "tablegen.introspect.scanner"
  | .sourceReader => "tablegen.introspect.parsers"
  | .fieldOrder => "tablegen.introspect.field_sorter"
  | .schema => "tablegen.schema.classifier"
  | .diagnostics => "tablegen.diagnostics"
  | .round => "tablegen.codegen.processor"
  | .output => "tablegen.codegen.writer"
  | .watch => "tablegen.codegen.watcher"
  | .eventLoop => "asyncio"

structure LogRecord where
  level : LogLevel
  source : LogSource
  message : String
  deriving DecidableEq, Repr

end TypedTables
