import TypedTables.CommandLine.Request
import TypedTables.Config.File
import TypedTables.Data.Json
import TypedTables.Log.Format
import TypedTables.Watch.Watcher

/-!
Running a request: finding the configuration, doing what the command asks, and telling about it.
What is found goes to the standard output; log lines, problems and failures go to the standard
error output. The exit code is zero if nothing is wrong.
-/

namespace TypedTables.CommandLine

/-- What a run depends on beside its arguments: the files, the configuration file that the
environment names, the text for the time of log lines, and whether the user interrupts it. -/
structure Surroundings where
  fs : FileSystem
  configFile? : Option String
  time : String
  interrupted : Bool

inductive Channel where
  | output
  | error
  deriving DecidableEq, Repr

abbrev Printed := Channel × String

structure Outcome where
  fs : FileSystem
  printed : List Printed
  code : Nat

def Outcome.written (o : Outcome) (channel : Channel) : String :=
  String.join (o.printed.filterMap (fun (c, text) => if c = channel then some text else none))

def told (line : String) : Printed := (.output, line ++ "\n")

def noted (line : String) : Printed := (.error, line ++ "\n")

structure Logging where
  level : LogLevel
  format : LogFormat
  time : String

def Logging.lines (log : Logging) (notices : List Notice) : List Printed :=
  let records := (notices.map Notice.record).filter (fun r => log.level.rank ≤ r.level.rank)
  records.map (fun r => noted (log.format.line log.time r))

def failed (fs : FileSystem) (before : List Printed) (message : String) : Outcome :=
  ⟨fs, before ++ [noted s!"Error: {message}"], 1⟩

def roundCode (r : RoundResult) : Nat := if r.failed then 1 else 0

def summary (r : RoundResult) : String :=
  let unwritten := if r.written.isEmpty then " (not written)" else ""
  s!"{r.models.length} entities, {r.files.length} files{unwritten}, " ++
    s!"{r.diagnostics.errors.length} error(s), {r.diagnostics.warnings.length} warning(s)"

def report (r : RoundResult) : List Printed :=
  r.diagnostics.lines.map noted ++ [told (summary r)]

def Request.override (request : Request) (config : Config) : Config :=
  let output := request.output?.getD ""
  { config with
    outputDir := if output.isEmpty then config.outputDir else output
    sourceRoots := if request.roots.isEmpty then config.sourceRoots else request.roots }

def runGenerate [OverrideLanguage] (fs : FileSystem) (config : Config) (log : Logging) (dry : Bool)
    : Outcome :=
  let done := generate fs config [] dry
  let printed := log.lines done.notices
  match done.result with
  | .error e => failed done.fs printed e.message
  | .ok r => ⟨done.fs, printed ++ report r, roundCode r⟩

def columnLine (c : Column) : String :=
  let index := toString c.index
  let blanks := fun (n : Nat) => String.ofList (List.replicate n ' ')
  let target := match c.link with
    | some link => " -> " ++ link.name
    | none => ""
  s!"  {blanks (3 - index.length)}{index}  {c.name}{blanks (24 - c.name.length)} " ++
    c.type.label ++ target

def entityLines (classification : String) (m : EntityModel) : List String :=
  ["", s!"{m.qualifiedName} ({classification})", String.ofList (List.replicate 60 '-')] ++
    if m.columns.isEmpty then ["  (no columns)"] else m.columns.map columnLine

def describe (r : RoundResult) : List (EntityModel × String) :=
  r.models.map (fun m =>
    (m, ((r.schema.bind (fun s => s.classify m.qualifiedName)).map Classification.label).getD ""))

def schemaData (r : RoundResult) : Data := .map [
  ("entities", .list ((describe r).map (fun (m, classification) => .map [
    ("entity", .text m.qualifiedName),
    ("classification", .text classification),
    ("columns", .list (m.columns.map Column.toData))]))),
  ("diagnostics", .list (r.diagnostics.lines.map .text))]

def runSchema [OverrideLanguage] (fs : FileSystem) (config : Config) (log : Logging) (asJson : Bool)
    : Outcome :=
  let done := generate fs config [] true
  let printed := log.lines done.notices
  match done.result with
  | .error e => failed done.fs printed e.message
  | .ok r =>
      let shown :=
        if asJson then [told (schemaData r).json]
        else (describe r).flatMap (fun (m, classification) =>
            (entityLines classification m).map told) ++ r.diagnostics.lines.map noted
      ⟨done.fs, printed ++ shown, roundCode r⟩

def loopNotice : Notice :=
  .log ⟨.debug, .eventLoop, "Using selector: EpollSelector"⟩

def banner : String := "Watcher started. Press Ctrl+C to stop."

structure Watching where
  watcher : Watch.Watcher
  log : Logging
  printed : List Printed

inductive Progress where
  | over (o : Outcome)
  | watching (w : Watching)

/-- Starts to watch: runs a first round and, if it completes, the watcher. -/
def startWatch [OverrideLanguage] (fs : FileSystem) (config : Config) (log : Logging) (delay : Int)
    : Progress :=
  let roots := config.sourceRoots.map Path.ofText
  let (w, first) := (Watch.Watcher.create config roots delay (fun _ => none) fs).attempt none
  let printed := log.lines (loopNotice :: first.notices)
  match first.result with
  | .error e => .over (failed w.fs printed e.message)
  | .ok r => .watching ⟨w, log, printed ++ report r ++ log.lines w.startNotices ++ [told banner]⟩

namespace Watching

def after (watching : Watching) (done : Watch.Watcher × Option Watch.Attempt) : Watching :=
  let printed := match done.2 with
    | none => []
    | some attempt =>
        watching.log.lines attempt.notices ++ match attempt.result with
          | .ok r => report r
          | .error _ => []
  { watching with watcher := done.1, printed := watching.printed ++ printed }

def observe [OverrideLanguage] (watching : Watching) (fs : FileSystem) (now : Int)
    (reports : List Watch.Report) :
    Watching :=
  let w := reports.foldl (fun w r => w.hear now r false) { watching.watcher with fs }
  { watching with printed := [] }.after (w.tick now)

/-- Stops to watch; what is still pending gets a last round. -/
def stop [OverrideLanguage] (watching : Watching) : Outcome :=
  let log := watching.log
  let first := watching.printed ++ log.lines [Watch.Watcher.stopNotice]
  let last := { watching with printed := first }.after watching.watcher.stop
  ⟨last.watcher.fs, last.printed ++ log.lines [Watch.Watcher.stoppedNotice], 0⟩

end Watching

/-- The outcome of a run that does not watch for longer than its first round. -/
def Progress.finish [OverrideLanguage] : Progress → Outcome
  | .over o => o
  | .watching w => w.stop

/-- The time to wait for changes to settle: the one asked for, unless it is zero. -/
def delayOf (config : Config) (asked? : Option Int) : Int :=
  match asked? with
  | none => config.watch.debounceMs
  | some delay => if delay = 0 then config.watch.debounceMs else delay

def startCommand [OverrideLanguage] (s : Surroundings) (config : Config) (log : Logging)
    : Command → Progress
  | .generate dry =>
      .over (if s.interrupted then ⟨s.fs, [noted "\nInterrupted by user"], 130⟩
        else runGenerate s.fs config log dry)
  | .schema asJson => .over (runSchema s.fs config log asJson)
  | .watch delay? => startWatch s.fs config log (delayOf config delay?)

def startRequest [OverrideLanguage] (s : Surroundings) (request : Request) : Progress :=
  match Config.load s.fs request.config? s.configFile? with
  | .error e => .over (failed s.fs [] e.report)
  | .ok config =>
      let config := request.override config
      match LogFormat.ofText? config.logging.format with
      | none => .over (failed s.fs [] (LogFormat.complaint config.logging.format))
      | some format =>
          let level := if request.verbose then .debug else config.logging.level
          startCommand s config ⟨level, format, s.time⟩ request.command

def start [OverrideLanguage] (s : Surroundings) (arguments : List String) : Progress :=
  match Request.ofArguments arguments with
  | .error ⟨_, .helpAsked⟩ => .over ⟨s.fs, [], 0⟩
  | .error e => .over ⟨s.fs, [noted e.message], 2⟩
  | .ok request => startRequest s request

/-- Runs the program with its arguments. A watcher is stopped after its first round. -/
def run [OverrideLanguage] (s : Surroundings) (arguments : List String) : Outcome :=
  (start s arguments).finish

end TypedTables.CommandLine
