import TypedTables.Generate
import TypedTables.Watch.Queue
import TypedTables.Watch.Scope

/-!
The watcher: it queues the changes of watched files and runs a whole round for every batch that
has settled. A round that fails is logged and forgotten; the next batch gets a fresh one.
-/

namespace TypedTables.Watch

inductive Report where
  | created (path : Path)
  | modified (path : Path)
  | deleted (path : Path)
  | moved (source target : Path)
  deriving DecidableEq, Repr

def Report.changes : Report → List (Path × ChangeKind)
  | .created path => [(path, .upsert)]
  | .modified path => [(path, .upsert)]
  | .deleted path => [(path, .delete)]
  | .moved source target => [(source, .delete), (target, .upsert)]

/-- Why a round of the watcher fails: it does not complete, or the listener refuses its result. -/
inductive RoundError where
  | generate (e : GenerateError)
  | listener (message : String)
  deriving DecidableEq, Repr

def RoundError.message : RoundError → String
  | .generate e => e.message
  | .listener message => message

structure Attempt where
  batch? : Option Batch
  notices : List Notice
  result : Except RoundError RoundResult

/-- The listener is told the number of each completed round and may refuse it. -/
abbrev Listener := Nat → Option String

structure Watcher where
  config : Config
  scope : Scope
  delay : Int
  listener : Listener
  fs : FileSystem
  queue : Queue
  completed : Nat

namespace Watcher

def create (config : Config) (roots : List Path) (delay : Int) (listener : Listener)
    (fs : FileSystem) : Watcher :=
  ⟨config, .of config roots fs.cwd, delay, listener, fs, [], 0⟩

def said (message : String) : Notice := .info .watch message

def batchNotices : Option Batch → List Notice
  | none => []
  | some batch => [said s!"[Batch] {batch.length} file event(s), regenerating..."]

def completeNotice (r : RoundResult) : Notice :=
  said (s!"[Batch] Complete - {r.models.length} entities, {r.written.length} files, " ++
    s!"{r.diagnostics.errors.length} error(s)")

def attempt [OverrideLanguage] (w : Watcher) (batch? : Option Batch) : Watcher × Attempt :=
  let done := generate w.fs w.config w.scope.roots false
  let notices := batchNotices batch? ++ done.notices
  match done.result with
  | .error e => ({ w with fs := done.fs }, ⟨batch?, notices, .error (.generate e)⟩)
  | .ok result =>
      let w := { w with fs := done.fs, completed := w.completed + 1 }
      let outcome := match w.listener w.completed with
        | none => .ok result
        | some message => .error (.listener message)
      (w, ⟨batch?, notices ++ [completeNotice result], outcome⟩)

/-- Runs the round of a batch, if there is one; a failure is logged under a name. -/
def attemptBatch [OverrideLanguage] (w : Watcher) (name : String)
    : Option Batch → Watcher × Option Attempt
  | none => (w, none)
  | some batch =>
      let (w, a) := w.attempt (some batch)
      match a.result with
      | .ok _ => (w, some a)
      | .error e =>
          let notice := Notice.log ⟨.error, .watch, s!"[Batch] {name} failed: {e.message}"⟩
          (w, some { a with notices := a.notices ++ [notice] })

def enqueue (w : Watcher) (time : Int) (file : Path) (kind : ChangeKind) : Watcher :=
  if w.scope.ignores file then w else { w with queue := w.queue.push file kind time }

/-- Hears of a change; reports about directories do not matter. -/
def hear (w : Watcher) (time : Int) (r : Report) (isDirectory : Bool) : Watcher :=
  if isDirectory then w
  else r.changes.foldl (fun w (path, kind) => w.enqueue time (path.resolve w.fs.cwd) kind) w

def tick [OverrideLanguage] (w : Watcher) (now : Int) : Watcher × Option Attempt :=
  let (batch?, queue) := w.queue.flush w.delay now
  { w with queue }.attemptBatch "Round" batch?

def startNotices (w : Watcher) : List Notice :=
  let roots := String.intercalate ", " (w.scope.roots.map Path.text)
  [said s!"Starting watcher for {roots}", said s!"Debounce: {w.delay}ms"]

def stopNotice : Notice := said "Stopping watcher..."

def stoppedNotice : Notice := said "Watcher stopped."

/-- Stops the watcher: what is still pending gets a last round. -/
def stop [OverrideLanguage] (w : Watcher) : Watcher × Option Attempt :=
  let (batch?, queue) := w.queue.drain
  { w with queue }.attemptBatch "Final round" batch?

end Watcher

end TypedTables.Watch
