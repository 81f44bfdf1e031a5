import TypedTables.Watch.Watcher

/-!
A watcher in the course of time. It checks its queue at every multiple of its delay; what happens
in between is known beforehand, with the time of each happening. The record of a run says after
every happening and every check what is pending and which rounds were run.
-/

namespace TypedTables.Watch

inductive Happening where
  | report (r : Report) (isDirectory : Bool)
  | put (path : Path) (node : FileTree)
  | remove (path : Path)
  | round

inductive Mark where
  | step (index : Nat)
  | tick (time : Int)
  | stopped
  deriving DecidableEq, Repr

structure Entry where
  mark : Mark
  queue : Queue
  attempts : List Attempt

structure Run where
  watcher : Watcher
  count : Nat
  entries : List Entry
  notices : List Notice

namespace Watcher

def happen [OverrideLanguage] (w : Watcher) (time : Int) : Happening → Watcher × Option Attempt
  | .report r isDirectory => (w.hear time r isDirectory, none)
  | .put path node =>
      let location := (path.resolve w.fs.cwd).components
      ({ w with fs := { w.fs with tree := FileTree.put node w.fs.tree location } }, none)
  | .remove path => ({ w with fs := w.fs.remove path }, none)
  | .round =>
      let (w, a) := w.attempt none
      (w, some a)

end Watcher

namespace Run

def record (run : Run) (mark : Mark) (done : Watcher × Option Attempt) : Run :=
  let attempts := done.2.toList
  { run with
    watcher := done.1
    entries := run.entries ++ [⟨mark, done.1.queue, attempts⟩]
    notices := run.notices ++ attempts.flatMap Attempt.notices }

def happen [OverrideLanguage] (run : Run) (h : Int × Happening) : Run :=
  { run.record (.step run.count) (run.watcher.happen h.1 h.2) with count := run.count + 1 }

def tick [OverrideLanguage] (run : Run) (now : Int) : Run :=
  run.record (.tick now) (run.watcher.tick now)

def say (run : Run) (notice : Notice) : Run :=
  { run with notices := run.notices ++ [notice] }

def stop [OverrideLanguage] (run : Run) : Run :=
  ((run.say Watcher.stopNotice).record .stopped run.watcher.stop).say Watcher.stoppedNotice

def happenUntil [OverrideLanguage] (run : Run) (time : Int)
    : List (Int × Happening) → Run × List (Int × Happening)
  | [] => (run, [])
  | h :: rest => if h.1 ≤ time then (run.happen h).happenUntil time rest else (run, h :: rest)

/-- Some checks of the queue, the next of them at `time`. The watcher is stopped in place of the
check after the last one. -/
def proceed [OverrideLanguage] (run : Run) (time : Int) (pending : List (Int × Happening))
    : Nat → Run
  | 0 => (run.happenUntil time pending).1.stop
  | checks + 1 =>
      let (run, rest) := run.happenUntil time pending
      (run.tick time).proceed (time + run.watcher.delay) rest checks

end Run

/-- A whole run: the watcher is started at time zero and is stopped instead of the first check
after the given time. -/
def Watcher.run [OverrideLanguage] (w : Watcher) (happenings : List (Int × Happening)) (last : Int)
    : Run :=
  let run : Run := ⟨w, 0, [], w.startNotices⟩
  run.proceed w.delay happenings (last / w.delay).toNat

end TypedTables.Watch
