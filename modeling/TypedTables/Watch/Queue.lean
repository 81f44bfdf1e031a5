import TypedTables.File.Path
import TypedTables.Keyed

/-!
The queue of pending changes. A change of a file replaces the pending one of the same file and
keeps its place. A batch is taken only when the whole queue has settled: every pending change is
at least as old as the delay; taking it empties the queue. Times are counted in milliseconds.
-/

namespace TypedTables.Watch

inductive ChangeKind where
  | upsert
  | delete
  deriving DecidableEq, Repr

/-- A pending change: what happened last to a file, and when. -/
structure Pending where
  kind : ChangeKind
  time : Int
  deriving DecidableEq, Repr

abbrev Batch := List (Path × ChangeKind)

abbrev Queue := List (Path × Pending)

namespace Queue

def push (q : Queue) (file : Path) (kind : ChangeKind) (time : Int) : Queue :=
  Keyed.insert file ⟨kind, time⟩ q

def batch (q : Queue) : Batch :=
  q.map (fun (file, pending) => (file, pending.kind))

def isSettled (q : Queue) (delay now : Int) : Bool :=
  q.all (fun (_, pending) => pending.time + delay ≤ now)

/-- Takes the pending changes if there are any and all have settled. -/
def flush (q : Queue) (delay now : Int) : Option Batch × Queue :=
  if !q.isEmpty && q.isSettled delay now then (some q.batch, []) else (none, q)

/-- Takes the pending changes if there are any, settled or not. -/
def drain (q : Queue) : Option Batch × Queue :=
  (if q.isEmpty then none else some q.batch, [])

end Queue

end TypedTables.Watch
