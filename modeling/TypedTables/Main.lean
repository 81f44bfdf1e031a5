import TypedTables.CommandLine.Run
import TypedTables.Template.Plain
import TypedTables.Watch.Difference

/-!
The program. It reads the files below the working directory, runs its arguments on them, prints
what there is to print, and writes the files that have changed. While it watches, it looks at the
files again after every pause.
-/

namespace TypedTables.Program

open CommandLine

structure Look where
  tree : FileTree
  unreadable : List (List String)

mutual

/-- Adds a file or directory to a look. Links are not followed. -/
partial def readEntry (above : List String) (look : Look) (entry : IO.FS.DirEntry) : IO Look := do
  let location := above ++ [entry.fileName]
  let add := fun (node : FileTree) => { look with tree := node.put look.tree location }
  let closed := fun (node : FileTree) =>
    { add node with unreadable := location :: look.unreadable }
  match (← entry.path.symlinkMetadata).type with
  | .dir =>
      try readEntries location (add .empty) (← entry.path.readDir).toList
      catch _ => return closed .empty
  | .file =>
      try return add (.file (← IO.FS.readBinFile entry.path).toList)
      catch _ => return closed (.file [])
  | _ => return look

partial def readEntries (above : List String) (look : Look) : List IO.FS.DirEntry → IO Look
  | [] => return look
  | entry :: rest => do readEntries above (← readEntry above look entry) rest

end

def readFiles : IO FileSystem := do
  let directory ← IO.currentDir
  let location := (Path.ofText directory.toString).components
  let look : Look := ⟨FileTree.put .empty .empty location, []⟩
  let look ← readEntries location look (← directory.readDir).toList
  return ⟨look.tree, location, look.unreadable⟩

/-- Writes the files that are new or have new content. -/
def writeFiles (before after : FileTree) : IO Unit := do
  let old := before.files []
  for (location, bytes) in after.files [] do
    if old.lookup location ≠ some bytes then
      let path := Watch.absolute location
      IO.FS.createDirAll path.parent.text
      IO.FS.writeBinFile path.text ⟨bytes.toArray⟩

def print (printed : List Printed) : IO Unit := do
  for (channel, text) in printed do
    match channel with
    | .output => IO.print text
    | .error => IO.eprint text
  (← IO.getStdout).flush

partial def watch (watching : Watching) : IO Unit := do
  let w := watching.watcher
  IO.sleep (w.delay.toNat.toUInt32)
  let fs ← readFiles
  let changes := Watch.reports w.fs.tree fs.tree
  let watching := watching.observe fs (← IO.monoMsNow) changes
  print watching.printed
  writeFiles fs.tree watching.watcher.fs.tree
  watch watching

end TypedTables.Program

open TypedTables TypedTables.Program in
def main (arguments : List String) : IO UInt32 := do
  let fs ← readFiles
  let time := toString (← IO.monoMsNow)
  match CommandLine.start ⟨fs, ← IO.getEnv "TABLEGEN_CONFIG", time, false⟩ arguments with
  | .over o =>
      print o.printed
      writeFiles fs.tree o.fs.tree
      return o.code.toUInt32
  | .watching w =>
      print w.printed
      writeFiles fs.tree w.watcher.fs.tree
      watch w
      return 0
