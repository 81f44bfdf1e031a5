import TypedTables.Keyed

/-!
Directory trees: regular files with their bytes, and directories with named entries. A location
is the list of names that leads to a node from the top.
-/

namespace TypedTables

inductive FileTree where
  | file (bytes : List UInt8)
  | dir (entries : List (String × FileTree))
  deriving Inhabited

namespace FileTree

def empty : FileTree := .dir []

def isDir : FileTree → Bool
  | .dir _ => true
  | .file _ => false

def entries : FileTree → List (String × FileTree)
  | .dir entries => entries
  | .file _ => []

def at? (tree : FileTree) : List String → Option FileTree
  | [] => some tree
  | name :: rest => (tree.entries.lookup name).bind (fun child => child.at? rest)

/-- Places a node at a location. Missing directories on the way are made, and a file on the way
gives way to a directory. -/
def put (node : FileTree) (tree : FileTree) : List String → FileTree
  | [] => node
  | name :: rest =>
      let child := (tree.entries.lookup name).getD empty
      .dir (Keyed.insert name (put node child rest) tree.entries)

def erase (tree : FileTree) : List String → FileTree
  | [] => empty
  | [name] => .dir (tree.entries.filter (fun e => e.1 ≠ name))
  | name :: rest =>
      match tree.entries.lookup name with
      | none => tree
      | some child => .dir (Keyed.insert name (child.erase rest) tree.entries)

mutual

def files (above : List String) : FileTree → List (List String × List UInt8)
  | .file bytes => [(above, bytes)]
  | .dir entries => filesAmong above entries

def filesAmong (above : List String) :
    List (String × FileTree) → List (List String × List UInt8)
  | [] => []
  | (name, node) :: rest => node.files (above ++ [name]) ++ filesAmong above rest

end

end FileTree

end TypedTables
